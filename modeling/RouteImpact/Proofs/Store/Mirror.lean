import RouteImpact.Proofs.Disk.Making
import RouteImpact.Proofs.Store.Keys
import RouteImpact.Proofs.Store.Listing

namespace RouteImpact

open Disk (Nameable Spelled lead)

/-!
# Disks that mirror a map

A store in a directory keeps the bytes of each key in a file.  As long as the keys are not in
each other's way, the files below the directory are the entries of a map: an upload writes the
file of its key and makes directories that no key stands at, and what it writes beside the file
is gone when it ends.

* `Store.writeThenMove_of_free` — what a disk holds after a write in two steps;
* `Store.Separate` — keys that are not in each other's way;
* `Store.Mirrors` — a disk with the files of a map; `Store.Mirrors.change` keeps it when the
  two change at one key;
* `Store.Mirrors.upload`, `Store.Mirrors.download`, `Store.Mirrors.delete`,
  `Store.Mirrors.keysBelow` — what a store does on the disk is what a map does.
-/

/-- What stands where after a file was written beside its place and moved there. -/
theorem Disk.at?_moved (d : Disk) {place beside : Place} (hplace : place ≠ [])
    (hbeside : beside ≠ []) (e e' : Entry) (p : Place) :
    (((d.set beside e').erase beside).set place e).at? p =
      if place = p then some e else if beside = p then none else d.at? p := by
  rw [at?_set hplace]
  by_cases hroot : p = []
  · subst hroot
    rw [if_neg hplace, if_neg hplace, if_neg hbeside, at?_root, at?_root]
  · rw [at?_erase hroot, at?_set hbeside]
    by_cases hp : beside = p <;> simp [hp]

namespace Store

/-! ### Writing where no file is in the way -/

section Free

variable {d : Disk} {root front : List String} {base : Disk.Place} {name : String}

/-- A write in two steps into a directory that was just made: the file is written beside its
place and moved there. -/
theorem writeThenMove_of_made {d₁ : Disk} (hmake : d.makeDirectories (root ++ front) = (.ok (), d₁))
    (h : d₁.Sound) (hroot : d₁.locate root = .ok base)
    (hdir : d₁.at? (base ++ front) = some .directory) (hname : Nameable name)
    (hlast : Nameable (name ++ temporaryEnding))
    (hplace : d₁.at? (base ++ (front ++ [name])) ≠ some .directory)
    (hbeside : d₁.at? (base ++ (front ++ [name ++ temporaryEnding])) ≠ some .directory)
    (data : ByteArray) :
    writeThenMove d (root ++ (front ++ [name])) data =
      (.ok (), ((d₁.set (base ++ (front ++ [name ++ temporaryEnding])) (.file data)).erase
        (base ++ (front ++ [name ++ temporaryEnding]))).set (base ++ (front ++ [name]))
          (.file data)) := by
  have htarget := Disk.target_append h hroot hdir hname
  have htarget' := Disk.target_append h hroot hdir hlast
  unfold writeThenMove
  rw [temporary_append root (by simp), temporary_concat, List.dropLast_append_of_ne_nil (by simp),
    List.dropLast_concat, hmake]
  dsimp only
  rw [Disk.write_of_target htarget' hbeside]
  exact Disk.rename_of_write hbeside htarget' htarget hplace

/-- **What a disk holds after a write in two steps** below a directory, where no file is in
the way: the file, directories on the way to it, nothing beside it, and all else as before. -/
theorem writeThenMove_of_free (h : d.Sound) (hroot : d.locate root = .ok base)
    (hspelled : Spelled root) (hbase : d.at? base = some .directory)
    (hfront : ∀ n ∈ front, Nameable n) (hname : Nameable name)
    (hlast : Nameable (name ++ temporaryEnding))
    (hfree : ∀ q, q <+: front → ∀ bytes, d.at? (base ++ q) ≠ some (.file bytes))
    (hplace : d.at? (base ++ (front ++ [name])) ≠ some .directory)
    (hbeside : d.at? (base ++ (front ++ [name ++ temporaryEnding])) ≠ some .directory)
    (data : ByteArray) :
    ∃ d', writeThenMove d (root ++ (front ++ [name])) data = (.ok (), d') ∧ d'.Sound ∧
      d'.at? (base ++ (front ++ [name])) = some (.file data) ∧
      ∀ p, p = base ++ (front ++ [name]) ∨
        p = base ++ (front ++ [name ++ temporaryEnding]) ∧ d'.at? p = none ∨
        (∃ q, q <+: front ∧ p = base ++ q ∧ d'.at? p = some .directory) ∨
        d'.at? p = d.at? p := by
  obtain ⟨d₁, hmake, hsound₁, hroot₁, hway, helse⟩ :=
    Disk.makeDirectories_of_free h hroot hbase hfront hfree
  -- neither the place nor the one beside it lies on the way
  have hoff : ∀ last q, q <+: front → base ++ (front ++ [last]) ≠ base ++ q := by
    intro last q hq heq
    have hlen := congrArg List.length (List.append_cancel_left heq)
    have := hq.length_le
    rw [List.length_append, List.length_singleton] at hlen
    omega
  have hplace₁ : d₁.at? (base ++ (front ++ [name])) ≠ some .directory := by
    rw [helse _ (hoff name)]
    exact hplace
  have hbeside₁ : d₁.at? (base ++ (front ++ [name ++ temporaryEnding])) ≠ some .directory := by
    rw [helse _ (hoff _)]
    exact hbeside
  have hwrite := writeThenMove_of_made hmake hsound₁ hroot₁ (hway front (List.prefix_refl front))
    hname hlast hplace₁ hbeside₁ data
  have hne : ∀ last, base ++ (front ++ [last]) ≠ [] := by simp
  have hat := Disk.at?_moved d₁ (hne name) (hne (name ++ temporaryEnding)) (.file data) (.file data)
  refine ⟨_, hwrite, ?_, by rw [hat, if_pos rfl], fun p => ?_⟩
  · have hnames : root ++ (front ++ [name]) = root ++ front ++ [name] := by simp
    have hfootprint := writeThenMove_footprint h (spelled_append hspelled ?_) hnames
      hname.proper.ne_points data
    · rw [hwrite] at hfootprint
      exact hfootprint.1
    · intro n hn
      rcases List.mem_append.1 hn with hn | hn
      · exact (hfront n hn).proper
      · exact List.mem_singleton.1 hn ▸ hname.proper
  · by_cases hp : base ++ (front ++ [name]) = p
    · exact Or.inl hp.symm
    · rw [hat, if_neg hp]
      by_cases hp' : base ++ (front ++ [name ++ temporaryEnding]) = p
      · exact Or.inr (Or.inl ⟨hp'.symm, if_pos hp'⟩)
      · rw [if_neg hp']
        by_cases hq : ∃ q, q <+: front ∧ p = base ++ q
        · obtain ⟨q, hq, rfl⟩ := hq
          exact Or.inr (Or.inr (Or.inl ⟨q, hq, rfl, hway q hq⟩))
        · exact Or.inr (Or.inr (Or.inr (helse p fun q hq' hp => hq ⟨q, hq', hp⟩)))

end Free

/-! ### Keys that are not in each other's way -/

/-- Keys that a store in a directory can hold at once: in normal form, with names that are not
too long, none of them on the way to another, and none of them, nor a directory on the way to
one, where the unfinished file of another stands. -/
structure Separate (keys : List String) : Prop where
  accepted : ∀ key ∈ keys, isKey key = true
  no_nul : ∀ key ∈ keys, Disk.hasNul key = false
  normal : ∀ key ∈ keys, Normal key
  short : ∀ key ∈ keys, ∀ name ∈ temporary (Path.components key),
    name.utf8ByteSize ≤ Disk.longestName
  apart : ∀ key ∈ keys, ∀ other ∈ keys,
    Path.components key <+: Path.components other → key = other
  beside : ∀ key ∈ keys, ∀ other ∈ keys,
    ¬temporary (Path.components key) <+: Path.components other

section Separate

variable {keys : List String} {key : String}

/-- The names of a key and of its unfinished file can stand on a disk. -/
theorem Separate.nameable (h : Separate keys) (hkey : key ∈ keys) :
    ∃ front name, Path.components key = front ++ [name] ∧ (∀ n ∈ front, Nameable n) ∧
      Nameable name ∧ Nameable (name ++ temporaryEnding) := by
  have hne := (h.normal key hkey).components_ne_nil
  obtain ⟨front, name, hnames⟩ : ∃ front name, Path.components key = front ++ [name] :=
    ⟨_, _, (List.dropLast_concat_getLast hne).symm⟩
  obtain ⟨hproper, -⟩ := of_isKey (h.accepted key hkey)
  have hshort := h.short key hkey
  have hnul : ∀ n ∈ Path.components key, '\x00' ∉ n.toList := by
    intro n hn hc
    have hclean := h.no_nul key hkey
    rw [Disk.hasNul, ← Bool.not_eq_true, List.contains_iff_mem,
      Path.mem_iff_mem_components (by decide) (by decide)] at hclean
    exact hclean ⟨n, hn, hc⟩
  have hclean : ∀ n : String, '\x00' ∉ n.toList → Disk.hasNul n = false := by
    intro n hn
    rw [Disk.hasNul, ← Bool.not_eq_true, List.contains_iff_mem]
    exact hn
  rw [hnames, temporary_concat] at hshort
  rw [hnames] at hproper hnul
  have hsize : (name ++ temporaryEnding).utf8ByteSize ≤ Disk.longestName := hshort _ (by simp)
  refine ⟨front, name, hnames, fun n hn => ?_, ?_, ?_⟩
  · exact ⟨hproper n (by simp [hn]), hclean n (hnul n (by simp [hn])), hshort n (by simp [hn])⟩
  · refine ⟨hproper name (by simp), hclean name (hnul name (by simp)), ?_⟩
    rw [String.utf8ByteSize_append] at hsize
    omega
  · refine ⟨proper_temporary (hproper name (by simp)).no_slash, hclean _ ?_, hsize⟩
    rw [String.toList_append, List.mem_append, not_or]
    exact ⟨hnul name (by simp), by decide⟩

theorem Separate.nameable_components (h : Separate keys) (hkey : key ∈ keys) :
    ∀ n ∈ Path.components key, Nameable n := by
  obtain ⟨front, name, hnames, hfront, hname, -⟩ := h.nameable hkey
  intro n hn
  rw [hnames, List.mem_append, List.mem_singleton] at hn
  rcases hn with hn | rfl
  · exact hfront n hn
  · exact hname

end Separate

/-! ### Disks that mirror a map -/

/-- The place of the directory of a store. -/
def place (path : String) : Disk.Place := lead [] (Path.components path)

/-- A disk whose files below the directory of a store are the bytes of a map, and whose
directories there are those on the way to keys. -/
structure Mirrors (path : String) (keys : List String) (d : Disk) (blobs : OrderedMap ByteArray) :
    Prop where
  sound : d.Sound
  root : d.locate (Path.components path) = .ok (place path)
  base : d.at? (place path) = some .directory
  bytes : ∀ key ∈ keys, d.bytes? (place path ++ Path.components key) = blobs.get? key
  file : ∀ names, (d.bytes? (place path ++ names)).isSome = true →
    ∃ key ∈ keys, names = Path.components key
  directory : ∀ names, names ≠ [] → d.at? (place path ++ names) = some .directory →
    ∃ key ∈ keys, names <+: Path.components key ∧ names ≠ Path.components key
  known : ∀ key, (blobs.get? key).isSome = true → key ∈ keys

section Mirrors

variable {path : String} {keys : List String} {d : Disk} {blobs : OrderedMap ByteArray}
  {key : String}

/-- No file is on the way to a key. -/
theorem Mirrors.free (h : Mirrors path keys d blobs) (hkeys : Separate keys) (hkey : key ∈ keys) :
    ∀ q, q <+: Path.components key → q ≠ Path.components key →
      ∀ bytes, d.at? (place path ++ q) ≠ some (.file bytes) := by
  intro q hq hne bytes hat
  obtain ⟨other, hother, rfl⟩ := h.file q (by rw [Disk.bytes?_eq_some_iff.2 hat]; rfl)
  exact hne (by rw [hkeys.apart other hother key hkey hq])

/-- No directory is where a key, or the unfinished file of one, stands. -/
theorem Mirrors.not_directory (h : Mirrors path keys d blobs) (hkeys : Separate keys)
    (hkey : key ∈ keys) :
    d.at? (place path ++ Path.components key) ≠ some .directory ∧
      d.at? (place path ++ temporary (Path.components key)) ≠ some .directory := by
  constructor
  · intro hat
    obtain ⟨other, hother, hprefix, hne⟩ :=
      h.directory _ (hkeys.normal key hkey).components_ne_nil hat
    exact hne (by rw [hkeys.apart key hkey other hother hprefix])
  · intro hat
    obtain ⟨other, hother, hprefix, -⟩ := h.directory _ (by simp [temporary]) hat
    exact hkeys.beside key hkey other hother hprefix

/-- **What the names of a key lead to** is what the map holds under it. -/
theorem Mirrors.find (h : Mirrors path keys d blobs) (hkeys : Separate keys) (hkey : key ∈ keys) :
    d.find (names path key) =
      (blobs.get? key).elim (.error .notFound)
        fun bytes => .ok (place path ++ Path.components key, .file bytes) := by
  obtain ⟨hproper, hnames⟩ := of_isKey (hkeys.accepted key hkey)
  rw [hnames, ← h.bytes key hkey]
  cases hat : d.at? (place path ++ Path.components key) with
  | none =>
    have hnone : d.bytes? (place path ++ Path.components key) = none := by
      rw [Disk.bytes?, hat]
    rw [hnone]
    exact Disk.find_append_of_free h.root (hkeys.nameable_components hkey) (h.free hkeys hkey) hat
  | some e =>
    cases e with
    | directory => exact absurd hat (h.not_directory hkeys hkey).1
    | file bytes =>
      rw [Disk.bytes?_eq_some_iff.2 hat]
      exact (h.sound.find_append_iff (Or.inr ⟨_, h.root⟩)
        fun n hn => (hproper n hn).ne_points).2 ⟨rfl, hat⟩

/-- **Downloading** from the disk is looking into the map. -/
theorem Mirrors.download (h : Mirrors path keys d blobs) (hkeys : Separate keys)
    (hkey : key ∈ keys) (d₀ : Disk) :
    Host.download ⟨.directory path, d⟩ key = Host.download ⟨.memory blobs, d₀⟩ key := by
  have hfind := h.find hkeys hkey
  simp only [Host.download, if_pos (hkeys.accepted key hkey), Disk.read, hfind]
  cases blobs.get? key <;> rfl

/-- **A change at one key** of the map and of the disk keeps the two alike. -/
theorem Mirrors.change (h : Mirrors path keys d blobs) (hkeys : Separate keys) (hkey : key ∈ keys)
    {d' : Disk} {blobs' : OrderedMap ByteArray} (hsound : d'.Sound)
    (hkept : ∀ p, d.at? p = some .directory → d'.at? p = some .directory)
    (hmade : ∀ names, d'.at? (place path ++ names) = some .directory →
      d.at? (place path ++ names) = some .directory ∨
        names <+: Path.components key ∧ names ≠ Path.components key)
    (hother : ∀ names, names ≠ Path.components key →
      d'.bytes? (place path ++ names) = d.bytes? (place path ++ names))
    (hself : d'.bytes? (place path ++ Path.components key) = blobs'.get? key)
    (hget : ∀ other, key ≠ other → blobs'.get? other = blobs.get? other) :
    Mirrors path keys d' blobs' where
  sound := hsound
  root := by
    obtain ⟨hnul, hwalk⟩ := Disk.walk_of_locate h.root
    rw [Disk.locate, if_neg (by simp [hnul])]
    exact Disk.walk_mono hkept hwalk
  base := hkept _ h.base
  bytes := by
    intro other hmem
    by_cases heq : key = other
    · rw [← heq, hself]
    · have hne : Path.components other ≠ Path.components key := by
        intro hsame
        exact heq (hkeys.apart key hkey other hmem (hsame ▸ List.prefix_refl _))
      rw [hother _ hne, h.bytes other hmem, hget other heq]
  file := by
    intro names hsome
    by_cases heq : names = Path.components key
    · exact ⟨key, hkey, heq⟩
    · rw [hother names heq] at hsome
      exact h.file names hsome
  directory := by
    intro names hne hat
    rcases hmade names hat with hold | hnew
    · exact h.directory names hne hold
    · exact ⟨key, hkey, hnew⟩
  known := by
    intro other hsome
    by_cases heq : key = other
    · exact heq ▸ hkey
    · rw [hget other heq] at hsome
      exact h.known other hsome

/-- **Removing** a file from the disk is removing it from the map. -/
theorem Mirrors.delete (h : Mirrors path keys d blobs) (hkeys : Separate keys)
    (hkey : key ∈ keys) :
    ∃ d', Host.delete ⟨.directory path, d⟩ key = (.ok (), ⟨.directory path, d'⟩) ∧
      Mirrors path keys d' (blobs.erase key) := by
  have hfind := h.find hkeys hkey
  have hgone : (blobs.erase key).get? key = none := by simp
  have hget : ∀ other, key ≠ other → (blobs.erase key).get? other = blobs.get? other := by
    intro other hne
    rw [OrderedMap.get?_erase, if_neg hne]
  simp only [Host.delete, if_pos (hkeys.accepted key hkey), Disk.unlink, hfind]
  cases hold : blobs.get? key with
  | none =>
    refine ⟨d, rfl, h.change hkeys hkey h.sound (fun _ => id) (fun _ => Or.inl) (fun _ _ => rfl)
      ?_ hget⟩
    rw [h.bytes key hkey, hold, hgone]
  | some bytes =>
    have hat : d.at? (place path ++ Path.components key) = some (.file bytes) := by
      rw [← Disk.bytes?_eq_some_iff, h.bytes key hkey, hold]
    have hne : place path ++ Path.components key ≠ [] := by
      simp [(hkeys.normal key hkey).components_ne_nil]
    refine ⟨_, rfl, h.change hkeys hkey (h.sound.erase hat) (fun p hp => ?_) (fun names hdir => ?_)
      (fun names hnames => ?_) ?_ hget⟩
    · exact Disk.at?_erase_of_directory (by simp [hat]) hp
    · exact Or.inl (by_contra fun hno => Disk.at?_erase_ne_directory hno hdir)
    · exact Disk.bytes?_erase_of_ne (by simpa using Ne.symm hnames)
    · rw [hgone, Disk.bytes?, Disk.at?_erase hne, if_pos rfl]

/-- **Writing** a file to the disk is putting it into the map. -/
theorem Mirrors.upload (h : Mirrors path keys d blobs) (hkeys : Separate keys)
    (hkey : key ∈ keys) (data : ByteArray) :
    ∃ d', writeThenMove d (names path key) data = (.ok (), d') ∧
      Mirrors path keys d' (blobs.set key data) := by
  obtain ⟨-, hnames⟩ := of_isKey (hkeys.accepted key hkey)
  obtain ⟨front, name, hconcat, hfront, hname, hlast⟩ := hkeys.nameable hkey
  have hway : ∀ q, q <+: front → q <+: Path.components key ∧ q ≠ Path.components key := by
    intro q hq
    rw [hconcat]
    refine ⟨hq.trans (List.prefix_append _ _), fun heq => ?_⟩
    have hlen := hq.length_le
    rw [heq, List.length_append, List.length_singleton] at hlen
    omega
  have hfree := fun q hq => h.free hkeys hkey q (hway q hq).1 (hway q hq).2
  obtain ⟨hplace, hbeside⟩ := h.not_directory hkeys hkey
  rw [hconcat, temporary_concat] at hbeside
  rw [hconcat] at hplace
  obtain ⟨d', hwrite, hsound, hself, hcases⟩ := writeThenMove_of_free h.sound h.root
    (spelled_components path) h.base hfront hname hlast hfree hplace hbeside data
  rw [← hconcat, ← hnames] at hwrite
  rw [← hconcat] at hself hplace hcases
  have hfile : d'.bytes? (place path ++ Path.components key) = some data :=
    Disk.bytes?_eq_some_iff.2 hself
  refine ⟨d', hwrite, h.change hkeys hkey hsound (fun p hp => ?_) (fun file hdir => ?_)
    (fun file hfile => ?_) (by rw [hfile, OrderedMap.get?_set, if_pos rfl]) ?_⟩
  · rcases hcases p with rfl | ⟨rfl, -⟩ | ⟨q, -, -, hdir⟩ | hsame
    · exact absurd hp hplace
    · exact absurd hp hbeside
    · exact hdir
    · rw [hsame]
      exact hp
  · rcases hcases (place path ++ file) with heq | ⟨-, hnone⟩ | ⟨q, hq, heq, -⟩ | hsame
    · rw [heq, hself] at hdir
      cases hdir
    · rw [hnone] at hdir
      cases hdir
    · rw [List.append_cancel_left heq]
      exact Or.inr (hway q hq)
    · rw [← hsame]
      exact Or.inl hdir
  · rcases hcases (place path ++ file) with heq | ⟨heq, hnone⟩ | ⟨q, hq, heq, hdir⟩ | hsame
    · exact absurd (List.append_cancel_left heq) hfile
    · -- no key stands beside another, so there was no file
      obtain rfl := List.append_cancel_left heq
      rw [Disk.bytes?, hnone, eq_comm, ← Option.not_isSome_iff_eq_none]
      intro hsome
      obtain ⟨other, hother, heq⟩ := h.file _ hsome
      have hsame : temporary (Path.components key) = Path.components other := by
        rw [hconcat, temporary_concat, heq]
      exact hkeys.beside key hkey other hother (hsame ▸ List.prefix_refl _)
    · obtain rfl := List.append_cancel_left heq
      rw [Disk.bytes?, hdir, eq_comm, Option.eq_none_iff_forall_ne_some]
      exact fun bytes hbytes => hfree file hq bytes (Disk.bytes?_eq_some_iff.1 hbytes)
    · rw [Disk.bytes?, Disk.bytes?, hsame]
  · intro other hne
    rw [OrderedMap.get?_set, if_neg hne]

/-- A key that is listed: its last name has not the ending of unfinished files. -/
def isFinished (key : String) : Bool := !Text.endsWith (Path.lastName key) temporaryEnding

/-- **Listing** the disk is listing the map, without the keys that look unfinished. -/
theorem Mirrors.keysBelow (h : Mirrors path keys d blobs) (hkeys : Separate keys) :
    keysBelow d path = Text.sort (blobs.keys.filter isFinished) := by
  refine keysBelow_eq_sort h.sound (Or.inr ⟨_, h.root⟩) (blobs.nodup.filter _) fun key => ?_
  rw [mem_listed h.sound, List.mem_filter, OrderedMap.mem_keys_iff, isFinished,
    Bool.not_eq_true']
  constructor
  · rintro ⟨hsome, hlast⟩
    have hkey := h.known key hsome
    have hnormal := hkeys.normal key hkey
    refine ⟨Path.components key, hnormal.components_ne_nil, ?_, hlast, hnormal.join_components⟩
    rw [← place, h.bytes key hkey]
    exact hsome
  · rintro ⟨file, -, hsome, hlast, rfl⟩
    obtain ⟨other, hother, rfl⟩ := h.file file hsome
    rw [(hkeys.normal other hother).join_components]
    rw [← place, h.bytes other hother] at hsome
    exact ⟨hsome, hlast⟩

end Mirrors

end Store

end RouteImpact
