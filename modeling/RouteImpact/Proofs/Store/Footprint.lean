import RouteImpact.Proofs.Disk.Sound
import RouteImpact.Store.Snapshot

namespace RouteImpact

open Path (Proper)

/-!
# What keeping a graph does to the disk

A store in a directory writes below the project it belongs to.  Of the files that were
there it touches none but those that bear the name of the persisted graph, or that name
with the ending of unfinished files.

* `Disk.AgreeOff` — two disks whose files agree except where they bear one of some names;
* `Disk.Sound.makeWalk`, `Disk.Sound.writeThenMove` — making directories, and writing a
  file in two steps, keep a disk sound and its other files in place;
* `Host.upload_footprint`, `Host.delete_footprint` — hence what a store does to the disk.
-/

namespace Disk

/-- The files of two disks agree except where they bear one of the given names. -/
def AgreeOff (names : List String) (d d' : Disk) : Prop :=
  ∀ place, (∀ name ∈ names, place.getLast? ≠ some name) → d.bytes? place = d'.bytes? place

theorem AgreeOff.refl (names : List String) (d : Disk) : AgreeOff names d d :=
  fun _ _ => rfl

theorem AgreeOff.trans {names : List String} {a b c : Disk} (hab : AgreeOff names a b)
    (hbc : AgreeOff names b c) : AgreeOff names a c :=
  fun place h => (hab place h).trans (hbc place h)

/-! ### Files after a change -/

theorem bytes?_set_of_ne {d : Disk} {place p : Place} {e : Entry} (hne : place ≠ [])
    (hp : place ≠ p) : (d.set place e).bytes? p = d.bytes? p := by
  rw [bytes?, bytes?, at?_set hne, if_neg hp]

theorem bytes?_erase_of_ne {d : Disk} {place p : Place} (hp : place ≠ p) :
    (d.erase place).bytes? p = d.bytes? p := by
  by_cases hroot : p = []
  · subst hroot
    rw [bytes?, bytes?, at?_root, at?_root]
  · rw [bytes?, bytes?, at?_erase hroot, if_neg hp]

/-- A new directory is no file. -/
theorem bytes?_set_directory {d : Disk} {place : Place} (hne : place ≠ [])
    (hat : d.at? place = none) (p : Place) :
    (d.set place .directory).bytes? p = d.bytes? p := by
  by_cases hp : place = p
  · subst hp
    rw [bytes?, bytes?, at?_set hne, if_pos rfl, hat]
  · exact bytes?_set_of_ne hne hp

/-! ### Walks that end -/

/-- Names as paths spell them: proper, but for two points. -/
def Spelled (names : List String) : Prop := ∀ n ∈ names, n ≠ ".." → Proper n

theorem Spelled.tail {name : String} {rest : List String} (h : Spelled (name :: rest)) :
    Spelled rest :=
  fun n hn => h n (by simp [hn])

theorem nameable_of_walk {d : Disk} {here place : Place} {names : List String}
    (hhere : ∀ n ∈ here, Nameable n) (hspelled : Spelled names)
    (hnul : names.any hasNul = false) (h : d.walk here names = .ok place) :
    ∀ n ∈ place, Nameable n := by
  induction names generalizing here with
  | nil =>
    rw [walk] at h
    cases h
    exact hhere
  | cons name rest ih =>
    rw [List.any_cons, Bool.or_eq_false_iff] at hnul
    unfold walk at h
    split at h
    · cases h
    · cases h
    · split at h
      · exact ih (fun n hn => hhere n (List.dropLast_subset _ hn)) hspelled.tail hnul.2 h
      · next hup =>
        split at h
        · cases h
        · next hlong =>
          refine ih ?_ hspelled.tail hnul.2 h
          intro n hn
          rcases List.mem_append.1 hn with hold | hnew
          · exact hhere n hold
          · rw [List.mem_singleton.1 hnew]
            exact ⟨hspelled name (by simp) hup, hnul.1, Nat.not_lt.1 hlong⟩

/-- A walk ends at its last name. -/
theorem getLast?_of_walk {d : Disk} {here place : Place} {front : List String} {name : String}
    (hname : name ≠ "..") (h : d.walk here (front ++ [name]) = .ok place) :
    place.getLast? = some name := by
  induction front generalizing here with
  | nil =>
    have hplace := eq_append_of_walk (by simpa using hname) h
    rw [hplace, List.nil_append, List.getLast?_concat]
  | cons n rest ih =>
    rw [List.cons_append] at h
    unfold walk at h
    split at h
    · cases h
    · cases h
    · split at h
      · exact ih h
      · split at h
        · cases h
        · exact ih h

/-- Walks pass through directories only, so they go on where these are still there. -/
theorem walk_mono {d d' : Disk} {here place : Place} {names : List String}
    (hdirs : ∀ p, d.at? p = some .directory → d'.at? p = some .directory)
    (h : d.walk here names = .ok place) : d'.walk here names = .ok place := by
  induction names generalizing here with
  | nil => exact h
  | cons name rest ih =>
    unfold walk at h
    split at h
    · cases h
    · cases h
    · next hdir =>
      rw [walk, hdirs here hdir]
      split at h
      · next hup =>
        simp only [if_pos hup]
        exact ih h
      · next hup =>
        simp only [if_neg hup]
        split at h
        · cases h
        · next hlong =>
          simp only [if_neg hlong]
          exact ih h

/-- What is put where no directory was does not stop a walk. -/
theorem walk_set {d : Disk} {p here place : Place} {e : Entry} {names : List String}
    (hne : p ≠ []) (hp : d.at? p ≠ some .directory) (h : d.walk here names = .ok place) :
    (d.set p e).walk here names = .ok place := by
  refine walk_mono (fun q hq => ?_) h
  rw [at?_set hne, if_neg]
  · exact hq
  · rintro rfl
    exact hp hq

/-! ### Making directories -/

/-- **Step by step.** Making the directories on a way keeps a disk sound and its files in
place. -/
theorem Sound.makeWalk {d : Disk} (h : d.Sound) {here : Place} {names : List String}
    (hhere : d.at? here = some .directory) (hspelled : Spelled names)
    (hnul : names.any hasNul = false) :
    (d.makeWalk here names).2.Sound ∧
      ∀ p, (d.makeWalk here names).2.bytes? p = d.bytes? p := by
  induction names generalizing d here with
  | nil => exact ⟨h, fun _ => rfl⟩
  | cons name rest ih =>
    rw [List.any_cons, Bool.or_eq_false_iff] at hnul
    unfold Disk.makeWalk
    split
    · exact ih h (h.at?_dropLast hhere) hspelled.tail hnul.2
    · next hup =>
      split
      · exact ⟨h, fun _ => rfl⟩
      · next hlong =>
        split
        · exact ⟨h, fun _ => rfl⟩
        · next hdir => exact ih h hdir hspelled.tail hnul.2
        · next hnone =>
          have hne : here ++ [name] ≠ [] := by simp
          have hnames : ∀ n ∈ here ++ [name], Nameable n := by
            intro n hn
            rcases List.mem_append.1 hn with hold | hnew
            · exact h.nameable hhere n hold
            · rw [List.mem_singleton.1 hnew]
              exact ⟨hspelled name (by simp) hup, hnul.1, Nat.not_lt.1 hlong⟩
          have hset : (d.set (here ++ [name]) .directory).Sound :=
            h.set hne hnames (by rwa [List.dropLast_concat]) (fun _ => rfl)
          have hat : (d.set (here ++ [name]) .directory).at? (here ++ [name]) =
              some .directory := by
            rw [at?_set hne, if_pos rfl]
          obtain ⟨hsound, hbytes⟩ := ih hset hat hspelled.tail hnul.2
          exact ⟨hsound, fun p => (hbytes p).trans (bytes?_set_directory hne hnone p)⟩

theorem Sound.makeDirectories {d : Disk} (h : d.Sound) {names : List String}
    (hspelled : Spelled names) :
    (d.makeDirectories names).2.Sound ∧
      ∀ p, (d.makeDirectories names).2.bytes? p = d.bytes? p := by
  unfold Disk.makeDirectories
  split
  · exact ⟨h, fun _ => rfl⟩
  · next hnul => exact h.makeWalk (at?_root d) hspelled (by simpa using hnul)

/-! ### Writing -/

theorem walk_of_locate {d : Disk} {names : List String} {place : Place}
    (h : d.locate names = .ok place) :
    names.any hasNul = false ∧ d.walk [] names = .ok place := by
  unfold locate at h
  split at h
  · cases h
  · next hnul => exact ⟨by simpa using hnul, h⟩

/-- What is found stands where the names lead. -/
theorem of_find {d : Disk} {names : List String} {place : Place} {e : Entry}
    (h : d.find names = .ok (place, e)) : d.locate names = .ok place ∧ d.at? place = some e := by
  unfold find at h
  split at h
  · cases h
  · next hlocate =>
    split at h
    · next hat =>
      cases h
      exact ⟨hlocate, hat⟩
    · cases h

/-- The place that a change aims at stands in a directory. -/
theorem of_target {d : Disk} {names : List String} {place : Place}
    (h : d.target names = .ok place) :
    d.locate names = .ok place ∧ d.at? place.dropLast = some .directory := by
  unfold target at h
  split at h
  · cases h
  · next found hlocate =>
    split at h
    · next hdir =>
      cases h
      exact ⟨hlocate, hdir⟩
    · cases h
    · cases h

theorem Sound.set_target {d : Disk} (h : d.Sound) {names : List String} {place : Place}
    {e : Entry} (hspelled : Spelled names) (htarget : d.target names = .ok place)
    (hat : d.at? place ≠ some .directory) : place ≠ [] ∧ (d.set place e).Sound := by
  obtain ⟨hlocate, hdir⟩ := of_target htarget
  obtain ⟨hnul, hwalk⟩ := walk_of_locate hlocate
  have hne : place ≠ [] := by
    rintro rfl
    exact hat (at?_root d)
  exact ⟨hne, h.set hne (nameable_of_walk (by simp) hspelled hnul hwalk) hdir
    fun hd => absurd hd hat⟩

/-- A write that fails changes nothing; one that succeeds sets the file that it aims at. -/
theorem write_cases (d : Disk) (names : List String) (bytes : ByteArray) :
    (∃ e, d.write names bytes = (.error e, d)) ∨
      ∃ place, d.target names = .ok place ∧ d.at? place ≠ some .directory ∧
        d.write names bytes = (.ok (), d.set place (.file bytes)) := by
  unfold write
  cases htarget : d.target names with
  | error e => exact Or.inl ⟨e, rfl⟩
  | ok place =>
    cases hat : d.at? place with
    | none => exact Or.inr ⟨place, rfl, by simp [hat], by simp [hat]⟩
    | some entry =>
      cases entry with
      | directory => exact Or.inl ⟨.refused, by simp [hat]⟩
      | file old => exact Or.inr ⟨place, rfl, by simp [hat], by simp [hat]⟩

/-- A move that fails changes nothing; one that succeeds takes the entry from the one place
to the other. -/
theorem rename_cases (d : Disk) (old new : List String) :
    (∃ e, d.rename old new = (.error e, d)) ∨
      ∃ source entry place, d.find old = .ok (source, entry) ∧ d.target new = .ok place ∧
        d.at? place ≠ some .directory ∧
        d.rename old new = (.ok (), (d.erase source).set place entry) := by
  unfold rename
  cases hfind : d.find old with
  | error e => exact Or.inl ⟨e, rfl⟩
  | ok found =>
    obtain ⟨source, entry⟩ := found
    cases htarget : d.target new with
    | error e => exact Or.inl ⟨e, rfl⟩
    | ok place =>
      cases hat : d.at? place with
      | none => exact Or.inr ⟨source, entry, place, rfl, rfl, by simp [hat], by simp [hat]⟩
      | some there =>
        cases there with
        | directory => exact Or.inl ⟨.refused, by simp [hat]⟩
        | file bytes =>
          exact Or.inr ⟨source, entry, place, rfl, rfl, by simp [hat], by simp [hat]⟩

/-- After a file was written under some names, these lead to it. -/
theorem find_of_write {d : Disk} {names : List String} {place : Place} {bytes : ByteArray}
    (htarget : d.target names = .ok place) (hat : d.at? place ≠ some .directory) :
    (d.set place (.file bytes)).find names = .ok (place, .file bytes) := by
  obtain ⟨hnul, hwalk⟩ := walk_of_locate (of_target htarget).1
  have hne : place ≠ [] := by
    rintro rfl
    exact hat (at?_root d)
  rw [find, locate, if_neg (by simp [hnul]), walk_set hne hat hwalk]
  simp only [at?_set hne, if_pos]

theorem ne_of_getLast? {place p : Place} {name : String} (h : place.getLast? = some name)
    (hp : p.getLast? ≠ some name) : place ≠ p := by
  rintro rfl
  exact hp h

/-- Moving a file keeps a disk sound and all files but these two in place. -/
theorem Sound.rename {d : Disk} (h : d.Sound) {old new front : List String}
    {source : Place} {bytes : ByteArray} {name name' : String}
    (hold : d.find old = .ok (source, .file bytes)) (hat : d.at? source = some (.file bytes))
    (hsource : source.getLast? = some name') (hspelled : Spelled new)
    (hnew : new = front ++ [name]) (hname : name ≠ "..") :
    (d.rename old new).2.Sound ∧ AgreeOff [name, name'] d (d.rename old new).2 := by
  rcases d.rename_cases old new with ⟨e, he⟩ | ⟨source', entry, place, hfind, htarget, hplace, he⟩
  · rw [he]
    exact ⟨h, AgreeOff.refl _ _⟩
  · rw [he]
    rw [hold] at hfind
    cases hfind
    obtain ⟨hlocate, hdir⟩ := of_target htarget
    obtain ⟨hnul, hwalk⟩ := walk_of_locate hlocate
    have hlast : place.getLast? = some name := by
      rw [hnew] at hwalk
      exact getLast?_of_walk hname hwalk
    have hne : place ≠ [] := by
      rintro rfl
      exact hplace (at?_root d)
    -- what is taken away is a file, so the directory around the new place is still there
    have hdir' : (d.erase source).at? place.dropLast = some .directory := by
      by_cases hroot : place.dropLast = []
      · rw [hroot]
        exact at?_root _
      · rw [at?_erase hroot, if_neg]
        · exact hdir
        · rintro rfl
          rw [hat] at hdir
          cases hdir
    have hplace' : (d.erase source).at? place = some .directory →
        Entry.file bytes = .directory := by
      rw [at?_erase hne]
      split
      · intro hc
        cases hc
      · intro hc
        exact absurd hc hplace
    refine ⟨(h.erase hat).set hne (nameable_of_walk (by simp) hspelled hnul hwalk) hdir' hplace',
      ?_⟩
    intro p hp
    rw [bytes?_set_of_ne hne (ne_of_getLast? hlast (hp name (by simp))),
      bytes?_erase_of_ne (ne_of_getLast? hsource (hp name' (by simp)))]

end Disk

namespace Store

open Disk (Spelled AgreeOff)

/-! ### A store in a directory -/

theorem spelled_names (directory key : String) : Spelled (names directory key) :=
  fun _ hn hup => Path.proper_of_mem_components hn hup

theorem proper_temporary {name : String} (h : '/' ∉ name.toList) :
    Proper (name ++ temporaryEnding) := by
  have hlen : ∀ t : String, t.length < 4 → name ++ temporaryEnding ≠ t := by
    intro t ht heq
    have := congrArg String.length heq
    rw [String.length_append, show temporaryEnding.length = 4 from rfl] at this
    omega
  refine ⟨hlen "" (by decide), hlen "." (by decide), hlen ".." (by decide), ?_⟩
  rw [String.toList_append, List.mem_append, not_or]
  exact ⟨h, by decide⟩

/-- **Writing in two steps** keeps a disk sound, and all files in place but those with the
name of the file or of its unfinished form. -/
theorem writeThenMove_footprint {d : Disk} (h : d.Sound) {names front : List String}
    {name : String} (hspelled : Spelled names) (hnames : names = front ++ [name])
    (hname : name ≠ "..") (data : ByteArray) :
    (writeThenMove d names data).2.Sound ∧
      AgreeOff [name, name ++ temporaryEnding] d (writeThenMove d names data).2 := by
  have hfront : Spelled names.dropLast :=
    fun n hn => hspelled n (List.dropLast_subset _ hn)
  have htemporary : temporary names = front ++ [name ++ temporaryEnding] := by
    rw [temporary, hnames, List.dropLast_concat, List.getLast?_concat, Option.getD_some]
  have hslash : '/' ∉ name.toList := by
    rw [hnames] at hspelled
    exact (hspelled name (by simp) hname).no_slash
  have hspelled' : Spelled (temporary names) := by
    rw [htemporary]
    intro n hn hup
    rcases List.mem_append.1 hn with hold | hnew
    · exact hspelled n (by simp [hnames, hold]) hup
    · rw [List.mem_singleton.1 hnew]
      exact proper_temporary hslash
  obtain ⟨hsound, hbytes⟩ := h.makeDirectories hfront
  have hagree : AgreeOff [name, name ++ temporaryEnding] d
      (d.makeDirectories names.dropLast).2 := fun p _ => (hbytes p).symm
  unfold writeThenMove
  -- the directories are there or the disk has refused them
  generalize d.makeDirectories names.dropLast = made at hsound hagree ⊢
  obtain ⟨result, d₁⟩ := made
  cases result with
  | error e => exact ⟨hsound, hagree⟩
  | ok _ =>
    dsimp only at hsound hagree ⊢
    rcases d₁.write_cases (temporary names) data with ⟨e, hw⟩ | ⟨place, htarget, hat, hw⟩
    · rw [hw]
      exact ⟨hsound, hagree⟩
    · rw [hw]
      dsimp only
      obtain ⟨hne, hset⟩ := hsound.set_target hspelled' htarget hat
      have hlast : place.getLast? = some (name ++ temporaryEnding) := by
        have hwalk := (Disk.walk_of_locate (Disk.of_target htarget).1).2
        rw [htemporary] at hwalk
        exact Disk.getLast?_of_walk (proper_temporary hslash).ne_points hwalk
      have hwritten : AgreeOff [name, name ++ temporaryEnding] d₁ (d₁.set place (.file data)) := by
        intro p hp
        exact (Disk.bytes?_set_of_ne hne
          (Disk.ne_of_getLast? hlast (hp _ (by simp)))).symm
      have hplace : (d₁.set place (.file data)).at? place = some (.file data) := by
        rw [Disk.at?_set hne, if_pos rfl]
      -- the file was written under its unfinished name just now, so the move finds it
      obtain ⟨hmoved, hagree'⟩ := hset.rename (Disk.find_of_write htarget hat) hplace hlast
        hspelled hnames hname
      exact ⟨hmoved, (hagree.trans hwritten).trans hagree'⟩

end Store

namespace Snapshot

/-- The names that a store in a directory gives the files of a persisted graph. -/
def fileNames : List String := [fileName, fileName ++ Store.temporaryEnding]

/-- Below any directory, the key of a graph ends in its file's name. -/
theorem exists_names_key {directory space root : String}
    (h : Store.isKey (key space root) = true) :
    ∃ front, Store.names directory (key space root) = front ++ [fileName] := by
  have hrelative : Path.isAbsolute (key space root) = false := by
    simp only [Store.isKey, Bool.and_eq_true, Bool.not_eq_true'] at h
    exact h.1.2
  refine ⟨Path.components directory ++
    Path.components (Text.stripBoth (· == '/') space ++ "/" ++ projectName root), ?_⟩
  rw [Store.names, Path.components_append hrelative, key, Path.components_slash]
  simp [Path.components, Text.split, Text.splitList, fileName]

end Snapshot

namespace Host

open Snapshot (fileNames)

/-- **Keeping a graph** keeps the disk sound and every file that does not bear the name of
a persisted graph. -/
theorem upload_footprint {h : Host} (hsound : h.disk.Sound) (space root : String)
    (data : ByteArray) :
    (h.upload (Snapshot.key space root) data).2.disk.Sound ∧
      Disk.AgreeOff fileNames h.disk (h.upload (Snapshot.key space root) data).2.disk := by
  unfold upload
  split
  · split <;> exact ⟨hsound, Disk.AgreeOff.refl _ _⟩
  · next path _ =>
    split
    · next hkey =>
      obtain ⟨front, hfront⟩ := Snapshot.exists_names_key hkey
      have hwritten := Store.writeThenMove_footprint hsound
        (Store.spelled_names path (Snapshot.key space root)) hfront (by decide) data
      split
      · next hw =>
        rw [hw] at hwritten
        exact hwritten
      · next hw =>
        rw [hw] at hwritten
        exact hwritten
    · exact ⟨hsound, Disk.AgreeOff.refl _ _⟩
  · exact ⟨hsound, Disk.AgreeOff.refl _ _⟩
  · exact ⟨hsound, Disk.AgreeOff.refl _ _⟩

/-- What removing a key can do: nothing, take it from memory, or take its file off the disk. -/
theorem delete_cases (h : Host) (key : String) :
    (h.delete key).2 = h ∨
    (∃ blobs, h.store = .memory blobs ∧
      (h.delete key).2 = { h with store := .memory (blobs.erase key) }) ∨
    ∃ path place bytes, h.store = .directory path ∧ Store.isKey key = true ∧
      h.disk.find (Store.names path key) = .ok (place, .file bytes) ∧
      (h.delete key).2 = { h with disk := h.disk.erase place } := by
  cases hstore : h.store with
  | memory blobs => exact Or.inr (Or.inl ⟨blobs, rfl, by simp only [delete, hstore]⟩)
  | directory path =>
    simp only [delete, hstore]
    split
    · next hkey =>
      unfold Disk.unlink
      cases hfind : h.disk.find (Store.names path key) with
      | error e => cases e <;> exact Or.inl rfl
      | ok found =>
        obtain ⟨place, entry⟩ := found
        cases entry with
        | directory => exact Or.inl rfl
        | file bytes => exact Or.inr (Or.inr ⟨path, place, bytes, rfl, hkey, hfind, rfl⟩)
    · exact Or.inl rfl
  | failing => exact Or.inl (by simp only [delete, hstore])
  | unreachable => exact Or.inl (by simp only [delete, hstore])

/-- What is taken off the disk for a graph bears its file's name. -/
theorem getLast?_of_find {directory space root : String} {d : Disk} {place : Disk.Place}
    {e : Disk.Entry} (hkey : Store.isKey (Snapshot.key space root) = true)
    (hfind : d.find (Store.names directory (Snapshot.key space root)) = .ok (place, e)) :
    place.getLast? = some Snapshot.fileName := by
  obtain ⟨front, hfront⟩ : ∃ front, Store.names directory (Snapshot.key space root) =
      front ++ [Snapshot.fileName] := Snapshot.exists_names_key hkey
  have hwalk := (Disk.walk_of_locate (Disk.of_find hfind).1).2
  rw [hfront] at hwalk
  exact Disk.getLast?_of_walk (by decide) hwalk

/-- **Removing a graph** does the same. -/
theorem delete_footprint {h : Host} (hsound : h.disk.Sound) (space root : String) :
    (h.delete (Snapshot.key space root)).2.disk.Sound ∧
      Disk.AgreeOff fileNames h.disk (h.delete (Snapshot.key space root)).2.disk := by
  rcases h.delete_cases (Snapshot.key space root) with hsame | ⟨blobs, -, hsame⟩ |
    ⟨path, place, bytes, -, hkey, hfind, hsame⟩
  · rw [hsame]
    exact ⟨hsound, Disk.AgreeOff.refl _ _⟩
  · rw [hsame]
    exact ⟨hsound, Disk.AgreeOff.refl _ _⟩
  · rw [hsame]
    have hlast := getLast?_of_find hkey hfind
    refine ⟨hsound.erase (Disk.of_find hfind).2, fun p hp => ?_⟩
    exact (Disk.bytes?_erase_of_ne (Disk.ne_of_getLast? hlast
      (hp Snapshot.fileName (by simp [fileNames])))).symm

end Host

end RouteImpact
