import RouteImpact.Proofs.Store.Breakdown

namespace RouteImpact

open Disk (lead)

/-!
# Keys stay in their store

The names of a key go down from the directory of the store, and so do those of the file that is
written first.  Whatever a store does for a key it therefore does below its directory, wherever the
disk gives out.  A key of points alone has no names: it stands for the directory itself, and what is
written first stands beside it.

* `Disk.Below`, `Disk.below_of_locate` — the places below a directory, and names that lead there;
* `Disk.KeptOutside` — a change that leaves everything outside a directory as it is, but that new
  directories may be made; making directories, writing and moving are such changes where their names
  lead below it;
* `Disk.AgreeBelow`, `Disk.read_of_agreeBelow` — what is read below a directory depends on nothing
  outside it but which directories there are;
* `Host.below_of_isKey` — what an upload, a download and a deletion touch lies below the directory of
  the store;
* `Host.upload_point` — a key of points leads out of it.
-/

namespace Disk

variable {d d' : Disk} {base place p : Place} {names root : List String}

/-! ### Below a directory -/

/-- A place below a directory, which is not the directory itself. -/
def Below (base place : Place) : Prop := base <+: place ∧ place ≠ base

instance (base place : Place) : Decidable (Below base place) :=
  inferInstanceAs (Decidable (base <+: place ∧ place ≠ base))

theorem below_append (base : Place) (hne : names ≠ []) : Below base (base ++ names) :=
  ⟨List.prefix_append _ _, by simpa using hne⟩

theorem Below.ne_root (h : Below base place) : place ≠ [] := by
  rintro rfl
  exact h.2 (List.prefix_nil.1 h.1).symm

/-- Names that go down from a directory lead below it. -/
theorem below_of_locate (hne : names ≠ []) (hforward : ∀ n ∈ names, n ≠ "..")
    (h : d.locate (root ++ names) = .ok place) : Below (lead [] root) place := by
  rw [eq_lead_of_walk (walk_of_locate h).2, lead_append, lead_of_forward hforward]
  exact below_append _ hne

/-! ### Changes below a directory -/

/-- Outside a directory everything stays as it is, but that new directories may be made. -/
def KeptOutside (base : Place) (d d' : Disk) : Prop :=
  ∀ p, ¬Below base p → d'.at? p = d.at? p ∨ d.at? p = none ∧ d'.at? p = some .directory

theorem KeptOutside.refl (base : Place) (d : Disk) : KeptOutside base d d := fun _ _ => Or.inl rfl

theorem KeptOutside.trans {c : Disk} (h : KeptOutside base d d') (h' : KeptOutside base d' c) :
    KeptOutside base d c := by
  intro p hp
  rcases h p hp with hsame | ⟨hnone, hmade⟩
  · rcases h' p hp with hsame' | ⟨hnone', hmade'⟩
    · exact Or.inl (hsame'.trans hsame)
    · exact Or.inr ⟨hsame.symm.trans hnone', hmade'⟩
  · rcases h' p hp with hsame' | ⟨hnone', -⟩
    · exact Or.inr ⟨hnone, hsame'.trans hmade⟩
    · cases hmade.symm.trans hnone'

/-- Hence no file outside the directory is made, changed or taken away. -/
theorem KeptOutside.bytes? (h : KeptOutside base d d') (hp : ¬Below base p) :
    d'.bytes? p = d.bytes? p := by
  rcases h p hp with hsame | ⟨hnone, hmade⟩
  · rw [Disk.bytes?, Disk.bytes?, hsame]
  · rw [Disk.bytes?, Disk.bytes?, hnone, hmade]

theorem keptOutside_set (hplace : Below base place) (e : Entry) :
    KeptOutside base d (d.set place e) := by
  intro p hp
  rw [at?_set hplace.ne_root, if_neg (by rintro rfl; exact hp hplace)]
  exact Or.inl rfl

theorem at?_erase_of_below (hplace : Below base place) (hp : ¬Below base p) :
    (d.erase place).at? p = d.at? p := by
  by_cases hroot : p = []
  · rw [hroot, at?_root, at?_root]
  · rw [at?_erase hroot, if_neg (by rintro rfl; exact hp hplace)]

theorem keptOutside_erase (hplace : Below base place) : KeptOutside base d (d.erase place) :=
  fun _ hp => Or.inl (at?_erase_of_below hplace hp)

theorem keptOutside_makeWalk (base : Place) (d : Disk) (here : Place) (names : List String) :
    KeptOutside base d (d.makeWalk here names).2 := by
  induction names generalizing d here with
  | nil => exact .refl base d
  | cons name rest ih =>
    unfold makeWalk
    split
    · exact ih d _
    · split
      · exact .refl base d
      · split
        · exact .refl base d
        · exact ih d _
        · -- a directory is made only where nothing stands, below the store or not
          next hnone =>
          refine KeptOutside.trans (fun p _ => ?_) (ih _ _)
          rw [at?_set (by simp)]
          split
          · next hp => exact Or.inr ⟨hp ▸ hnone, rfl⟩
          · exact Or.inl rfl

theorem keptOutside_makeDirectories (base : Place) (d : Disk) (names : List String) :
    KeptOutside base d (d.makeDirectories names).2 := by
  unfold makeDirectories
  split
  · exact .refl base d
  · exact keptOutside_makeWalk base d [] names

/-- Names that lead below a directory on every disk. -/
def LeadBelow (base : Place) (names : List String) : Prop :=
  ∀ (d : Disk) place, d.locate names = .ok place → Below base place

theorem keptOutside_write (hbelow : LeadBelow base names) (bytes : ByteArray) :
    KeptOutside base d (d.write names bytes).2 := by
  rcases d.write_cases names bytes with ⟨e, hw⟩ | ⟨place, htarget, -, hw⟩
  · rw [hw]
    exact .refl base d
  · rw [hw]
    exact keptOutside_set (hbelow d place (of_target htarget).1) _

theorem keptOutside_rename {old new : List String} (hold : LeadBelow base old)
    (hnew : LeadBelow base new) : KeptOutside base d (d.rename old new).2 := by
  rcases d.rename_cases old new with ⟨e, hm⟩ | ⟨source, entry, place, hfind, htarget, -, hm⟩
  · rw [hm]
    exact .refl base d
  · -- both the place that is left and the one that is taken lie below
    rw [hm]
    exact (keptOutside_erase (hold d source (of_find hfind).1)).trans
      (keptOutside_set (hnew d place (of_target htarget).1) _)

/-! ### Reading below a directory -/

/-- Two disks that agree below a directory, and elsewhere have files and directories at the same
places. -/
def AgreeBelow (base : Place) (d d' : Disk) : Prop :=
  d.SameShape d' ∧ ∀ p, Below base p → d.at? p = d'.at? p

/-- What is read below a directory depends on nothing that a file outside it holds. -/
theorem read_of_agreeBelow (h : AgreeBelow base d d') (hbelow : LeadBelow base names) :
    d.read names = d'.read names := by
  have hlocate : d.locate names = d'.locate names := by
    rw [locate, locate, walk_congr h.1]
  rw [read, read, find, find, ← hlocate]
  cases hplace : d.locate names with
  | error e => rfl
  | ok place =>
    dsimp only
    rw [h.2 place (hbelow d place hplace)]

/-- What is read stands below the directory. -/
theorem below_of_read {bytes : ByteArray} (hbelow : LeadBelow base names)
    (h : d.read names = .ok bytes) : ∃ place, Below base place ∧ d.bytes? place = some bytes := by
  unfold read at h
  split at h
  · cases h
  · next place found hfind =>
    cases h
    obtain ⟨hlocate, hat⟩ := of_find hfind
    exact ⟨place, hbelow d place hlocate, bytes?_eq_some_iff.2 hat⟩
  · cases h

end Disk

namespace Store

open Disk (Below KeptOutside LeadBelow)

variable {d : Disk} {base : Disk.Place} {names : List String} {key : String}

/-- **The names of a key lead below the directory of the store**, and so do those of the file that is
written first. -/
theorem leadBelow_of_isKey (path : String) (hkey : isKey key = true)
    (hne : Path.components key ≠ []) :
    LeadBelow (lead [] (Path.components path)) (Store.names path key) ∧
      LeadBelow (lead [] (Path.components path)) (temporary (Store.names path key)) := by
  obtain ⟨hproper, hnames⟩ := of_isKey hkey
  rw [hnames, temporary_append _ hne]
  refine ⟨fun d place h => ?_, fun d place h => ?_⟩
  · exact Disk.below_of_locate hne (fun n hn => (hproper n hn).ne_points) h
  · exact Disk.below_of_locate (by simp [temporary])
      (fun n hn => (proper_of_mem_temporary hproper n hn).ne_points) h

theorem keptOutside_writeBeside (hbelow : LeadBelow base (temporary names)) (data : ByteArray) :
    KeptOutside base d (writeThenMoveAmid.writeBeside names d data).2 := by
  have hmade := Disk.keptOutside_makeDirectories base d names.dropLast
  unfold writeThenMoveAmid.writeBeside
  generalize d.makeDirectories names.dropLast = made at hmade ⊢
  obtain ⟨result, d₁⟩ := made
  cases result with
  | error e => exact hmade
  | ok _ =>
    dsimp only
    rw [snd_giveOut]
    exact hmade.trans (Disk.keptOutside_write hbelow data)

theorem keptOutside_writeThenMove (hnames : LeadBelow base names)
    (htemporary : LeadBelow base (temporary names)) (data : ByteArray) :
    KeptOutside base d (writeThenMove d names data).2 := by
  have hmade := Disk.keptOutside_makeDirectories base d names.dropLast
  unfold writeThenMove
  generalize d.makeDirectories names.dropLast = made at hmade ⊢
  obtain ⟨result, d₁⟩ := made
  cases result with
  | error e => exact hmade
  | ok _ =>
    dsimp only at hmade ⊢
    have hwritten := hmade.trans (Disk.keptOutside_write htemporary data)
    generalize d₁.write (temporary names) data = written at hwritten ⊢
    obtain ⟨result, d₂⟩ := written
    cases result with
    | error e => exact hwritten
    | ok _ => exact hwritten.trans (Disk.keptOutside_rename htemporary hnames)

/-- **A write in two steps** touches nothing outside, wherever the disk gives out. -/
theorem keptOutside_writeThenMoveAmid (hnames : LeadBelow base names)
    (htemporary : LeadBelow base (temporary names)) (breakdown : Option Breakdown)
    (data : ByteArray) : KeptOutside base d (writeThenMoveAmid breakdown d names data).2 := by
  cases breakdown with
  | none => exact keptOutside_writeThenMove hnames htemporary data
  | some b =>
    cases b with
    | making directories =>
      rw [writeThenMoveAmid]
      split
      · exact .refl base d
      · rw [snd_giveOut]
        exact Disk.keptOutside_makeWalk base d [] _
    | writing bytes => exact keptOutside_writeBeside htemporary _
    | moving => exact keptOutside_writeBeside htemporary _

end Store

namespace Host

open Disk (Below KeptOutside AgreeBelow LeadBelow)
open Store (Breakdown isKey names temporary)

variable {h : Host} {path key : String}

theorem keptOutside_uploadAmid (hstore : h.store = .directory path) (hkey : isKey key = true)
    (hne : Path.components key ≠ []) (breakdown : Option Breakdown) (data : ByteArray) :
    KeptOutside (lead [] (Path.components path)) h.disk
      (h.uploadAmid breakdown key data).2.disk := by
  obtain ⟨hnames, htemporary⟩ := Store.leadBelow_of_isKey path hkey hne
  have hwritten := Store.keptOutside_writeThenMoveAmid (d := h.disk) hnames htemporary breakdown data
  simp only [uploadAmid, hstore, if_pos hkey]
  split <;> next hw => rwa [hw] at hwritten

theorem download_of_agreeBelow {d : Disk} (hstore : h.store = .directory path)
    (hagree : AgreeBelow (lead [] (Path.components path)) h.disk d) (hkey : isKey key = true)
    (hne : Path.components key ≠ []) :
    ({ h with disk := d } : Host).download key = h.download key := by
  obtain ⟨hnames, -⟩ := Store.leadBelow_of_isKey path hkey hne
  simp only [download, hstore, Disk.read_of_agreeBelow hagree hnames]

theorem below_of_download {bytes : ByteArray} (hstore : h.store = .directory path)
    (hkey : isKey key = true) (hne : Path.components key ≠ []) (hread : h.download key = .ok bytes) :
    ∃ place, Below (lead [] (Path.components path)) place ∧ h.disk.bytes? place = some bytes := by
  obtain ⟨hnames, -⟩ := Store.leadBelow_of_isKey path hkey hne
  simp only [download, hstore, if_pos hkey] at hread
  split at hread
  · next hbytes =>
    cases hread
    exact Disk.below_of_read hnames hbytes
  · cases hread
  · cases hread

/-- A deletion makes no directory either. -/
theorem at?_delete {place : Disk.Place} (hstore : h.store = .directory path)
    (hne : Path.components key ≠ []) (hplace : ¬Below (lead [] (Path.components path)) place) :
    (h.delete key).2.disk.at? place = h.disk.at? place := by
  rcases h.delete_cases key with hsame | ⟨blobs, hmemory, -⟩ |
    ⟨other, gone, bytes, hother, hkey, hfind, hdeleted⟩
  · rw [hsame]
  · cases hstore.symm.trans hmemory
  · -- a file was found under the names of the key, and it is all that goes
    cases hstore.symm.trans hother
    obtain ⟨hnames, -⟩ := Store.leadBelow_of_isKey path hkey hne
    rw [hdeleted]
    exact Disk.at?_erase_of_below (hnames h.disk gone (Disk.of_find hfind).1) hplace

/-- **Keys stay in their store.**  Let a store accept a key that is more than points.  Then its names
and those of the file that is written first lead below the directory of the store on every disk.  An
upload makes, changes and takes away no file outside, wherever the disk gives out; a download reads
a file below the directory, and no file outside shows in its answer; a deletion leaves everything
outside as it is. -/
theorem below_of_isKey (hstore : h.store = .directory path) (hkey : isKey key = true)
    (hne : Path.components key ≠ []) :
    (LeadBelow (lead [] (Path.components path)) (names path key) ∧
      LeadBelow (lead [] (Path.components path)) (temporary (names path key))) ∧
    (∀ breakdown data, KeptOutside (lead [] (Path.components path)) h.disk
      (h.uploadAmid breakdown key data).2.disk) ∧
    (∀ bytes, h.download key = .ok bytes →
      ∃ place, Below (lead [] (Path.components path)) place ∧
        h.disk.bytes? place = some bytes) ∧
    (∀ d, AgreeBelow (lead [] (Path.components path)) h.disk d →
      ({ h with disk := d } : Host).download key = h.download key) ∧
    ∀ place, ¬Below (lead [] (Path.components path)) place →
      (h.delete key).2.disk.at? place = h.disk.at? place :=
  ⟨Store.leadBelow_of_isKey path hkey hne,
    fun breakdown data => keptOutside_uploadAmid hstore hkey hne breakdown data,
    fun _ hread => below_of_download hstore hkey hne hread,
    fun _ hagree => download_of_agreeBelow hstore hagree hkey hne,
    fun _ hplace => at?_delete hstore hne hplace⟩

/-- A key with points and slashes that do not count, and an upload of it that stops before the
move. -/
theorem below_of_isKey_heldHost :
    Disk.KeptOutside ["p", "store"] heldHost.disk
      (heldHost.uploadAmid (some .moving) "./new//k" "new".toUTF8).2.disk ∧
    (heldHost.uploadAmid (some .moving) "./new//k" "new".toUTF8).2.disk.bytes?
      ["p", "store", "new", "k.tmp"] = some "new".toUTF8 ∧
    heldHost.download "./old" = .ok "data".toUTF8 ∧
    (∃ place, Below ["p", "store"] place ∧ heldHost.disk.bytes? place = some "data".toUTF8) ∧
    (heldHost.delete "./old").2.disk.at? ["p", "store"] = some .directory := by
  have hupload := below_of_isKey (h := heldHost) rfl (show isKey "./new//k" = true by decide)
    (by decide)
  have hother := below_of_isKey (h := heldHost) rfl (show isKey "./old" = true by decide)
    (by decide)
  have hread : heldHost.download "./old" = .ok "data".toUTF8 := by decide +kernel
  exact ⟨hupload.2.1 (some .moving) _, by decide +kernel, hread, hother.2.2.1 _ hread,
    hother.2.2.2.2 _ (by decide)⟩

/-- A store whose directory is not there yet. -/
def unmadeHost : Host := ⟨.directory "/p/store", ⟨[(["p"], .directory)]⟩⟩

/-- **A key of points leads out of its store.**  It is accepted; what is written first stands beside
the directory of the store, and the file then stands in the place of the directory. -/
theorem upload_point :
    isKey "." = true ∧
      ¬Below (lead [] (Path.components "/p/store")) ["p", "store.tmp"] ∧
      (unmadeHost.uploadAmid (some .moving) "." "x".toUTF8).2.disk.bytes? ["p", "store.tmp"] =
        some "x".toUTF8 ∧
      ¬Below (lead [] (Path.components "/p/store")) ["p", "store"] ∧
      (unmadeHost.upload "." "x".toUTF8).1 = .ok () ∧
      (unmadeHost.upload "." "x".toUTF8).2.disk.bytes? ["p", "store"] = some "x".toUTF8 ∧
      (unmadeHost.upload "." "x".toUTF8).2.download "." = .ok "x".toUTF8 := by
  decide +kernel

end Host

end RouteImpact
