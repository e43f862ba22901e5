import RouteImpact.Proofs.Store.Retrieval

namespace RouteImpact

/-!
# Removing a graph before it is replaced

A graph can be kept in place of another, or the other can be removed first.  Afterwards the
disk is the same to the last entry, and a store in memory has the same bytes under every key,
though the key may have moved to the end.

* `Host.Alike` — hosts with one disk whose stores hold the same; `Host.Alike.upload`,
  `Host.Alike.download`, `Host.Alike.delete` — these are not told apart;
* `Store.writeThenMove_erase` — to write where a file was removed is to replace it;
* `Host.alike_upload_delete` — hence to remove and to keep is to keep, where the store takes
  what it is given.
-/

namespace Disk

variable {d : Disk} {here place p : Place} {names front : List String} {name : String}

/-! ### Walks that end in a directory -/

/-- A walk that ends in a directory began in one. -/
theorem at?_of_walk (h : d.walk here names = .ok place) (hat : d.at? place = some .directory) :
    d.at? here = some .directory := by
  cases names with
  | nil =>
    rw [walk] at h
    cases h
    exact hat
  | cons name rest =>
    unfold walk at h
    split at h
    · cases h
    · cases h
    · next hdir => exact hdir

/-- The last step of a walk is taken from a directory. -/
theorem of_walk_concat (hname : name ≠ "..") (h : d.walk here (front ++ [name]) = .ok place) :
    ∃ above, d.walk here front = .ok above ∧ d.at? above = some .directory ∧
      place = above ++ [name] := by
  induction front generalizing here with
  | nil =>
    have hplace := eq_append_of_walk (by simpa using hname) h
    rw [List.nil_append] at h
    unfold walk at h
    split at h
    · cases h
    · cases h
    · next hdir => exact ⟨here, rfl, hdir, hplace⟩
  | cons n rest ih =>
    rw [List.cons_append] at h
    unfold walk at h ⊢
    split at h
    · cases h
    · cases h
    · split at h
      · next hup =>
        rw [if_pos hup]
        exact ih h
      · next hup =>
        split at h
        · cases h
        · next hshort =>
          rw [if_neg hup, if_neg hshort]
          exact ih h

/-- Where a walk ends in a directory no directory is missing. -/
theorem makeWalk_of_walk (h : d.walk here names = .ok place)
    (hat : d.at? place = some .directory) : d.makeWalk here names = (.ok (), d) := by
  induction names generalizing here with
  | nil => rfl
  | cons name rest ih =>
    unfold walk at h
    unfold makeWalk
    split at h
    · cases h
    · cases h
    · split at h
      · next hup =>
        rw [if_pos hup]
        exact ih h
      · next hup =>
        split at h
        · cases h
        · next hshort =>
          rw [if_neg hup, if_neg hshort, at?_of_walk h hat]
          exact ih h

/-- Names that lead somewhere need no new directory, and something can be put there. -/
theorem of_locate_concat (hname : name ≠ "..") (h : d.locate (front ++ [name]) = .ok place) :
    d.makeDirectories front = (.ok (), d) ∧ d.target (front ++ [name]) = .ok place := by
  obtain ⟨hnul, hwalk⟩ := walk_of_locate h
  obtain ⟨above, habove, hdir, hplace⟩ := of_walk_concat hname hwalk
  have hfront : front.any hasNul = false := by
    rw [List.any_append, Bool.or_eq_false_iff] at hnul
    exact hnul.1
  constructor
  · rw [makeDirectories, if_neg (by simp [hfront]), makeWalk_of_walk habove hdir]
  · rw [target, h]
    simp only [hplace, List.dropLast_concat, hdir]

/-! ### Changes on a disk from which a file was taken -/

theorem locate_erase (hp : d.at? p ≠ some .directory) (h : d.locate names = .ok place) :
    (d.erase p).locate names = .ok place := by
  obtain ⟨hnul, hwalk⟩ := walk_of_locate h
  rw [locate, if_neg (by simp [hnul]), walk_erase hp hwalk]

theorem at?_erase_ne_directory (h : d.at? place ≠ some .directory) :
    (d.erase p).at? place ≠ some .directory := by
  have hne : place ≠ [] := by
    rintro rfl
    exact h (at?_root d)
  rw [at?_erase hne]
  split
  · simp
  · exact h

theorem target_erase (hp : d.at? p ≠ some .directory) (h : d.target names = .ok place) :
    (d.erase p).target names = .ok place := by
  obtain ⟨hlocate, hdir⟩ := of_target h
  have hdir' : (d.erase p).at? place.dropLast = some .directory := by
    by_cases hroot : place.dropLast = []
    · rw [hroot]
      exact at?_root _
    · rw [at?_erase hroot, if_neg]
      · exact hdir
      · rintro rfl
        exact hp hdir
  rw [target, locate_erase hp hlocate]
  simp only [hdir']

theorem target_set {e : Entry} (hp : d.at? p ≠ some .directory) (h : d.target names = .ok place) :
    (d.set p e).target names = .ok place := by
  obtain ⟨hlocate, hdir⟩ := of_target h
  obtain ⟨hnul, hwalk⟩ := walk_of_locate hlocate
  have hne : p ≠ [] := by
    rintro rfl
    exact hp (at?_root d)
  have hdir' : (d.set p e).at? place.dropLast = some .directory := by
    rw [at?_set hne, if_neg]
    · exact hdir
    · rintro rfl
      exact hp hdir
  rw [target, locate, if_neg (by simp [hnul]), walk_set hne hp hwalk]
  simp only [hdir']

theorem write_of_target {bytes : ByteArray} (htarget : d.target names = .ok place)
    (hat : d.at? place ≠ some .directory) :
    d.write names bytes = (.ok (), d.set place (.file bytes)) := by
  unfold write
  rw [htarget]
  dsimp only
  split
  · next hdir => exact absurd hdir hat
  · rfl

/-- A file is moved from beside its place to where there is no directory. -/
theorem rename_of_write {old : List String} {bytes : ByteArray}
    (hp : d.at? p ≠ some .directory) (hold : d.target old = .ok p)
    (htarget : d.target names = .ok place) (hat : d.at? place ≠ some .directory) :
    (d.set p (.file bytes)).rename old names =
      (.ok (), ((d.set p (.file bytes)).erase p).set place (.file bytes)) := by
  have hne : p ≠ [] := by
    rintro rfl
    exact hp (at?_root d)
  have hat' : (d.set p (.file bytes)).at? place ≠ some .directory := by
    rw [at?_set hne]
    split
    · simp
    · exact hat
  unfold rename
  rw [find_of_write hold hp, target_set hp htarget]
  dsimp only
  split
  · next hdir => exact absurd hdir hat'
  · rfl

/-- What was taken away first does not show after a move to its place. -/
theorem set_erase_set_erase (d : Disk) (place p : Place) (e e' : Entry) :
    (((d.erase place).set p e).erase p).set place e' = ((d.set p e).erase p).set place e' := by
  simp [set, erase, List.filter_append, List.filter_filter, Bool.and_comm, Bool.and_left_comm]

end Disk

/-- **To write where a file was removed is to replace it.** -/
theorem Store.writeThenMove_erase {d d' : Disk} {front : List String} {name : String}
    {place : Disk.Place} {old data : ByteArray} (hname : name ≠ "..")
    (hfind : d.find (front ++ [name]) = .ok (place, .file old))
    (h : writeThenMove d (front ++ [name]) data = (.ok (), d')) :
    writeThenMove (d.erase place) (front ++ [name]) data = (.ok (), d') := by
  obtain ⟨hlocate, hat⟩ := Disk.of_find hfind
  have hfile : d.at? place ≠ some .directory := by simp [hat]
  -- the file has its directory, so neither disk needs a new one
  obtain ⟨hmade, htarget⟩ := Disk.of_locate_concat hname hlocate
  obtain ⟨hmade', htarget'⟩ := Disk.of_locate_concat hname (Disk.locate_erase hfile hlocate)
  unfold writeThenMove at h ⊢
  rw [List.dropLast_concat, hmade] at h
  rw [List.dropLast_concat, hmade']
  dsimp only at h ⊢
  rcases d.write_cases (temporary (front ++ [name])) data with ⟨e, hw⟩ | ⟨p, hp, hfree, hw⟩
  · rw [hw] at h
    cases h
  · rw [hw] at h
    dsimp only at h
    rw [Disk.rename_of_write hfree hp htarget hfile] at h
    have hp' := Disk.target_erase hfile hp
    have hfree' := Disk.at?_erase_ne_directory (p := place) hfree
    rw [Disk.write_of_target hp' hfree']
    dsimp only
    rw [Disk.rename_of_write hfree' hp' htarget' (Disk.at?_erase_ne_directory hfile),
      Disk.set_erase_set_erase, h]

namespace Host

/-! ### Hosts that are not told apart -/

/-- One disk, and stores that hold the same: one store, or two in memory with the same bytes
under every key. -/
inductive Alike (h : Host) : Host → Prop
  | refl : Alike h h
  | memory {blobs blobs' : OrderedMap ByteArray} (hstore : h.store = .memory blobs)
      (hblobs : ∀ key, blobs'.get? key = blobs.get? key) :
      Alike h { store := .memory blobs', disk := h.disk }

variable {h h' : Host}

theorem Alike.disk (hh : h.Alike h') : h'.disk = h.disk := by
  cases hh <;> rfl

/-- The files may become others on both. -/
theorem Alike.withDisk (hh : h.Alike h') (disk : Disk) :
    ({ h with disk } : Host).Alike { h' with disk } := by
  cases hh with
  | refl => exact .refl
  | memory hstore hblobs => exact .memory hstore hblobs

theorem Alike.download (hh : h.Alike h') (key : String) : h'.download key = h.download key := by
  cases hh with
  | refl => rfl
  | memory hstore hblobs => simp only [Host.download, hstore, hblobs]

theorem Alike.upload (hh : h.Alike h') (key : String) (data : ByteArray) :
    (h'.upload key data).1 = (h.upload key data).1 ∧
      (h.upload key data).2.Alike (h'.upload key data).2 := by
  cases hh with
  | refl => exact ⟨rfl, .refl⟩
  | memory hstore hblobs =>
    simp only [Host.upload, hstore]
    split
    · exact ⟨rfl, .memory rfl fun k => by rw [OrderedMap.get?_set, OrderedMap.get?_set, hblobs]⟩
    · exact ⟨rfl, .memory hstore hblobs⟩

theorem Alike.delete (hh : h.Alike h') (key : String) :
    (h.delete key).2.Alike (h'.delete key).2 := by
  cases hh with
  | refl => exact .refl
  | memory hstore hblobs =>
    simp only [Host.delete, hstore]
    exact .memory rfl fun k => by rw [OrderedMap.get?_erase, OrderedMap.get?_erase, hblobs]

/-- **To remove and to keep is to keep**, where the store takes what it is given. -/
theorem alike_upload_delete {space root : String} {data : ByteArray}
    (htaken : (h.upload (Snapshot.key space root) data).1 = .ok ()) :
    (h.upload (Snapshot.key space root) data).2.Alike
      ((h.delete (Snapshot.key space root)).2.upload (Snapshot.key space root) data).2 := by
  rcases h.delete_cases (Snapshot.key space root) with hsame | ⟨blobs, hstore, hsame⟩ |
    ⟨path, place, bytes, hstore, hkey, hfind, hsame⟩
  · rw [hsame]
    exact .refl
  · rw [hsame]
    simp only [Host.upload, hstore] at htaken ⊢
    -- the key may come last now, but it has the same bytes
    split at htaken
    · next hkey =>
      rw [if_pos hkey, if_pos hkey]
      refine .memory rfl fun k => ?_
      rw [OrderedMap.get?_set, OrderedMap.get?_set, OrderedMap.get?_erase]
      split <;> rfl
    · cases htaken
  · rw [hsame]
    obtain ⟨front, hfront⟩ : ∃ front, Store.names path (Snapshot.key space root) =
        front ++ [Snapshot.fileName] := Snapshot.exists_names_key hkey
    rw [hfront] at hfind
    simp only [Host.upload, hstore, if_pos hkey, hfront] at htaken ⊢
    rcases hmoved : Store.writeThenMove h.disk (front ++ [Snapshot.fileName]) data with
      ⟨result, d'⟩
    rw [hmoved] at htaken
    cases result with
    | error e => cases htaken
    | ok _ =>
      -- what was moved to the place stands last in both lists of entries
      rw [Store.writeThenMove_erase (by decide) hfind hmoved]
      exact .refl

end Host

namespace Snapshot

variable {h h' : Host} {key : String} {now : Moment} {g : ImportGraph}

theorem save_eq (h : Host) (key : String) (now : Moment) (g : ImportGraph) :
    save h key now g = ((h.upload key (Document.encode now g).toUTF8).1.isOk,
      (h.upload key (Document.encode now g).toUTF8).2) := by
  unfold save put payload
  split
  · next hupload =>
    rw [hupload]
    rfl
  · next hupload =>
    rw [hupload]
    rfl

theorem save_congr (hh : h.Alike h') (key : String) (now : Moment) (g : ImportGraph) :
    (save h' key now g).1 = (save h key now g).1 ∧
    (save h key now g).2.Alike (save h' key now g).2 := by
  obtain ⟨hresult, halike⟩ := hh.upload key (Document.encode now g).toUTF8
  rw [save_eq, save_eq, hresult]
  exact ⟨rfl, halike⟩

/-- A graph that the store takes is kept alike, whether the one before is removed first or
not. -/
theorem alike_save_delete {space root : String}
    (htaken : (save h (Snapshot.key space root) now g).1 = true) :
    (save h (Snapshot.key space root) now g).2.Alike
      (save (delete h (Snapshot.key space root)) (Snapshot.key space root) now g).2 := by
  rw [save_eq] at htaken ⊢
  rw [save_eq]
  refine Host.alike_upload_delete ?_
  generalize (h.upload (Snapshot.key space root) (Document.encode now g).toUTF8).1 = result
    at htaken
  cases result with
  | error e => cases htaken
  | ok _ => rfl

end Snapshot

end RouteImpact
