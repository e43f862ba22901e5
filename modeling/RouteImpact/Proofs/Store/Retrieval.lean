import RouteImpact.Proofs.Store.Footprint

namespace RouteImpact

/-!
# What is kept can be fetched

A store that has taken bytes under a key gives the same bytes back.  In memory this is a law
of maps.  In a directory the bytes are written under another name and moved, so it has to be
seen that the names of the key still lead to where they led when the move was made.

* `Disk.find_of_rename` — after a move the new names lead to what was moved;
* `Store.read_writeThenMove` — hence what was written in two steps is read back;
* `Host.download_of_upload` — what was uploaded is downloaded, whichever store took it;
* `Snapshot.load_of_save` — a graph that was kept is loaded if its bytes can be read.
-/

namespace Disk

/-- Taking away what is no directory does not stop a walk. -/
theorem walk_erase {d : Disk} {p here place : Place} {names : List String}
    (hp : d.at? p ≠ some .directory) (h : d.walk here names = .ok place) :
    (d.erase p).walk here names = .ok place := by
  refine walk_mono (fun q hq => ?_) h
  by_cases hroot : q = []
  · rw [hroot]
    exact at?_root _
  · rw [at?_erase hroot, if_neg]
    · exact hq
    · rintro rfl
      exact hp hq

/-- **After a move** the new names lead to the file. -/
theorem find_of_rename {d : Disk} {old new : List String} {source place : Place}
    {bytes : ByteArray} (hfind : d.find old = .ok (source, .file bytes))
    (htarget : d.target new = .ok place) (hplace : d.at? place ≠ some .directory) :
    ((d.erase source).set place (.file bytes)).find new = .ok (place, .file bytes) := by
  have hsource : d.at? source ≠ some .directory := by
    rw [(of_find hfind).2]
    simp
  obtain ⟨hnul, hwalk⟩ := walk_of_locate (of_target htarget).1
  have hne : place ≠ [] := by
    rintro rfl
    exact hplace (at?_root d)
  -- neither the file that goes nor the one that comes stands on the way
  have hfree : (d.erase source).at? place ≠ some .directory := by
    rw [at?_erase hne]
    split
    · simp
    · exact hplace
  have hwalk' := walk_set (e := .file bytes) hne hfree (walk_erase hsource hwalk)
  rw [find, locate, if_neg (by simp [hnul]), hwalk']
  simp only [at?_set hne, if_pos]

end Disk

namespace Store

/-- **Written in two steps**, bytes are read back. -/
theorem read_writeThenMove {d d' : Disk} {names : List String} {data : ByteArray}
    (h : writeThenMove d names data = (.ok (), d')) : d'.read names = .ok data := by
  unfold writeThenMove at h
  split at h
  · cases h
  · next d₁ _ =>
    rcases d₁.write_cases (temporary names) data with ⟨e, hw⟩ | ⟨place, htarget, hat, hw⟩
    · rw [hw] at h
      cases h
    · rw [hw] at h
      dsimp only at h
      -- what the move finds under the unfinished name is what was just written
      have hwritten : (d₁.set place (.file data)).find (temporary names) =
          .ok (place, .file data) := Disk.find_of_write htarget hat
      rcases (d₁.set place (.file data)).rename_cases (temporary names) names with
        ⟨e, hm⟩ | ⟨source, entry, place', hfind, htarget', hat', hm⟩
      · rw [hm] at h
        cases h
      · rw [hm] at h
        rw [hwritten] at hfind
        cases hfind
        cases h
        rw [Disk.read, Disk.find_of_rename hwritten htarget' hat']

end Store

namespace Host

/-- **What was uploaded is downloaded.** -/
theorem download_of_upload {h h' : Host} {key : String} {data : ByteArray}
    (hupload : h.upload key data = (.ok (), h')) : h'.download key = .ok data := by
  unfold upload at hupload
  split at hupload
  · next blobs hstore =>
    split at hupload
    · cases hupload
      rw [download]
      simp only [OrderedMap.get?_set, if_pos]
      rfl
    · cases hupload
  · next path hstore =>
    split at hupload
    · next hkey =>
      split at hupload
      · next hmoved =>
        cases hupload
        have hread := Store.read_writeThenMove hmoved
        rw [download]
        simp only [hstore, if_pos hkey, hread]
      · cases hupload
    · cases hupload
  · cases hupload
  · cases hupload

end Host

namespace Snapshot

/-- Loading depends on what is downloaded only. -/
theorem load_congr {h h' : Host} {key : String}
    (hdownload : h'.download key = h.download key) (prune : Bool) :
    load h' key prune = load h key prune := by
  unfold load
  rw [hdownload]

/-- Bytes that the store has taken are loaded again. -/
theorem load_of_put {h h' : Host} {key : String} {bytes : ByteArray} {g : ImportGraph}
    {prune : Bool} (hput : put h key bytes = (true, h'))
    (hread : Document.decodeBytes prune bytes = .ok g) :
    load h' key prune = .ok (some (.graph g)) := by
  unfold put at hput
  split at hput
  · next hupload =>
    cases hput
    rw [load, Host.download_of_upload hupload]
    simp only [hread]
  · cases hput

theorem load_of_save {h h' : Host} {key : String} {now : Moment} {g g' : ImportGraph}
    {prune : Bool} (hsave : save h key now g = (true, h'))
    (hread : Document.decodeBytes prune (Document.encode now g).toUTF8 = .ok g') :
    load h' key prune = .ok (some (.graph g')) :=
  load_of_put hsave hread

end Snapshot

end RouteImpact
