import RouteImpact.Proofs.Store.Mirror

namespace RouteImpact

/-!
# A store in a directory in place of one in memory

Two stores are asked the same: one keeps its bytes in a directory that is empty at first, the
other in memory.  Where the keys are not in each other's way they give the same answers, except
that the directory does not list keys that look like unfinished files.

* `Store.Call`, `Store.Reply`, `Host.replies` — what a store is asked and what it answers;
* `Store.Vacant` — a directory that can be made and has nothing in it;
* `Store.Represents` — a disk that mirrors a map, or will once the directory is made;
* `Host.Refines`, `Host.Refines.call` — a store that answers as another does, kept by each call;
* `Host.replies_eq` — the two stores give the same answers, along every history;
* `Host.replies_clash` — a key that is another one with the ending of unfinished files: its
  bytes are lost when the other is uploaded.
-/

/-! ### What a store is asked and what it answers -/

namespace Store

/-- What a store is asked for. -/
inductive Call where
  | upload (key : String) (data : ByteArray)
  | download (key : String)
  | list (start : String)
  | delete (key : String)

/-- The key that a call is about. -/
def Call.key? : Call → Option String
  | .upload key _ => some key
  | .download key => some key
  | .list _ => none
  | .delete key => some key

/-- What a store answers. -/
inductive Reply where
  | done (answer : Except Error Unit)
  | bytes (answer : Except Error ByteArray)
  | keys (answer : Except Error (List String))

/-- An answer without the keys that look like unfinished files. -/
def Reply.finished : Reply → Reply
  | .keys answer => .keys (answer.map (·.filter isFinished))
  | reply => reply

end Store

namespace Host

open Store (Call Reply)

/-- Asks a store once. -/
def call (h : Host) : Call → Reply × Host
  | .upload key data => (.done (h.upload key data).1, (h.upload key data).2)
  | .download key => (.bytes (h.download key), h)
  | .list start => (.keys (h.list start), h)
  | .delete key => (.done (h.delete key).1, (h.delete key).2)

/-- The store after some calls. -/
def after (h : Host) (calls : List Call) : Host := calls.foldl (fun h c => (h.call c).2) h

/-- What a store answers to calls, one after the other. -/
def replies : Host → List Call → List Reply
  | _, [] => []
  | h, c :: calls => (h.call c).1 :: (h.call c).2.replies calls

end Host

/-! ### Disks that stand for maps -/

namespace Store

/-- A directory that can be made, and that has nothing in it then. -/
def Vacant (d : Disk) (path : String) : Prop :=
  ∃ d', d.makeDirectories (Path.components path) = (.ok (), d') ∧
    ∀ names, names ≠ [] → d'.at? (place path ++ names) = none

/-- A disk on which the directory of a store has to be made: nothing is found there now. -/
structure Awaits (path : String) (keys : List String) (d : Disk) (blobs : OrderedMap ByteArray) :
    Prop where
  unmade : ∀ names, names.any Disk.hasNul = false →
    d.find (Path.components path ++ names) = .error .notFound
  made : ∃ d', d.makeDirectories (Path.components path) = (.ok (), d') ∧
    Mirrors path keys d' blobs
  vacant : ∀ key, blobs.get? key = none

/-- A disk that mirrors a map, or will once the directory of the store is made. -/
def Represents (path : String) (keys : List String) (d : Disk) (blobs : OrderedMap ByteArray) :
    Prop :=
  Mirrors path keys d blobs ∨ Awaits path keys d blobs

section Represents

variable {path : String} {keys : List String} {d : Disk} {blobs : OrderedMap ByteArray}
  {key : String}

/-- A directory with nothing in it mirrors the empty map. -/
theorem mirrors_empty {d' : Disk} (hsound : d.Sound) (hkeys : Separate keys)
    (hmade : d.makeDirectories (Path.components path) = (.ok (), d'))
    (hempty : ∀ names, names ≠ [] → d'.at? (place path ++ names) = none) :
    Mirrors path keys d' .empty := by
  have hsound' := (hsound.makeDirectories (spelled_components path)).1
  rw [hmade] at hsound'
  obtain ⟨-, -, hlocate, hbase⟩ := Disk.of_makeDirectories hmade
  rw [← place] at hlocate hbase
  refine ⟨hsound', hlocate, hbase, fun key hkey => ?_, fun names hsome => ?_,
    fun names hne hat => ?_, fun key hsome => ?_⟩
  · rw [Disk.bytes?, hempty _ (hkeys.normal key hkey).components_ne_nil, OrderedMap.get?_empty]
  · by_cases hne : names = []
    · rw [hne, List.append_nil, Disk.bytes?, hbase] at hsome
      cases hsome
    · rw [Disk.bytes?, hempty names hne] at hsome
      cases hsome
  · rw [hempty names hne] at hat
    cases hat
  · cases hsome

theorem represents_of_vacant (hsound : d.Sound) (hkeys : Separate keys) (hvacant : Vacant d path) :
    Represents path keys d .empty := by
  obtain ⟨d', hmade, hempty⟩ := hvacant
  have hmirrors := mirrors_empty hsound hkeys hmade hempty
  rcases Disk.find_append_of_unmade hmade with rfl | hunmade
  · exact Or.inl hmirrors
  · exact Or.inr ⟨hunmade, ⟨d', hmade, hmirrors⟩, fun _ => rfl⟩

/-- **The first file** is written as if the directory had been made before. -/
theorem Awaits.upload (h : Awaits path keys d blobs) (hkeys : Separate keys) (hkey : key ∈ keys)
    (data : ByteArray) :
    ∃ d', writeThenMove d (names path key) data = (.ok (), d') ∧
      Mirrors path keys d' (blobs.set key data) := by
  obtain ⟨d₁, hmade, hmirrors⟩ := h.made
  obtain ⟨d', hwrite, hmirrors'⟩ := hmirrors.upload hkeys hkey data
  refine ⟨d', ?_, hmirrors'⟩
  obtain ⟨-, hnames⟩ := of_isKey (hkeys.accepted key hkey)
  have hnul : (Path.components key).dropLast.any Disk.hasNul = false :=
    Disk.any_hasNul_of_nameable fun n hn =>
      hkeys.nameable_components hkey n (List.dropLast_subset _ hn)
  rw [← hwrite, hnames, writeThenMove, writeThenMove,
    List.dropLast_append_of_ne_nil (hkeys.normal key hkey).components_ne_nil,
    Disk.makeDirectories_append_of_made hmade hnul]

theorem Awaits.find (h : Awaits path keys d blobs) (hkeys : Separate keys) (hkey : key ∈ keys) :
    d.find (names path key) = .error .notFound := by
  obtain ⟨-, hnames⟩ := of_isKey (hkeys.accepted key hkey)
  rw [hnames]
  exact h.unmade _ (Disk.any_hasNul_of_nameable (hkeys.nameable_components hkey))

/-- Removing what is not there changes nothing. -/
theorem Awaits.erase (h : Awaits path keys d blobs) (key : String) :
    Awaits path keys d (blobs.erase key) := by
  have hget : ∀ other, (blobs.erase key).get? other = blobs.get? other := by
    intro other
    rw [OrderedMap.get?_erase, h.vacant other, ite_self]
  obtain ⟨d', hmade, hmirrors⟩ := h.made
  refine ⟨h.unmade, ⟨d', hmade, { hmirrors with bytes := ?_, known := ?_ }⟩, ?_⟩
  · intro other hother
    rw [hget, hmirrors.bytes other hother]
  · intro other hsome
    rw [hget] at hsome
    exact hmirrors.known other hsome
  · intro other
    rw [hget, h.vacant other]

theorem Represents.known (h : Represents path keys d blobs) (hkey : key ∈ blobs.keys) :
    key ∈ keys := by
  rw [OrderedMap.mem_keys_iff] at hkey
  rcases h with h | h
  · exact h.known key hkey
  · rw [h.vacant key] at hkey
    cases hkey

/-! ### One call -/

theorem Represents.upload (h : Represents path keys d blobs) (hkeys : Separate keys)
    (hkey : key ∈ keys) (data : ByteArray) :
    ∃ d', Host.upload ⟨.directory path, d⟩ key data = (.ok (), ⟨.directory path, d'⟩) ∧
      Represents path keys d' (blobs.set key data) := by
  obtain ⟨d', hwrite, hmirrors⟩ : ∃ d', writeThenMove d (names path key) data = (.ok (), d') ∧
      Mirrors path keys d' (blobs.set key data) :=
    h.elim (·.upload hkeys hkey data) (·.upload hkeys hkey data)
  refine ⟨d', ?_, Or.inl hmirrors⟩
  simp only [Host.upload, if_pos (hkeys.accepted key hkey), hwrite]

theorem Represents.download (h : Represents path keys d blobs) (hkeys : Separate keys)
    (hkey : key ∈ keys) (d₀ : Disk) :
    Host.download ⟨.directory path, d⟩ key = Host.download ⟨.memory blobs, d₀⟩ key := by
  rcases h with h | h
  · exact h.download hkeys hkey d₀
  · have hfind := h.find hkeys hkey
    simp only [Host.download, if_pos (hkeys.accepted key hkey), Disk.read, hfind, h.vacant key]
    rfl

theorem Represents.delete (h : Represents path keys d blobs) (hkeys : Separate keys)
    (hkey : key ∈ keys) :
    ∃ d', Host.delete ⟨.directory path, d⟩ key = (.ok (), ⟨.directory path, d'⟩) ∧
      Represents path keys d' (blobs.erase key) := by
  rcases h with h | h
  · obtain ⟨d', hdelete, hmirrors⟩ := h.delete hkeys hkey
    exact ⟨d', hdelete, Or.inl hmirrors⟩
  · have hfind := h.find hkeys hkey
    refine ⟨d, ?_, Or.inr (h.erase key)⟩
    simp only [Host.delete, if_pos (hkeys.accepted key hkey), Disk.unlink, hfind]

theorem Represents.keysBelow (h : Represents path keys d blobs) (hkeys : Separate keys) :
    Store.keysBelow d path = Text.sort (blobs.keys.filter isFinished) := by
  rcases h with h | h
  · exact h.keysBelow hkeys
  · have hfind := h.unmade [] rfl
    have hempty : blobs.keys = [] := by
      refine List.eq_nil_iff_forall_not_mem.2 fun key hkey => ?_
      rw [OrderedMap.mem_keys_iff, h.vacant key] at hkey
      cases hkey
    rw [List.append_nil] at hfind
    rw [hempty, Store.keysBelow, hfind]
    simp [Text.sort]

theorem Represents.list (h : Represents path keys d blobs) (hkeys : Separate keys)
    (start : String) (d₀ : Disk) :
    Host.list ⟨.directory path, d⟩ start =
      (Host.list ⟨.memory blobs, d₀⟩ start).map (·.filter isFinished) := by
  simp only [Host.list, h.keysBelow hkeys, Except.map, Text.filter_sort, List.filter_filter,
    Bool.and_comm]

end Represents

end Store

namespace Host

open Store (Call Reply Separate Represents Vacant isFinished)

/-- A store in a directory that stands for one in memory. -/
inductive Refines (keys : List String) : Host → Host → Prop
  | intro {path : String} {d d₀ : Disk} {blobs : OrderedMap ByteArray}
      (h : Represents path keys d blobs) : Refines keys ⟨.directory path, d⟩ ⟨.memory blobs, d₀⟩

section Refines

variable {keys : List String} {h m : Host}

/-- **One call** is answered alike, and leaves stores that stand for each other. -/
theorem Refines.call (hr : Refines keys h m) (hkeys : Separate keys) {c : Call}
    (hc : ∀ key, c.key? = some key → key ∈ keys) :
    (h.call c).1 = (m.call c).1.finished ∧ Refines keys (h.call c).2 (m.call c).2 := by
  obtain @⟨path, d, d₀, blobs, hrep⟩ := hr
  cases c with
  | upload key data =>
    have hkey := hc key rfl
    obtain ⟨d', hupload, hrep'⟩ := hrep.upload hkeys hkey data
    simp only [Host.call, hupload]
    simp only [Host.upload, if_pos (hkeys.accepted key hkey)]
    exact ⟨rfl, .intro hrep'⟩
  | download key =>
    refine ⟨?_, .intro hrep⟩
    simp only [Host.call, hrep.download hkeys (hc key rfl) d₀, Reply.finished]
  | list start =>
    refine ⟨?_, .intro hrep⟩
    simp only [Host.call, hrep.list hkeys start d₀, Reply.finished]
  | delete key =>
    obtain ⟨d', hdelete, hrep'⟩ := hrep.delete hkeys (hc key rfl)
    simp only [Host.call, hdelete]
    exact ⟨rfl, .intro hrep'⟩

/-- **Many calls**, one after the other. -/
theorem Refines.calls (hr : Refines keys h m) (hkeys : Separate keys) {calls : List Call}
    (hcalls : ∀ c ∈ calls, ∀ key, c.key? = some key → key ∈ keys) :
    h.replies calls = (m.replies calls).map Reply.finished ∧
      Refines keys (h.after calls) (m.after calls) := by
  induction calls generalizing h m with
  | nil => exact ⟨rfl, hr⟩
  | cons c calls ih =>
    obtain ⟨hreply, hr'⟩ := hr.call hkeys (hcalls c (by simp))
    obtain ⟨hreplies, hafter⟩ := ih hr' fun c' hc' => hcalls c' (by simp [hc'])
    refine ⟨?_, hafter⟩
    rw [replies, replies, List.map_cons, hreply, hreplies]

/-- Where no key looks unfinished, none is left out. -/
theorem Refines.finished_replies (hr : Refines keys h m) (hkeys : Separate keys)
    (hfinished : ∀ key ∈ keys, isFinished key = true) {calls : List Call}
    (hcalls : ∀ c ∈ calls, ∀ key, c.key? = some key → key ∈ keys) :
    (m.replies calls).map Reply.finished = m.replies calls := by
  induction calls generalizing h m with
  | nil => rfl
  | cons c calls ih =>
    have hr' := (hr.call hkeys (hcalls c (by simp))).2
    have hreply : (m.call c).1.finished = (m.call c).1 := by
      obtain @⟨path, d, d₀, blobs, hrep⟩ := hr
      cases c with
      | upload key data => rfl
      | download key => rfl
      | delete key => rfl
      | list start =>
        simp only [Host.call, Host.list, Reply.finished, Except.map]
        rw [List.filter_eq_self.2]
        intro key hkey
        have hmem := (List.mergeSort_perm _ _).mem_iff.1 hkey
        exact hfinished key (hrep.known (List.mem_filter.1 hmem).1)
    rw [replies, List.map_cons, hreply, ih hr' fun c' hc' => hcalls c' (by simp [hc'])]

/-- **An upload shows under its own key only.** -/
theorem Refines.upload_other (hr : Refines keys h m) (hkeys : Separate keys) {key other : String}
    (hkey : key ∈ keys) (hother : other ∈ keys) (hne : key ≠ other) (data : ByteArray) :
    (h.upload key data).2.download other = h.download other ∧
      ∀ start, ((h.upload key data).2.list start).map (·.filter (· ≠ key)) =
        (h.list start).map (·.filter (· ≠ key)) := by
  obtain @⟨path, d, d₀, blobs, hrep⟩ := hr
  obtain ⟨d', hupload, hrep'⟩ := hrep.upload hkeys hkey data
  rw [hupload]
  refine ⟨?_, fun start => ?_⟩
  · rw [hrep'.download hkeys hother d₀, hrep.download hkeys hother d₀]
    simp only [download, OrderedMap.get?_set, if_neg hne]
  · have hset : (blobs.set key data).keys.filter (· ≠ key) = blobs.keys.filter (· ≠ key) := by
      rw [OrderedMap.keys, OrderedMap.set, OrderedMap.map_fst_setIn]
      split
      · rfl
      · simp [OrderedMap.keys]
    -- the key can be left out of the keys before they are picked and sorted
    have hfirst : ∀ names : List String,
        ((names.filter (Text.startsWith · start)).filter isFinished).filter (· ≠ key) =
          ((names.filter (· ≠ key)).filter (Text.startsWith · start)).filter isFinished := by
      intro names
      rw [List.filter_comm, List.filter_comm (p := (· ≠ key))]
    rw [hrep'.list hkeys start d₀, hrep.list hkeys start d₀]
    simp only [list, Except.map, Text.filter_sort, hfirst, hset]

end Refines

/-- **A store in a directory refines one in memory.**  From a directory with nothing in it, and
for keys that are not in each other's way, every history of calls is answered as by a store in
memory, but for listed keys that look unfinished; where no key does, the answers are equal.
After such a history, an upload to one key changes neither what is downloaded nor what is listed
for any other. -/
theorem replies_eq {d : Disk} {path : String} {keys : List String} {calls : List Call}
    (hsound : d.Sound) (hvacant : Vacant d path) (hkeys : Separate keys)
    (hcalls : ∀ c ∈ calls, ∀ key, c.key? = some key → key ∈ keys) :
    replies ⟨.directory path, d⟩ calls =
      (replies ⟨.memory .empty, d⟩ calls).map Reply.finished ∧
    ((∀ key ∈ keys, isFinished key = true) →
      replies ⟨.directory path, d⟩ calls = replies ⟨.memory .empty, d⟩ calls) ∧
    ∀ key ∈ keys, ∀ other ∈ keys, key ≠ other → ∀ data,
      let before := after ⟨.directory path, d⟩ calls
      (before.upload key data).2.download other = before.download other ∧
        ∀ start, ((before.upload key data).2.list start).map (·.filter (· ≠ key)) =
          (before.list start).map (·.filter (· ≠ key)) := by
  have hr : Refines keys ⟨.directory path, d⟩ ⟨.memory .empty, d⟩ :=
    .intro (Store.represents_of_vacant hsound hkeys hvacant)
  obtain ⟨hreplies, hafter⟩ := hr.calls hkeys hcalls
  refine ⟨hreplies, fun hfinished => ?_, fun key hkey other hother hne data => ?_⟩
  · rw [hreplies, hr.finished_replies hkeys hfinished hcalls]
  · exact hafter.upload_other hkeys hkey hother hne data

/-- A disk on which the directory of the store is still to be made. -/
def bareDisk : Disk := ⟨[(["p"], .directory)]⟩

theorem vacant_bareDisk : Vacant bareDisk "/p/store" := by
  refine ⟨⟨[(["p"], .directory), (["p", "store"], .directory)]⟩, rfl, fun names hne => ?_⟩
  have hplace : Store.place "/p/store" = ["p", "store"] := by decide +kernel
  simp [hplace, Disk.at?, hne]

/-- Files that come and go, one of them below a directory and with the ending of unfinished
files. -/
def comingAndGoing : List Call :=
  [.list "", .upload "k" "old".toUTF8, .upload "a/b.tmp" "kept".toUTF8, .upload "k" "new".toUTF8,
    .download "k", .delete "k", .download "k", .list ""]

theorem replies_eq_comingAndGoing :
    bareDisk.Sound ∧ Vacant bareDisk "/p/store" ∧ Separate ["k", "a/b.tmp"] ∧
      replies ⟨.directory "/p/store", bareDisk⟩ comingAndGoing =
        (replies ⟨.memory .empty, bareDisk⟩ comingAndGoing).map Reply.finished := by
  have hkeys : Separate ["k", "a/b.tmp"] :=
    ⟨by decide +kernel, by decide +kernel, by decide +kernel, by decide +kernel,
      by decide +kernel, by decide +kernel⟩
  refine ⟨by decide, vacant_bareDisk, hkeys, ?_⟩
  exact (replies_eq (by decide) vacant_bareDisk hkeys (by simp [comingAndGoing, Call.key?])).1

/-- Two keys of which one is the other with the ending of unfinished files. -/
def clashing : List Call :=
  [.upload "k.tmp" "old".toUTF8, .upload "k" "new".toUTF8, .download "k.tmp", .list "k."]

/-- **A key where an unfinished file is written** loses its bytes, and is not listed. -/
theorem replies_clash :
    (∀ key ∈ ["k", "k.tmp"],
      Store.isKey key = true ∧ Disk.hasNul key = false ∧ Store.Normal key) ∧
    (∀ key ∈ ["k", "k.tmp"], ∀ other ∈ ["k", "k.tmp"],
      Path.components key <+: Path.components other → key = other) ∧
    replies ⟨.directory "/p/store", bareDisk⟩ clashing =
      [.done (.ok ()), .done (.ok ()), .bytes (.error (.refused "download" "k.tmp" .notFound)),
        .keys (.ok [])] ∧
    replies ⟨.memory .empty, bareDisk⟩ clashing =
      [.done (.ok ()), .done (.ok ()), .bytes (.ok "old".toUTF8), .keys (.ok ["k.tmp"])] := by
  simp only [clashing, replies, call, List.cons.injEq, Reply.done.injEq, Reply.bytes.injEq,
    Reply.keys.injEq]
  decide +kernel

end Host

end RouteImpact
