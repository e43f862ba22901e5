import Mathlib.Data.List.Induction
import RouteImpact.Proofs.Path.Names

namespace RouteImpact.Disk

open Path (Proper)

/-!
# Disks as file systems keep them

On a sound disk every entry has a name that can be spelled and stands in a directory, so
walking to a place is looking at it.

* `Sound` — what a file system guarantees;
* `toOption_read` — on a sound disk, reading the names of a place gives what stands there;
* `SameShape` — two disks with files and directories at the same places, which are walked
  alike (`isFile_congr`); new bytes make no difference (`sameShape_set`);
* `Sound.erase`, `Sound.set` — taking a file away and putting an entry into a directory
  keep a disk sound.
-/

/-- A name that can stand on a disk. -/
structure Nameable (name : String) : Prop where
  proper : Proper name
  no_nul : hasNul name = false
  short : name.utf8ByteSize ≤ longestName

instance (name : String) : Decidable (Nameable name) :=
  decidable_of_iff (Proper name ∧ hasNul name = false ∧ name.utf8ByteSize ≤ longestName)
    ⟨fun ⟨a, b, c⟩ => ⟨a, b, c⟩, fun ⟨a, b, c⟩ => ⟨a, b, c⟩⟩

/-- What a file system guarantees: one entry a place, names that can be spelled, and a
directory around every entry. -/
structure Sound (d : Disk) : Prop where
  distinct : (d.entries.map Prod.fst).Nodup
  ne_root : ∀ e ∈ d.entries, e.1 ≠ []
  named : ∀ e ∈ d.entries, ∀ name ∈ e.1, Nameable name
  above : ∀ e ∈ d.entries, d.at? e.1.dropLast = some .directory

instance (e : Option Entry) : Decidable (e = some .directory) :=
  match e with
  | none => isFalse nofun
  | some (.file _) => isFalse nofun
  | some .directory => isTrue rfl

instance (d : Disk) : Decidable d.Sound :=
  decidable_of_iff ((d.entries.map Prod.fst).Nodup ∧ (∀ e ∈ d.entries, e.1 ≠ []) ∧
      (∀ e ∈ d.entries, ∀ name ∈ e.1, Nameable name) ∧
      ∀ e ∈ d.entries, d.at? e.1.dropLast = some .directory)
    ⟨fun ⟨a, b, c, h⟩ => ⟨a, b, c, h⟩, fun ⟨a, b, c, h⟩ => ⟨a, b, c, h⟩⟩

/-- The bytes of the file at a place. -/
def bytes? (d : Disk) (place : Place) : Option ByteArray :=
  match d.at? place with
  | some (.file bytes) => some bytes
  | _ => none

theorem bytes?_eq_some_iff {d : Disk} {place : Place} {bytes : ByteArray} :
    d.bytes? place = some bytes ↔ d.at? place = some (.file bytes) := by
  unfold bytes?
  split <;> simp_all

/-! ### Entries and places -/

theorem at?_root (d : Disk) : d.at? [] = some .directory := by
  simp [at?]

/-- Away from the root, what stands at a place is an entry. -/
theorem mem_entries_of_at? {d : Disk} {place : Place} {e : Entry} (hne : place ≠ [])
    (h : d.at? place = some e) : (place, e) ∈ d.entries := by
  rw [at?, if_neg hne, Option.map_eq_some_iff] at h
  obtain ⟨⟨p, e'⟩, hfind, rfl⟩ := h
  have hp : p = place := by simpa using List.find?_some hfind
  exact hp ▸ List.mem_of_find?_eq_some hfind

theorem find?_of_mem {es : List (Place × Entry)} (hnd : (es.map Prod.fst).Nodup) {place : Place}
    {e : Entry} (h : (place, e) ∈ es) : es.find? (·.1 = place) = some (place, e) := by
  induction es with
  | nil => simp at h
  | cons x es ih =>
    rw [List.map_cons, List.nodup_cons] at hnd
    rcases List.mem_cons.1 h with rfl | hmem
    · simp
    · have hne : x.1 ≠ place := by
        rintro rfl
        exact hnd.1 (List.mem_map.2 ⟨(x.1, e), hmem, rfl⟩)
      rw [List.find?_cons_of_neg (by simpa using hne)]
      exact ih hnd.2 hmem

/-- On a sound disk the entries are what stands at their places. -/
theorem Sound.at?_of_mem {d : Disk} (h : d.Sound) {place : Place} {e : Entry}
    (hmem : (place, e) ∈ d.entries) : d.at? place = some e := by
  rw [at?, if_neg (h.ne_root _ hmem), find?_of_mem h.distinct hmem]
  rfl

theorem Sound.nameable {d : Disk} (h : d.Sound) {place : Place} {e : Entry}
    (hat : d.at? place = some e) : ∀ name ∈ place, Nameable name := by
  intro name hname
  have hne : place ≠ [] := List.ne_nil_of_mem hname
  exact h.named _ (mem_entries_of_at? hne hat) name hname

/-- The place above a place where something stands is a directory. -/
theorem Sound.at?_dropLast {d : Disk} (h : d.Sound) {place : Place} {e : Entry}
    (hat : d.at? place = some e) : d.at? place.dropLast = some .directory := by
  by_cases hne : place = []
  · subst hne
    exact at?_root d
  · exact h.above _ (mem_entries_of_at? hne hat)

/-- Every place on the way to an entry is a directory. -/
theorem Sound.directory_of_append {d : Disk} (h : d.Sound) {above below : Place} {e : Entry}
    (hne : below ≠ []) (hat : d.at? (above ++ below) = some e) :
    d.at? above = some .directory := by
  induction below using List.reverseRecOn generalizing e with
  | nil => exact absurd rfl hne
  | append_singleton below name ih =>
    have hlast := h.at?_dropLast hat
    rw [← List.append_assoc, List.dropLast_concat] at hlast
    by_cases hb : below = []
    · subst hb
      rwa [List.append_nil] at hlast
    · exact ih hb hlast

/-! ### Walking -/

/-- Without two points, a walk that succeeds ends where its names say. -/
theorem eq_append_of_walk {d : Disk} {here place : Place} {names : List String}
    (hup : ∀ n ∈ names, n ≠ "..") (h : d.walk here names = .ok place) :
    place = here ++ names := by
  induction names generalizing here with
  | nil =>
    rw [walk] at h
    cases h
    simp
  | cons name rest ih =>
    unfold walk at h
    split at h
    · cases h
    · cases h
    · rw [if_neg (hup name (by simp))] at h
      split at h
      · cases h
      · rw [ih (fun n hn => hup n (by simp [hn])) h, List.append_assoc]
        rfl

/-- On a sound disk a walk gets to every place where something stands. -/
theorem Sound.walk_of_at? {d : Disk} (h : d.Sound) {here names : Place} {e : Entry}
    (hat : d.at? (here ++ names) = some e) : d.walk here names = .ok (here ++ names) := by
  induction names generalizing here with
  | nil => rw [walk, List.append_nil]
  | cons name rest ih =>
    have hdir : d.at? here = some .directory := h.directory_of_append (by simp) hat
    have hname : Nameable name := h.nameable hat name (by simp)
    have hassoc : here ++ name :: rest = here ++ [name] ++ rest := by simp
    rw [walk, hdir]
    simp only [if_neg hname.proper.ne_points, if_neg (Nat.not_lt.2 hname.short)]
    rw [hassoc] at hat ⊢
    exact ih hat

theorem Sound.find_of_at? {d : Disk} (h : d.Sound) {place : Place} {e : Entry}
    (hat : d.at? place = some e) : d.find place = .ok (place, e) := by
  have hnul : place.any hasNul = false := by
    rw [List.any_eq_false]
    intro name hname
    simp [(h.nameable hat name hname).no_nul]
  have hwalk : d.walk [] place = .ok place := h.walk_of_at? (by rwa [List.nil_append])
  rw [find, locate, if_neg (by simp [hnul]), hwalk]
  simp only [hat]

/-- A path that leads to something can be spelled. -/
theorem Sound.hasNul_of_at? {d : Disk} (h : d.Sound) {p : String} {e : Entry}
    (hat : d.at? (Path.components p) = some e) : hasNul p = false := by
  rw [Bool.eq_false_iff]
  intro hnul
  rw [hasNul, List.contains_iff_mem,
    Path.mem_iff_mem_components (by decide) (by decide)] at hnul
  obtain ⟨name, hname, hc⟩ := hnul
  have hclean := (h.nameable hat name hname).no_nul
  rw [hasNul, ← Bool.not_eq_true, List.contains_iff_mem] at hclean
  exact hclean hc

theorem at?_of_find {d : Disk} {names place : Place} {e : Entry}
    (hup : ∀ n ∈ names, n ≠ "..") (h : d.find names = .ok (place, e)) :
    d.at? names = some e := by
  unfold find at h
  split at h
  · cases h
  · next found hlocate =>
    unfold locate at hlocate
    split at hlocate
    · cases hlocate
    · have hfound := eq_append_of_walk hup hlocate
      rw [List.nil_append] at hfound
      subst hfound
      split at h
      · next hat =>
        cases h
        exact hat
      · cases h

/-- **Reading.** On a sound disk, reading the names of a place gives the bytes of the file
that stands there. -/
theorem Sound.toOption_read {d : Disk} (h : d.Sound) {names : List String}
    (hup : ∀ n ∈ names, n ≠ "..") : (d.read names).toOption = d.bytes? names := by
  ext bytes
  rw [bytes?_eq_some_iff]
  constructor
  · intro hread
    unfold read at hread
    split at hread
    · cases hread
    · next place b hfind =>
      cases hread
      exact at?_of_find hup hfind
    · cases hread
  · intro hat
    rw [read, h.find_of_at? hat]
    rfl

/-! ### Disks of one shape -/

/-- Two disks with files at the same places and directories at the same places, whatever
the files hold. -/
def SameShape (d d' : Disk) : Prop :=
  ∀ place, (d.at? place).map Entry.isFile = (d'.at? place).map Entry.isFile

/-- New bytes of a file do not change the shape of a disk. -/
theorem sameShape_set {d : Disk} {place : Place} {bytes : ByteArray} (hne : place ≠ [])
    (h : d.at? place = some (.file bytes)) (bytes' : ByteArray) :
    d.SameShape (d.set place (.file bytes')) := by
  intro p
  rw [at?_set hne]
  split
  · next hp =>
    rw [← hp, h]
    rfl
  · rfl

/-- The three things that can stand at one place of two disks of one shape. -/
theorem SameShape.cases {d d' : Disk} (h : d.SameShape d') (place : Place) :
    (d.at? place = none ∧ d'.at? place = none) ∨
      (∃ b b', d.at? place = some (.file b) ∧ d'.at? place = some (.file b')) ∨
      (d.at? place = some .directory ∧ d'.at? place = some .directory) := by
  have hp := h place
  cases ha : d.at? place with
  | none =>
    rw [ha] at hp
    exact Or.inl ⟨rfl, by simpa using hp.symm⟩
  | some e =>
    rw [ha] at hp
    cases hb : d'.at? place with
    | none => rw [hb] at hp; cases hp
    | some e' =>
      rw [hb] at hp
      cases e <;> cases e' <;> simp_all [Entry.isFile]

theorem walk_congr {d d' : Disk} (h : d.SameShape d') (here : Place) (names : List String) :
    d.walk here names = d'.walk here names := by
  induction names generalizing here with
  | nil => rfl
  | cons name rest ih =>
    rcases h.cases here with ⟨ha, hb⟩ | ⟨b, b', ha, hb⟩ | ⟨ha, hb⟩
    · simp only [walk, ha, hb]
    · simp only [walk, ha, hb]
    · simp only [walk, ha, hb, ih]

/-- Which paths lead to a file is a matter of shape. -/
theorem isFile_congr {d d' : Disk} (h : d.SameShape d') (p : String) :
    d.isFile p = d'.isFile p := by
  unfold isFile find locate
  rw [walk_congr h]
  by_cases hnul : (Path.components p).any hasNul = true
  · simp only [if_pos hnul]
  · simp only [if_neg hnul]
    cases d'.walk [] (Path.components p) with
    | error e => rfl
    | ok place =>
      rcases h.cases place with ⟨ha, hb⟩ | ⟨b, b', ha, hb⟩ | ⟨ha, hb⟩ <;> simp only [ha, hb]

/-! ### Sound changes -/

/-- Taking a file away keeps a disk sound. -/
theorem Sound.erase {d : Disk} (h : d.Sound) {place : Place} {bytes : ByteArray}
    (hat : d.at? place = some (.file bytes)) : (d.erase place).Sound where
  distinct := h.distinct.sublist (List.filter_sublist.map _)
  ne_root := fun e he => h.ne_root e (List.mem_filter.1 he).1
  named := fun e he => h.named e (List.mem_filter.1 he).1
  above := by
    intro e he
    have habove := h.above e (List.mem_filter.1 he).1
    by_cases hroot : e.1.dropLast = []
    · rw [hroot]
      exact at?_root _
    · -- a file has nothing below it
      have hne : place ≠ e.1.dropLast := by
        rintro rfl
        rw [habove] at hat
        cases hat
      rw [at?_erase hroot, if_neg hne]
      exact habove

/-- Putting an entry into a directory keeps a disk sound, unless a file would take the
place of a directory. -/
theorem Sound.set {d : Disk} (h : d.Sound) {place : Place} {e : Entry} (hne : place ≠ [])
    (hnames : ∀ name ∈ place, Nameable name)
    (habove : d.at? place.dropLast = some .directory)
    (hkind : d.at? place = some .directory → e = .directory) : (d.set place e).Sound where
  distinct := by
    have hold : ((d.entries.filter (·.1 ≠ place)).map Prod.fst).Nodup :=
      h.distinct.sublist (List.filter_sublist.map _)
    rw [Disk.set, List.map_append, List.nodup_append]
    refine ⟨hold, by simp, ?_⟩
    intro p hp q hq
    obtain ⟨x, hx, rfl⟩ := List.mem_map.1 hp
    have hxne := (List.mem_filter.1 hx).2
    simp only [List.map_cons, List.map_nil, List.mem_singleton] at hq
    simpa [hq] using hxne
  ne_root := by
    intro x hx
    rcases List.mem_append.1 hx with hold | hnew
    · exact h.ne_root x (List.mem_filter.1 hold).1
    · rw [List.mem_singleton.1 hnew]
      exact hne
  named := by
    intro x hx
    rcases List.mem_append.1 hx with hold | hnew
    · exact h.named x (List.mem_filter.1 hold).1
    · rw [List.mem_singleton.1 hnew]
      exact hnames
  above := by
    intro x hx
    rw [at?_set hne]
    rcases List.mem_append.1 hx with hold | hnew
    · have hx' := h.above x (List.mem_filter.1 hold).1
      split
      · next hp =>
        -- the entry stands in the very place that is set
        rw [hkind (hp ▸ hx')]
      · exact hx'
    · rw [List.mem_singleton.1 hnew]
      have hlt : place ≠ place.dropLast := by
        intro heq
        have hlen := congrArg List.length heq
        have hpos := List.length_pos_iff.2 hne
        rw [List.length_dropLast] at hlen
        omega
      rw [if_neg hlt]
      exact habove

end RouteImpact.Disk
