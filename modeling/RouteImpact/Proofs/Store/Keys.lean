import RouteImpact.Proofs.Store.Footprint

namespace RouteImpact

/-!
# The names of keys

A store in a directory takes the components of a key for names.  They lead forward, and where
the key is in normal form they spell it.  The file that is written first bears the same names
but for the ending of the last one.

* `Store.of_isKey` — the names of a key, and how they go on from those of the directory;
* `Store.Normal`, `Store.join_components` — a key in normal form is its names, joined;
* `Store.proper_of_mem_temporary`, `Store.endsWith_temporary` — the names of an unfinished
  file.
-/

/-- Joining the pieces of a text gives it back. -/
theorem Text.join_split (s : String) : join "/" (split '/' s) = s := by
  suffices h : ∀ cs : List Char, join "/" ((splitList '/' cs).map String.ofList) = String.ofList cs by
    rw [split, h, String.ofList_toList]
  intro cs
  induction cs with
  | nil => rfl
  | cons c cs ih =>
    cases hs : splitList '/' cs with
    | nil => exact absurd hs (splitList_ne_nil '/' cs)
    | cons piece rest =>
      rw [hs] at ih
      unfold splitList
      rw [hs]
      split
      · next hc =>
        rw [List.map_cons, join, List.map_cons, String.intercalate_cons_cons, ← List.map_cons]
        rw [join] at ih
        rw [ih, hc, ← String.toList_inj]
        simp
      · cases rest with
        | nil =>
          rw [join] at ih ⊢
          simp only [List.map_cons, List.map_nil, String.intercalate_singleton] at ih ⊢
          rw [String.ofList_injective ih]
        | cons next rest =>
          rw [join] at ih ⊢
          simp only [List.map_cons, String.intercalate_cons_cons] at ih ⊢
          rw [← String.toList_inj] at ih ⊢
          simp only [String.toList_append, String.toList_ofList, List.cons_append] at ih ⊢
          rw [ih]

namespace Store

open Path (Proper)

/-! ### Keys -/

/-- The names of a key lead forward, from those of the directory. -/
theorem of_isKey {key : String} (h : isKey key = true) :
    (∀ n ∈ Path.components key, Proper n) ∧
      ∀ directory, names directory key = Path.components directory ++ Path.components key := by
  simp only [isKey, Bool.and_eq_true, Bool.not_eq_true', List.contains_eq_mem,
    decide_eq_false_iff_not] at h
  refine ⟨fun n hn => Path.proper_of_mem_components hn ?_, fun _ => Path.components_append h.1.2⟩
  rintro rfl
  exact h.2 hn

theorem spelled_components (path : String) : Disk.Spelled (Path.components path) :=
  fun _ hn hup => Path.proper_of_mem_components hn hup

theorem spelled_append {root names : List String} (hroot : Disk.Spelled root)
    (hnames : ∀ n ∈ names, Proper n) : Disk.Spelled (root ++ names) :=
  fun n hn hup => (List.mem_append.1 hn).elim (hroot n · hup) (hnames n)

/-- A key in normal form: no piece of it is empty or a point. -/
def Normal (key : String) : Prop := ∀ piece ∈ Text.split '/' key, piece ≠ "" ∧ piece ≠ "."

instance (key : String) : Decidable (Normal key) :=
  inferInstanceAs (Decidable (∀ piece ∈ Text.split '/' key, piece ≠ "" ∧ piece ≠ "."))

section Normal

variable {key : String}

theorem Normal.components_eq (h : Normal key) : Path.components key = Text.split '/' key := by
  rw [Path.components, List.filter_eq_self]
  intro piece hpiece
  simpa using h piece hpiece

/-- **A key in normal form is spelled by its names.** -/
theorem Normal.join_components (h : Normal key) : Text.join "/" (Path.components key) = key := by
  rw [h.components_eq, Text.join_split]

theorem Normal.components_ne_nil (h : Normal key) : Path.components key ≠ [] := by
  rw [h.components_eq, Text.split]
  simpa using Text.splitList_ne_nil '/' key.toList

end Normal

/-! ### Unfinished files -/

section Temporary

variable {names : List String}

theorem temporary_concat (front : List String) (name : String) :
    temporary (front ++ [name]) = front ++ [name ++ temporaryEnding] := by
  rw [temporary, List.dropLast_concat, List.getLast?_concat, Option.getD_some]

theorem temporary_append (root : List String) (hne : names ≠ []) :
    temporary (root ++ names) = root ++ temporary names := by
  rw [← List.dropLast_concat_getLast hne, ← List.append_assoc, temporary_concat, temporary_concat,
    List.append_assoc]

/-- The names of an unfinished file lead forward as those of the file do. -/
theorem proper_of_mem_temporary (h : ∀ n ∈ names, Proper n) : ∀ n ∈ temporary names, Proper n := by
  intro n hn
  rcases List.mem_append.1 hn with hfront | hlast
  · exact h n (List.dropLast_subset _ hfront)
  · rw [List.mem_singleton.1 hlast]
    refine proper_temporary ?_
    cases hname : names.getLast? with
    | none => simp
    | some name => exact (h name (List.mem_of_getLast? hname)).no_slash

theorem endsWith_temporary (names : List String) :
    Text.endsWith ((temporary names).getLast?.getD "") temporaryEnding = true := by
  rw [temporary, List.getLast?_concat, Option.getD_some, Text.endsWith, String.toList_append,
    List.isSuffixOf_iff_suffix]
  exact List.suffix_append _ _

end Temporary

end Store

end RouteImpact
