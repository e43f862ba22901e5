import RouteImpact.Tool.Reports
import RouteImpact.Proofs.Data.Containers
import RouteImpact.Proofs.Path.Names

namespace RouteImpact

/-!
# The headers of a diff

A header names its file twice, with a divider between the two.  It is divided where it can be first,
so a path that has a divider itself is cut in the middle: then the rest of the line is taken for the
file.

* `Diff.Divided`, `Diff.exists_afterDivider?` — a line is divided, and at the first place;
* `Diff.isDivided` — paths with a divider of their own; `Diff.headerFile?_of_not_divided`,
  `Diff.exists_of_divided` — the others are read back, these as something longer;
* `Diff.FileChange`, `Diff.text`, `Diff.files_text` — whole diffs;
* `Tool.detectChanges_text` — which files the answer for a diff is about, and when these are the
  files of the diff.
-/

namespace Text

/-! ### Where a text stands in another -/

theorem containsList_iff {part cs : List Char} : containsList part cs = true ↔ part <:+: cs := by
  induction cs with
  | nil => rw [containsList, List.isEmpty_iff, List.infix_nil]
  | cons c cs ih =>
    rw [containsList, Bool.or_eq_true, List.isPrefixOf_iff_prefix, ih, List.infix_cons_iff]

end Text

namespace Diff

/-! ### Dividing a header -/

/-- A line divided into what stands before a divider and behind it, with something on both
sides. -/
structure Divided (begun : Bool) (line front rest : List Char) : Prop where
  eq : line = front ++ divider ++ rest
  front_ne : begun = true ∨ front ≠ []
  rest_ne : rest ≠ []

/-- A line that can be divided is divided, and nowhere later. -/
theorem exists_afterDivider? {begun : Bool} {line front rest : List Char}
    (h : Divided begun line front rest) :
    ∃ front' rest', afterDivider? begun line = some rest' ∧ Divided begun line front' rest' ∧
      front'.length ≤ front.length := by
  induction line generalizing begun front with
  | nil => exact absurd h.eq (by simp [divider])
  | cons c cs ih =>
    unfold afterDivider?
    split
    · next hcut =>
      obtain ⟨hbegun, hprefix, hlength⟩ := hcut
      obtain ⟨left, hleft⟩ := List.isPrefixOf_iff_prefix.1 hprefix
      rw [← hleft, List.length_append] at hlength
      rw [← hleft, List.drop_left]
      exact ⟨[], left, rfl, ⟨rfl, Or.inl hbegun, List.ne_nil_of_length_pos (by omega)⟩,
        Nat.zero_le _⟩
    · next hcut =>
      cases front with
      | nil =>
        -- the divider would stand right here
        refine absurd ⟨h.front_ne.resolve_right (by simp), ?_, ?_⟩ hcut
        · rw [List.isPrefixOf_iff_prefix, h.eq]
          exact List.prefix_append _ _
        · rw [h.eq, List.nil_append, List.length_append]
          exact Nat.lt_add_of_pos_right (List.length_pos_iff.2 h.rest_ne)
      | cons d front =>
        obtain ⟨rfl, hcs⟩ := List.cons.inj h.eq
        obtain ⟨front', rest', hafter, hdivided, hle⟩ := ih ⟨hcs, Or.inl rfl, h.rest_ne⟩
        refine ⟨c :: front', rest', hafter, ⟨?_, Or.inr (by simp), hdivided.rest_ne⟩,
          Nat.succ_le_succ hle⟩
        rw [hdivided.eq]
        rfl

/-- A path with a divider behind its first character. -/
def isDivided (path : String) : Bool := Text.containsList divider (path.toList.drop 1)

/-- A divider that begins in a path, behind its first character, lies in it: the divider after the
path does not go on with one that has begun. -/
theorem infix_of_divided {path line front rest : List Char} (h : Divided false line front rest)
    {more : List Char} (hline : line = path ++ divider ++ more)
    (hshorter : front.length < path.length) :
    divider <:+: path.drop 1 := by
  have heq : front ++ (divider ++ rest) = path ++ (divider ++ more) := by
    rw [← List.append_assoc, ← h.eq, hline, List.append_assoc]
  obtain ⟨inner, hpath, hinner⟩ | ⟨inner, hfront, -⟩ := List.append_eq_append_iff.1 heq
  · obtain ⟨c, cs, rfl⟩ := List.exists_cons_of_ne_nil (h.front_ne.resolve_left (by simp))
    have hcut : ∃ tail, inner = divider ++ tail := by
      rcases inner with _ | ⟨x, _ | ⟨y, _ | ⟨z, tail⟩⟩⟩
      · simp [hpath] at hshorter
      · simp [divider] at hinner
      · simp [divider] at hinner
      · obtain ⟨rfl, rfl, rfl, -⟩ : ' ' = x ∧ 'b' = y ∧ '/' = z ∧
            rest = tail ++ (divider ++ more) := by simpa [divider] using hinner
        exact ⟨tail, rfl⟩
    obtain ⟨tail, rfl⟩ := hcut
    exact ⟨cs, tail, by rw [hpath]; simp⟩
  · rw [hfront, List.length_append] at hshorter
    omega

/-! ### Headers -/

/-- The header of a file that is not renamed. -/
def header (path : String) : String := "diff --git a/" ++ path ++ " b/" ++ path

/-- The file that is read in it. -/
def fileRead (path : String) : String := (headerFile? (header path).toList).getD path

section Header

variable {path : String}

theorem headerFile?_header_eq (path : String) : headerFile? (header path).toList =
    (afterDivider? false (path.toList ++ divider ++ path.toList)).map String.ofList := by
  have hjoined : ∀ start middle : String, (start ++ path ++ middle ++ path).toList =
      start.toList ++ (path.toList ++ middle.toList ++ path.toList) := by
    intro start middle
    simp only [String.toList_append, List.append_assoc]
  have hheader : (header path).toList = headerStart ++ (path.toList ++ divider ++ path.toList) :=
    hjoined "diff --git a/" " b/"
  have hstart : headerStart.isPrefixOf (header path).toList = true := by
    rw [List.isPrefixOf_iff_prefix, hheader]
    exact List.prefix_append _ _
  rw [headerFile?, if_pos hstart, hheader, List.drop_left]

/-- **A path without dividers is read back.** -/
theorem headerFile?_of_not_divided (hne : path ≠ "") (h : isDivided path = false) :
    headerFile? (header path).toList = some path := by
  have hpath : path.toList ≠ [] := mt String.toList_eq_nil_iff.1 hne
  have hmiddle : Divided false (path.toList ++ divider ++ path.toList) path.toList path.toList :=
    ⟨rfl, Or.inr hpath, hpath⟩
  obtain ⟨front, rest, hafter, hdivided, hle⟩ := exists_afterDivider? hmiddle
  -- a shorter front would leave a divider in the path
  have hlength : front.length = path.toList.length := by
    refine Nat.le_antisymm hle (Nat.not_lt.1 fun hshorter => ?_)
    rw [isDivided, Bool.eq_false_iff] at h
    exact h (Text.containsList_iff.2 (infix_of_divided hdivided rfl hshorter))
  have heq := hdivided.eq
  rw [List.append_assoc, List.append_assoc] at heq
  obtain ⟨rfl, hrest⟩ := List.append_inj heq hlength.symm
  rw [headerFile?_header_eq, hafter, ← List.append_cancel_left hrest, Option.map_some,
    String.ofList_toList]

/-- A path with a divider is cut at the first one, and what follows is longer than the path. -/
theorem exists_of_divided (h : isDivided path = true) :
    ∃ file, headerFile? (header path).toList = some file ∧ path.length < file.length := by
  obtain ⟨before, after, hinfix⟩ := Text.containsList_iff.1 h
  obtain ⟨c, cs, hcs⟩ : ∃ c cs, path.toList = c :: cs := List.exists_cons_of_ne_nil fun hnil => by
    simp [hnil, divider] at hinfix
  rw [hcs, List.drop_succ_cons, List.drop_zero] at hinfix
  have hearly : Divided false (path.toList ++ divider ++ path.toList) (c :: before)
      (after ++ divider ++ path.toList) := by
    refine ⟨?_, Or.inr (List.cons_ne_nil _ _), by simp [divider]⟩
    rw [hcs, ← hinfix]
    simp
  obtain ⟨front, rest, hafter, hdivided, hle⟩ := exists_afterDivider? hearly
  refine ⟨String.ofList rest, by rw [headerFile?_header_eq, hafter]; rfl, ?_⟩
  have hdivider : divider.length = 3 := rfl
  have hlength := congrArg List.length hdivided.eq
  have hpath := congrArg List.length hinfix
  rw [← String.length_toList, String.length_ofList]
  simp only [List.length_append, List.length_cons, hcs] at hlength hpath hle ⊢
  omega

/-- A header is read, whatever its path is. -/
theorem headerFile?_header (hne : path ≠ "") :
    headerFile? (header path).toList = some (fileRead path) := by
  rw [fileRead]
  cases h : isDivided path with
  | false => rw [headerFile?_of_not_divided hne h]; rfl
  | true =>
    obtain ⟨file, hfile, -⟩ := exists_of_divided h
    rw [hfile]
    rfl

theorem fileRead_of_not_divided (hne : path ≠ "") (h : isDivided path = false) :
    fileRead path = path := by
  rw [fileRead, headerFile?_of_not_divided hne h]
  rfl

theorem length_lt_fileRead (h : isDivided path = true) : path.length < (fileRead path).length := by
  obtain ⟨file, hfile, hlt⟩ := exists_of_divided h
  rwa [fileRead, hfile]

end Header

/-! ### Whole diffs -/

/-- What a diff says of one file: its path, and the lines below its header. -/
structure FileChange where
  path : String
  body : List String
  path_ne : path ≠ ""
  path_line : '\n' ∉ path.toList
  body_lines : ∀ line ∈ body, '\n' ∉ line.toList
  body_below : ∀ line ∈ body, Text.startsWith line "diff --git" = false

/-- The lines about one file. -/
def FileChange.lines (change : FileChange) : List String := header change.path :: change.body

/-- A diff of several files. -/
def text (changes : List FileChange) : String := Text.join "\n" (changes.flatMap FileChange.lines)

theorem newline_notMem_header {path : String} (h : '\n' ∉ path.toList) :
    '\n' ∉ (header path).toList := by
  simp [header, h]

theorem FileChange.newline_notMem (change : FileChange) :
    ∀ line ∈ change.lines, '\n' ∉ line.toList :=
  List.forall_mem_cons.2 ⟨newline_notMem_header change.path_line, change.body_lines⟩

/-- A line below a header is none. -/
theorem headerFile?_of_below {line : String} (h : Text.startsWith line "diff --git" = false) :
    headerFile? line.toList = none := by
  rw [headerFile?, if_neg]
  intro hheader
  have hstart : Text.startsWith line ("diff --git" ++ " a/") = true := hheader
  rw [Text.startsWith_of_append _ _ hstart] at h
  cases h

/-- One file is read in the lines about one file. -/
theorem FileChange.filterMap_lines (change : FileChange) :
    change.lines.filterMap (headerFile? ·.toList) = [fileRead change.path] := by
  have hbelow : change.body.filterMap (headerFile? ·.toList) = [] :=
    List.filterMap_eq_nil_iff.2 fun line hline =>
      headerFile?_of_below (change.body_below line hline)
  rw [FileChange.lines, List.filterMap_cons, hbelow, headerFile?_header change.path_ne]

/-- **The files of a diff** are what is read in its headers. -/
theorem files_text {changes : List FileChange} (hne : changes ≠ []) :
    files (text changes) = Text.distinct (changes.map (fileRead ·.path)) := by
  have hlines : Text.splitList '\n' (text changes).toList =
      (changes.flatMap FileChange.lines).map String.toList := by
    refine Text.splitList_join ?_ fun line hline => ?_
    · obtain ⟨change, rest, rfl⟩ := List.exists_cons_of_ne_nil hne
      simp [FileChange.lines]
    · obtain ⟨change, -, hmem⟩ := List.mem_flatMap.1 hline
      exact change.newline_notMem line hmem
  have hread : ∀ cs : List FileChange,
      (cs.flatMap FileChange.lines).filterMap (headerFile? ·.toList) =
        cs.map (fileRead ·.path) := by
    intro cs
    induction cs with
    | nil => rfl
    | cons change rest ih =>
      rw [List.flatMap_cons, List.filterMap_append, change.filterMap_lines, ih]
      rfl
  rw [files, hlines, List.filterMap_map]
  exact congrArg Text.distinct (hread changes)

/-- The files of a diff that are looked at: those that are not blank. -/
def visibleFiles (diff : String) : List String := (files diff).filter (Text.strip · != "")

/-- **When the files are the paths of the headers.**  A path with a divider is read as a longer one,
so the shortest such path is read nowhere. -/
theorem visibleFiles_eq_iff {changes : List FileChange} (hne : changes ≠ []) :
    visibleFiles (text changes) = Text.distinct (changes.map (·.path)) ↔
      ∀ change ∈ changes, isDivided change.path = false ∧ Text.strip change.path ≠ "" := by
  rw [visibleFiles, files_text hne]
  constructor
  · intro heq
    have hmem : ∀ change ∈ changes, Text.strip change.path ≠ "" ∧
        ∃ other ∈ changes, fileRead other.path = change.path := by
      intro change hchange
      have hread : change.path ∈ Text.distinct (changes.map (·.path)) :=
        Text.mem_distinct.2 (List.mem_map_of_mem hchange)
      rw [← heq, List.mem_filter, Text.mem_distinct, List.mem_map] at hread
      exact ⟨by simpa using hread.2, hread.1⟩
    have hwhole : ∀ n, ∀ change ∈ changes, change.path.length = n →
        isDivided change.path = false := by
      intro n
      induction n using Nat.strongRecOn with
      | _ n ih =>
        intro change hchange hlength
        obtain ⟨other, hother, hread⟩ := (hmem change hchange).2
        cases hdivided : isDivided other.path with
        | false => rwa [← hread, fileRead_of_not_divided other.path_ne hdivided]
        | true =>
          have hlt := length_lt_fileRead hdivided
          rw [hread, hlength] at hlt
          rw [ih _ hlt other hother rfl] at hdivided
          cases hdivided
    exact fun change hchange => ⟨hwhole _ change hchange rfl, (hmem change hchange).1⟩
  · intro h
    have hread : changes.map (fileRead ·.path) = changes.map (·.path) :=
      List.map_congr_left fun change hchange =>
        fileRead_of_not_divided change.path_ne (h change hchange).1
    rw [hread, List.filter_eq_self]
    intro path hpath
    rw [Text.mem_distinct, List.mem_map] at hpath
    obtain ⟨change, hchange, rfl⟩ := hpath
    simpa using (h change hchange).2

end Diff

namespace Tool

open Diff (FileChange visibleFiles isDivided)

/-- **Diffs are read back.**  The routes that a diff affects are those that its visible files
affect, and these are the paths of its headers, in order and each once, exactly if none of them has
a divider behind its first character and none is blank. -/
theorem detectChanges_text {changes : List FileChange} (hne : changes ≠ []) :
    (∀ s : Session, detectChanges s (Diff.text changes) =
      detectRoutes s (visibleFiles (Diff.text changes)) false) ∧
    (visibleFiles (Diff.text changes) = Text.distinct (changes.map (·.path)) ↔
      ∀ change ∈ changes, isDivided change.path = false ∧ Text.strip change.path ≠ "") := by
  refine ⟨fun s => ?_, Diff.visibleFiles_eq_iff hne⟩
  have hfiles : Diff.files (Diff.text changes) ≠ [] := by
    obtain ⟨change, rest, rfl⟩ := List.exists_cons_of_ne_nil hne
    rw [Diff.files_text hne]
    exact List.cons_ne_nil _ _
  rw [detectChanges]
  split
  · next hnone => exact absurd hnone hfiles
  · rfl

/-- A change of a file, with lines below the header that show what is changed. -/
def formatChange : FileChange where
  path := "src/utils/for mat.ts"
  body := ["index 1111111..2222222 100644", "--- a/src/utils/for mat.ts", "", "+diff --git a/x b/x"]
  path_ne := by decide
  path_line := by decide
  body_lines := by decide
  body_below := by decide

/-- A change of a file whose path begins like a divider. -/
def spacedChange : FileChange where
  path := " b/README.md"
  body := []
  path_ne := by decide
  path_line := by decide
  body_lines := by decide
  body_below := by decide

theorem detectChanges_text_twice :
    [formatChange, spacedChange, formatChange] ≠ [] ∧
      visibleFiles (Diff.text [formatChange, spacedChange, formatChange]) =
        ["src/utils/for mat.ts", " b/README.md"] := by
  have hne : [formatChange, spacedChange, formatChange] ≠ [] := by simp
  refine ⟨hne, ?_⟩
  rw [(detectChanges_text hne).2.2 (by decide +kernel)]
  decide

/-- A change of a file in a directory whose name ends in a blank and the letter b. -/
def directoryChange : FileChange where
  path := "src b/page.tsx"
  body := []
  path_ne := by decide
  path_line := by decide
  body_lines := by decide
  body_below := by decide

/-- A change of a file that has a blank for its name. -/
def blankChange : FileChange where
  path := " "
  body := []
  path_ne := by decide
  path_line := by decide
  body_lines := by decide
  body_below := by decide

/-- **A path that is divided in the wrong place**, and one that is passed over: what is looked at is
no file of the diff. -/
theorem visibleFiles_directoryChange :
    visibleFiles (Diff.text [directoryChange]) = ["page.tsx b/src b/page.tsx"] ∧
      visibleFiles (Diff.text [blankChange]) = [] := by
  decide +kernel

end Tool

end RouteImpact
