import RouteImpact.Proofs.Path.Spelling

namespace RouteImpact.Path

/-!
# Normal forms

A path in normal form climbs first and goes down then: two points stand in front of all other
names, and a path that starts at the root has none.

* `Climbing`, `climbing_normalizeParts` — the shape of a normal form, kept by every component
  that is added;
* `normalizeParts_filter`, `normalizeParts_eq_components` — empty components and points do not
  count, and without two points nothing else changes;
* `split_normalize` — a relative normal form is divided into names that are not empty;
* `proper_of_inside`, `exists_names_of_inside` — a normal form that stays below its start is made of
  proper names;
* `normalizeParts_append_congr` — what comes before may be normalised first;
* `directory_slash` — the directory of a name in a directory.
-/

/-! ### Climbing and going down -/

/-- Components, last one first: names that go down, after two points that climb. -/
def Climbing (rooted : Bool) (kept : List String) : Prop :=
  ∃ names up, kept = names ++ List.replicate up ".." ∧ (∀ n ∈ names, Proper n) ∧
    (rooted = true → up = 0)

theorem climbing_nil (rooted : Bool) : Climbing rooted [] := ⟨[], 0, rfl, by simp, fun _ => rfl⟩

/-- **Step.** One more component keeps the shape. -/
theorem Climbing.pushPart {rooted : Bool} {kept : List String} (h : Climbing rooted kept)
    {part : String} (hslash : '/' ∉ part.toList) : Climbing rooted (pushPart rooted kept part) := by
  obtain ⟨names, up, rfl, hnames, hup⟩ := h
  unfold Path.pushPart
  split
  · exact ⟨names, up, rfl, hnames, hup⟩
  · next hkept =>
    rw [not_or] at hkept
    split
    · next hpoints =>
      refine ⟨part :: names, up, rfl, ?_, hup⟩
      rw [List.forall_mem_cons]
      exact ⟨⟨hkept.1, hkept.2, hpoints, hslash⟩, hnames⟩
    · cases names with
      | cons name rest =>
        -- two points take the last name back
        rw [List.forall_mem_cons] at hnames
        rw [List.cons_append]
        dsimp only
        rw [if_neg hnames.1.ne_points]
        exact ⟨rest, up, rfl, hnames.2, hup⟩
      | nil =>
        cases up with
        | zero =>
          cases rooted with
          | true => exact climbing_nil true
          | false => exact ⟨[], 1, rfl, by simp, by simp⟩
        | succ up =>
          rw [List.nil_append, List.replicate_succ]
          dsimp only
          rw [if_pos rfl]
          refine ⟨[], up + 2, by simp [List.replicate_succ], by simp, fun hrooted => ?_⟩
          exact absurd (hup hrooted) (Nat.succ_ne_zero up)

/-- **The shape of a normal form**: two points in front of proper names. -/
theorem climbing_normalizeParts {rooted : Bool} {parts : List String}
    (h : ∀ part ∈ parts, '/' ∉ part.toList) :
    ∃ up names, normalizeParts rooted parts = List.replicate up ".." ++ names ∧
      (∀ n ∈ names, Proper n) ∧ (rooted = true → up = 0) := by
  have hfold : ∀ kept, Climbing rooted kept → Climbing rooted (parts.foldl (pushPart rooted) kept) := by
    induction parts with
    | nil => exact fun kept hkept => hkept
    | cons part parts ih =>
      intro kept hkept
      rw [List.forall_mem_cons] at h
      exact ih h.2 _ (hkept.pushPart h.1)
  obtain ⟨names, up, hkept, hnames, hup⟩ := hfold [] (climbing_nil rooted)
  refine ⟨up, names.reverse, ?_, fun n hn => hnames n (List.mem_reverse.1 hn), hup⟩
  rw [normalizeParts, hkept, List.reverse_append, List.reverse_replicate]

/-! ### Components that do not count -/

theorem pushPart_of_blank {rooted : Bool} {kept : List String} {part : String}
    (h : (part != "" && part != ".") = false) : pushPart rooted kept part = kept := by
  unfold pushPart
  rw [if_pos]
  by_cases hempty : part = ""
  · exact Or.inl hempty
  · exact Or.inr (by simpa [hempty] using h)

theorem normalizeParts_filter (rooted : Bool) (parts : List String) :
    normalizeParts rooted (parts.filter fun part => part != "" && part != ".") =
      normalizeParts rooted parts := by
  suffices h : ∀ kept, (parts.filter fun part => part != "" && part != ".").foldl
      (pushPart rooted) kept = parts.foldl (pushPart rooted) kept by
    rw [normalizeParts, normalizeParts, h]
  induction parts with
  | nil => exact fun kept => rfl
  | cons part parts ih =>
    intro kept
    cases hpart : part != "" && part != "." with
    | true => rw [List.filter_cons_of_pos (by simpa using hpart), List.foldl_cons, List.foldl_cons, ih]
    | false =>
      rw [List.filter_cons_of_neg (by simpa using hpart), List.foldl_cons, pushPart_of_blank hpart, ih]

theorem normalizeParts_split (rooted : Bool) (p : String) :
    normalizeParts rooted (Text.split '/' p) = normalizeParts rooted (components p) :=
  (normalizeParts_filter rooted _).symm

/-- Where nothing is taken back, the components of the normal form are those of the path. -/
theorem normalizeParts_eq_components {rooted : Bool} {p : String}
    (h : ∀ name ∈ components p, name ≠ "..") :
    normalizeParts rooted (Text.split '/' p) = components p := by
  rw [normalizeParts_split]
  exact normalizeParts_of_proper rooted fun name hname => proper_of_mem_components hname (h name hname)

/-- What comes before may be replaced by anything with one normal form. -/
theorem normalizeParts_append_congr {rooted : Bool} {parts others : List String}
    (h : normalizeParts rooted parts = normalizeParts rooted others) (rest : List String) :
    normalizeParts rooted (parts ++ rest) = normalizeParts rooted (others ++ rest) := by
  have hkept := List.reverse_inj.1 h
  rw [normalizeParts, normalizeParts, List.foldl_append, List.foldl_append, hkept]

/-! ### Relative normal forms -/

theorem ofRelative_of_ne_nil {names : List String} (hne : names ≠ []) :
    ofRelative names = Text.join "/" names := by
  rw [ofRelative, if_neg (by simpa using hne)]

theorem normalize_of_relative {p : String} (h : isAbsolute p = false) :
    normalize p = ofRelative (normalizeParts false (Text.split '/' p)) := by
  have hwhole : ∀ n ∈ normalizeParts false (Text.split '/' p), Whole n :=
    fun n hn => whole_of_mem_normalizeParts hn
  simp only [normalize, leadingSlashes_of_relative h, List.isEmpty_nil, Bool.not_true]
  rw [show String.ofList [] = "" from rfl, String.empty_append]
  by_cases hnil : normalizeParts false (Text.split '/' p) = []
  · rw [hnil]
    rfl
  · rw [if_neg (join_ne_empty_of_whole hnil hwhole), ofRelative_of_ne_nil hnil]

/-- A relative normal form has no empty piece. -/
theorem split_normalize {p part : String} (h : isAbsolute p = false)
    (hpart : part ∈ Text.split '/' (normalize p)) : part ≠ "" := by
  rw [normalize_of_relative h, ofRelative] at hpart
  split at hpart
  · have hpoint : part = "." := by simpa [Text.split, Text.splitList] using hpart
    rw [hpoint]
    decide
  · next hne =>
    have hwhole : ∀ n ∈ normalizeParts false (Text.split '/' p), Whole n :=
      fun n hn => whole_of_mem_normalizeParts hn
    rw [Text.split_join (by simpa using hne) fun n hn => (hwhole n hn).no_slash] at hpart
    exact (hwhole part hpart).ne_empty

/-- A relative normal form does not end in a slash. -/
theorem endsWith_slash_of_normal {p : String} (h : isAbsolute p = false)
    (hnormal : normalize p = p) : Text.endsWith p "/" = false := by
  rw [Bool.eq_false_iff]
  intro hend
  obtain ⟨front, hfront⟩ := Text.exists_of_endsWith hend
  -- a slash at the end would leave an empty piece
  refine split_normalize h (?_ : "" ∈ Text.split '/' (normalize p)) rfl
  rw [hnormal, hfront, show front ++ "/" = front ++ "/" ++ "" by simp, Text.split_slash]
  simp [Text.split, Text.splitList]

theorem isAbsolute_normalize_of_absolute {p : String} (h : isAbsolute p = true) :
    isAbsolute (normalize p) = true := by
  obtain ⟨rest, rfl⟩ := Text.exists_of_startsWith h
  obtain ⟨more, hlead⟩ : ∃ more, leadingSlashes ("/" ++ rest).toList = '/' :: more := by
    rw [String.toList_append]
    show ∃ more, leadingSlashes ('/' :: rest.toList) = '/' :: more
    unfold leadingSlashes
    split <;> simp_all
  simp only [normalize, hlead]
  rw [if_neg]
  · simp [isAbsolute, Text.startsWith]
  · intro hempty
    have := congrArg String.toList hempty
    simp at this

/-- **A normal form that stays below its start** is made of proper names. -/
theorem proper_of_inside {p : String} (habs : isAbsolute (normalize p) = false)
    (hpoints : normalize p ≠ "..") (hup : Text.startsWith (normalize p) "../" = false) :
    isAbsolute p = false ∧ ∀ n ∈ normalizeParts false (Text.split '/' p), Proper n := by
  have hrelative : isAbsolute p = false := by
    rw [Bool.eq_false_iff]
    exact fun h => by simp [isAbsolute_normalize_of_absolute h] at habs
  refine ⟨hrelative, ?_⟩
  rw [normalize_of_relative hrelative] at hpoints hup
  obtain ⟨up, names, hnames, hproper, -⟩ := @climbing_normalizeParts false _
    fun part hpart => Text.notMem_of_mem_split (s := p) hpart
  rw [hnames] at hpoints hup ⊢
  cases up with
  | zero => exact hproper
  | succ up =>
    -- two points in front are all of the path, or a slash follows them
    rw [List.replicate_succ, List.cons_append, ofRelative_of_ne_nil (by simp)] at hpoints hup
    cases hrest : List.replicate up ".." ++ names with
    | nil =>
      rw [hrest] at hpoints
      exact absurd rfl hpoints
    | cons n rest =>
      rw [hrest, Text.join, String.intercalate_cons_cons] at hup
      simp [Text.startsWith] at hup

theorem exists_names_of_inside {p : String} (habs : isAbsolute (normalize p) = false)
    (hpoints : normalize p ≠ "..") (hup : Text.startsWith (normalize p) "../" = false) :
    ∃ names, (∀ n ∈ names, Proper n) ∧ normalize p = ofRelative names := by
  obtain ⟨hrelative, hproper⟩ := proper_of_inside habs hpoints hup
  exact ⟨_, hproper, normalize_of_relative hrelative⟩

/-! ### Joining text -/

theorem isAbsolute_append_text {s : String} (hs : s ≠ "") (t : String) :
    isAbsolute (s ++ t) = isAbsolute s := by
  have hne : s.toList ≠ [] := by simpa using hs
  rw [isAbsolute, isAbsolute, Text.startsWith, Text.startsWith, String.toList_append]
  cases hcs : s.toList with
  | nil => exact absurd hcs hne
  | cons c cs => simp [List.isPrefixOf]

/-- Seen from the root, a path is below the root. -/
theorem isAbsolute_append {dir : String} (h : isAbsolute dir = true) (p : String) :
    isAbsolute (append dir p) = true := by
  have hne : dir ≠ "" := by
    rintro rfl
    exact absurd h (by decide)
  unfold append
  split
  · assumption
  · split
    · rw [isAbsolute_append_text hne, h]
    · rw [String.append_assoc, isAbsolute_append_text hne, h]

theorem relative_of_append {dir p : String} (h : isAbsolute (append dir p) = false) :
    isAbsolute dir = false ∧ isAbsolute p = false := by
  rw [Bool.eq_false_iff] at h
  rw [Bool.eq_false_iff, Bool.eq_false_iff]
  refine ⟨fun hdir => h (isAbsolute_append hdir p), fun hp => h ?_⟩
  rw [append, if_pos hp, hp]

/-- Seen from a relative directory, a relative path is relative. -/
theorem isAbsolute_append_of_relative {dir p : String} (hdir : isAbsolute dir = false)
    (h : isAbsolute p = false) : isAbsolute (append dir p) = false := by
  by_cases hne : dir = ""
  · rw [hne, append, if_neg (by simp [h]), if_pos (Or.inl rfl), String.empty_append, h]
  · unfold append
    split
    · exact h
    · split
      · rw [isAbsolute_append_text hne, hdir]
      · rw [String.append_assoc, isAbsolute_append_text hne, hdir]

/-- A point between slashes does not count. -/
theorem normalize_slash_point {dir : String} (hne : dir ≠ "") (hdir : isAbsolute dir = false)
    (p : String) : normalize (dir ++ "/" ++ ("./" ++ p)) = normalize (dir ++ "/" ++ p) := by
  have hrelative : ∀ t, isAbsolute (dir ++ "/" ++ t) = false := by
    intro t
    rw [String.append_assoc, isAbsolute_append_text hne, hdir]
  have hpoint : components ("./" ++ p) = components p := components_slash "." p
  rw [normalize_of_relative (hrelative _), normalize_of_relative (hrelative _),
    normalizeParts_split, normalizeParts_split, components_slash, components_slash, hpoint]

theorem splitName_slash {dir name : String} (hname : '/' ∉ name.toList) :
    splitName (dir ++ "/" ++ name) = (dir.toList ++ ['/'], name.toList) := by
  have hchars : (dir ++ "/" ++ name).toList = dir.toList ++ '/' :: name.toList := by
    simp [String.toList_append]
  have hlast : (dir ++ "/" ++ name).toList.reverse.takeWhile (· != '/') = name.toList.reverse := by
    have hkept : ∀ c ∈ name.toList.reverse, (c != '/') = true := by
      intro c hc
      simpa using fun heq : c = '/' => hname (heq ▸ List.mem_reverse.1 hc)
    rw [hchars, List.reverse_append, List.reverse_cons, List.append_assoc,
      List.takeWhile_append_of_pos hkept]
    simp
  have hlength : (dir ++ "/" ++ name).length - name.toList.length = (dir.toList ++ ['/']).length := by
    rw [← String.length_toList, hchars]
    simp
    omega
  rw [splitName, hlast, List.reverse_reverse, hlength, hchars, show dir.toList ++ '/' :: name.toList = dir.toList ++ ['/'] ++ name.toList by
    simp, List.take_left]

/-- The directory of a name in a directory. -/
theorem directory_slash {dir name : String} (hne : dir ≠ "")
    (hdir : Text.endsWith dir "/" = false) (hname : '/' ∉ name.toList) :
    directory (dir ++ "/" ++ name) = dir := by
  have hkept : Text.dropEndWhile (· == '/') (dir.toList ++ ['/']) = dir.toList := by
    rw [Text.dropEndWhile_concat rfl, Text.dropEndWhile_slash hdir]
  rw [directory, splitName_slash hname]
  dsimp only
  rw [hkept, if_neg (by simpa using hne), String.ofList_toList]

end RouteImpact.Path
