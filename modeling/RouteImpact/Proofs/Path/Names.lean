import RouteImpact.Project.Files

namespace RouteImpact

/-!
# Paths made of names

A path joined from proper names is in normal form: its components are those names, and no
function that tidies paths changes it.

* `Text.splitList_join`, `Text.split_join` — dividing a joined text gives its pieces back;
  `Text.join_concat` joins one more;
* `Path.Whole`, `Path.isAbsolute_of_whole` — a path of names that are not divided is relative;
* `Path.Proper` — a name that stands for itself in a path; `Path.parts_join`, `Path.tidy_join` —
  a path of such names is as it should be;
* `Path.components_append` — the components of a path seen from a directory;
* `Project.normalize_join` — a path of proper names is the spelling of its file.
-/

namespace Text

/-! ### Dividing and joining -/

theorem splitList_ne_nil (sep : Char) (cs : List Char) : splitList sep cs ≠ [] := by
  cases cs with
  | nil => simp [splitList]
  | cons c cs =>
    unfold splitList
    split
    · simp
    · split <;> simp

/-- Dividing at a divider divides what stands before and after it. -/
theorem splitList_append_cons (sep : Char) (xs ys : List Char) :
    splitList sep (xs ++ sep :: ys) = splitList sep xs ++ splitList sep ys := by
  induction xs with
  | nil => simp [splitList]
  | cons c xs ih =>
    by_cases h : c = sep
    · simp [splitList, h, ih]
    · simp only [List.cons_append, splitList, if_neg h, ih]
      -- the first piece of what follows takes the character
      cases hs : splitList sep xs with
      | nil => exact absurd hs (splitList_ne_nil sep xs)
      | cons piece rest => rfl

theorem splitList_of_notMem {sep : Char} {cs : List Char} (h : sep ∉ cs) :
    splitList sep cs = [cs] := by
  induction cs with
  | nil => rfl
  | cons c cs ih =>
    rw [List.mem_cons, not_or] at h
    simp only [splitList, if_neg (Ne.symm h.1), ih h.2]

theorem notMem_of_mem_splitList {sep : Char} {cs piece : List Char}
    (h : piece ∈ splitList sep cs) : sep ∉ piece := by
  induction cs generalizing piece with
  | nil => simp [splitList] at h; simp [h]
  | cons c cs ih =>
    unfold splitList at h
    split at h
    · rcases List.mem_cons.1 h with rfl | h
      · simp
      · exact ih h
    · next hc =>
      split at h
      · next first rest hs =>
        rcases List.mem_cons.1 h with rfl | h
        · have hfirst : sep ∉ first := ih (by simp [hs])
          simp [Ne.symm hc, hfirst]
        · exact ih (by simp [hs, h])
      · simp only [List.mem_singleton] at h
        simp [h, Ne.symm hc]

/-- The characters of a text, its dividers apart, are those of its pieces. -/
theorem mem_iff_mem_splitList {sep c : Char} (h : c ≠ sep) (cs : List Char) :
    c ∈ cs ↔ ∃ piece ∈ splitList sep cs, c ∈ piece := by
  induction cs with
  | nil => simp [splitList]
  | cons x xs ih =>
    unfold splitList
    split
    · next hx =>
      subst hx
      simp [h, ih]
    · cases hs : splitList sep xs with
      | nil => exact absurd hs (splitList_ne_nil sep xs)
      | cons piece rest =>
        rw [hs] at ih
        simp only [List.mem_cons, ih, exists_eq_or_imp, or_assoc]

theorem notMem_of_mem_split {sep : Char} {s piece : String} (h : piece ∈ split sep s) :
    sep ∉ piece.toList := by
  obtain ⟨cs, hcs, rfl⟩ := List.mem_map.1 h
  rw [String.toList_ofList]
  exact notMem_of_mem_splitList hcs

theorem split_slash (s t : String) : split '/' (s ++ "/" ++ t) = split '/' s ++ split '/' t := by
  have hlist : (s ++ "/" ++ t).toList = s.toList ++ '/' :: t.toList := by
    simp [String.toList_append]
  rw [split, hlist, splitList_append_cons, List.map_append]
  rfl

/-- Dividing joined pieces gives them back. -/
theorem splitList_join {sep : Char} {pieces : List String} (hne : pieces ≠ [])
    (h : ∀ p ∈ pieces, sep ∉ p.toList) :
    splitList sep (join (String.singleton sep) pieces).toList = pieces.map String.toList := by
  induction pieces with
  | nil => exact absurd rfl hne
  | cons p rest ih =>
    have hp : splitList sep p.toList = [p.toList] := splitList_of_notMem (h p (by simp))
    cases rest with
    | nil => simp [join, hp]
    | cons q rest =>
      have hrest := ih (by simp) fun x hx => h x (by simp [hx])
      have hlist : (join (String.singleton sep) (p :: q :: rest)).toList =
          p.toList ++ sep :: (join (String.singleton sep) (q :: rest)).toList := by
        simp [join, String.intercalate_cons_cons]
      rw [hlist, splitList_append_cons, hp, hrest]
      rfl

theorem split_join {names : List String} (hne : names ≠ [])
    (h : ∀ n ∈ names, '/' ∉ n.toList) : split '/' (join "/" names) = names := by
  rw [split, show "/" = String.singleton '/' from rfl, splitList_join hne h]
  simp

/-- Joining a longer list of names. -/
theorem join_concat {names : List String} (hne : names ≠ []) (name : String) :
    join "/" (names ++ [name]) = join "/" names ++ "/" ++ name := by
  induction names with
  | nil => exact absurd rfl hne
  | cons n rest ih =>
    cases rest with
    | nil => simp [join, String.intercalate_cons_cons]
    | cons m rest =>
      have hrest := ih (by simp)
      simp only [join, List.cons_append, String.intercalate_cons_cons] at hrest ⊢
      rw [hrest]
      simp only [String.append_assoc]

/-- What is added to a path is added to its last name. -/
theorem join_concat_append (front : List String) (name tail : String) :
    join "/" (front ++ [name ++ tail]) = join "/" (front ++ [name]) ++ tail := by
  by_cases hfront : front = []
  · subst hfront
    simp [join]
  · rw [join_concat hfront, join_concat hfront, ← String.append_assoc]

/-! ### Starts and rests -/

theorem startsWith_append (s t : String) : startsWith (s ++ t) s = true := by
  rw [startsWith, String.toList_append, List.isPrefixOf_iff_prefix]
  exact List.prefix_append _ _

theorem drop_append (s t : String) : drop (s ++ t) s.length = t := by
  rw [drop, String.toList_append, ← String.length_toList, List.drop_left, String.ofList_toList]

/-- What comes before a character begins with what does not have it. -/
theorem before_append {c : Char} {s : String} (h : c ∉ s.toList) (t : String) :
    before c (s ++ t) = s ++ before c t := by
  have hkept : ∀ x ∈ s.toList, (x != c) = true := fun x hx => by
    simpa using fun heq : x = c => h (heq ▸ hx)
  rw [before, before, ← String.toList_inj, String.toList_append, String.toList_append,
    List.takeWhile_append_of_pos hkept]
  simp

/-- A text starts with what comes before one of its characters. -/
theorem startsWith_append_before {c : Char} {s t start : String}
    (h : startsWith (s ++ before c t) start = true) : startsWith (s ++ t) start = true := by
  rw [startsWith, List.isPrefixOf_iff_prefix, String.toList_append] at h ⊢
  refine h.trans ((List.prefix_append_right_inj _).2 ?_)
  rw [before, String.toList_ofList]
  exact List.takeWhile_prefix _

/-- Two starts of one text that are equally long are the same. -/
theorem eq_of_startsWith {s start other : String} (h : startsWith s start = true)
    (h' : startsWith s other = true) (hlength : start.length = other.length) :
    start = other := by
  rw [startsWith, List.isPrefixOf_iff_prefix] at h h'
  rw [← String.length_toList, ← String.length_toList] at hlength
  rw [← String.toList_inj]
  exact (List.prefix_of_prefix_length_le h h' (Nat.le_of_eq hlength)).eq_of_length hlength

/-- What a text starts with up to a first slash lies before any slash of it. -/
theorem startsWith_slash_of_append (front : String) {s t : String} (hfront : '/' ∉ front.toList)
    (h : startsWith (s ++ "/" ++ t) (front ++ "/") = true) :
    startsWith (s ++ "/") (front ++ "/") = true := by
  rw [startsWith, List.isPrefixOf_iff_prefix] at h ⊢
  rw [String.toList_append (s := s ++ "/")] at h
  rcases List.prefix_or_prefix_of_prefix h (List.prefix_append _ _) with hfits | hshorter
  · exact hfits
  · rw [String.toList_append (s := front), show "/".toList = ['/'] from rfl, List.prefix_concat_iff]
      at hshorter
    rcases hshorter with hsame | hinside
    · rw [hsame, String.toList_append]
      exact List.prefix_rfl
    · exact absurd (hinside.subset (by simp)) hfront

theorem exists_of_startsWith {s start : String} (h : startsWith s start = true) :
    ∃ rest, s = start ++ rest := by
  obtain ⟨rest, hrest⟩ := List.isPrefixOf_iff_prefix.1 h
  refine ⟨String.ofList rest, ?_⟩
  rw [← String.toList_inj, String.toList_append, String.toList_ofList, hrest]

theorem exists_of_endsWith {s ending : String} (h : endsWith s ending = true) :
    ∃ front, s = front ++ ending := by
  obtain ⟨front, hfront⟩ := List.isSuffixOf_iff_suffix.1 h
  refine ⟨String.ofList front, ?_⟩
  rw [← String.toList_inj, String.toList_append, String.toList_ofList, hfront]

theorem startsWith_of_append {s : String} (start more : String)
    (h : startsWith s (start ++ more) = true) : startsWith s start = true := by
  obtain ⟨rest, rfl⟩ := exists_of_startsWith h
  rw [String.append_assoc, startsWith_append]

theorem endsWith_append (s t : String) : endsWith (s ++ t) t = true := by
  rw [endsWith, String.toList_append, List.isSuffixOf_iff_suffix]
  exact List.suffix_append _ _

theorem dropEnd_append (s t : String) : dropEnd (s ++ t) t.length = s := by
  rw [dropEnd, String.toList_append, String.length_append, Nat.add_sub_cancel,
    ← String.length_toList, List.take_left, String.ofList_toList]

theorem dropEndWhile_concat {p : Char → Bool} {c : Char} (h : p c = true) (cs : List Char) :
    dropEndWhile p (cs ++ [c]) = dropEndWhile p cs := by
  rw [dropEndWhile, List.reverse_append, List.reverse_singleton, List.singleton_append,
    List.dropWhile_cons_of_pos h]
  rfl

/-- Without a slash at the end there is none to leave out. -/
theorem dropEndWhile_slash {s : String} (h : endsWith s "/" = false) :
    dropEndWhile (· == '/') s.toList = s.toList := by
  change (['/'].reverse.isPrefixOf s.toList.reverse) = false at h
  rw [dropEndWhile]
  cases hlast : s.toList.reverse with
  | nil => simpa using hlast.symm
  | cons c cs =>
    have hc : c ≠ '/' := by
      rintro rfl
      simp [hlast, List.isPrefixOf] at h
    rw [List.dropWhile_cons_of_neg (by simpa using hc), ← hlast, List.reverse_reverse]

end Text

namespace Path

/-! ### Components -/

theorem components_slash (s t : String) :
    components (s ++ "/" ++ t) = components s ++ components t := by
  rw [components, Text.split_slash, List.filter_append]
  rfl

theorem components_slash_end (s : String) : components (s ++ "/") = components s := by
  have hempty := components_slash s ""
  rwa [String.append_empty, show components "" = [] from rfl, List.append_nil] at hempty

/-- After a slash, or at the start, a text goes on with new components. -/
theorem components_append_text {s : String} (h : s = "" ∨ Text.endsWith s "/" = true) (t : String) :
    components (s ++ t) = components s ++ components t := by
  rcases h with rfl | hslash
  · rw [String.empty_append]
    rfl
  · obtain ⟨front, rfl⟩ := Text.exists_of_endsWith hslash
    rw [components_slash, components_slash_end]

/-- Seen from a directory, a relative path goes on where the directory ends. -/
theorem components_append {dir p : String} (h : isAbsolute p = false) :
    components (append dir p) = components dir ++ components p := by
  rw [append, if_neg (by simp [h])]
  split
  · next hdir => exact components_append_text hdir p
  · exact components_slash dir p

/-- A path has the characters of its components, slashes and points apart. -/
theorem mem_iff_mem_components {c : Char} (hslash : c ≠ '/') (hpoint : c ≠ '.') (p : String) :
    c ∈ p.toList ↔ ∃ name ∈ components p, c ∈ name.toList := by
  rw [Text.mem_iff_mem_splitList hslash]
  constructor
  · rintro ⟨piece, hpiece, hc⟩
    refine ⟨String.ofList piece, List.mem_filter.2 ⟨List.mem_map.2 ⟨piece, hpiece, rfl⟩, ?_⟩, ?_⟩
    · -- neither the empty piece nor a point has the character
      have hne : piece ≠ [] := List.ne_nil_of_mem hc
      have hdot : piece ≠ ['.'] := by
        rintro rfl
        exact hpoint (List.mem_singleton.1 hc)
      have hname : String.ofList piece ≠ "." := fun heq => hdot (String.ofList_injective heq)
      simpa using ⟨hne, hname⟩
    · rwa [String.toList_ofList]
  · rintro ⟨name, hname, hc⟩
    obtain ⟨piece, hpiece, rfl⟩ := List.mem_map.1 (List.mem_filter.1 hname).1
    exact ⟨piece, hpiece, by rwa [String.toList_ofList] at hc⟩

theorem notMem_of_mem_components {p name : String} (h : name ∈ components p) :
    '/' ∉ name.toList :=
  Text.notMem_of_mem_split (List.mem_filter.1 h).1

/-! ### Names that are not divided -/

/-- A name that is not empty and not divided. -/
structure Whole (name : String) : Prop where
  ne_empty : name ≠ ""
  no_slash : '/' ∉ name.toList

theorem whole_points : Whole ".." := ⟨by decide, by decide⟩

theorem isAbsolute_of_whole {names : List String} (h : ∀ n ∈ names, Whole n) :
    isAbsolute (Text.join "/" names) = false := by
  rw [Bool.eq_false_iff]
  intro habs
  cases names with
  | nil => exact absurd habs (by decide)
  | cons n rest =>
    obtain ⟨tail, htail⟩ := Text.exists_of_startsWith habs
    have hsplit : Text.split '/' (Text.join "/" (n :: rest)) = n :: rest :=
      Text.split_join (by simp) fun x hx => (h x hx).no_slash
    -- a first slash would make the first name empty
    rw [htail, show "/" ++ tail = "" ++ "/" ++ tail by simp, Text.split_slash] at hsplit
    have hhead : n = "" := by
      have := congrArg List.head? hsplit
      simpa [Text.split, Text.splitList] using this.symm
    exact (h n (by simp)).ne_empty hhead

theorem join_ne_empty_of_whole {names : List String} (hne : names ≠ [])
    (h : ∀ n ∈ names, Whole n) : Text.join "/" names ≠ "" := by
  intro hempty
  have hsplit := Text.split_join hne fun n hn => (h n hn).no_slash
  rw [hempty] at hsplit
  -- the empty text has one piece, which is no name
  exact (h "" (by rw [← hsplit]; simp [Text.split, Text.splitList])).ne_empty rfl

/-! ### Proper names -/

/-- A name that stands for itself: a path is not cut short, continued or turned back
by it. -/
structure Proper (name : String) : Prop where
  ne_empty : name ≠ ""
  ne_point : name ≠ "."
  ne_points : name ≠ ".."
  no_slash : '/' ∉ name.toList

instance (name : String) : Decidable (Proper name) :=
  decidable_of_iff (name ≠ "" ∧ name ≠ "." ∧ name ≠ ".." ∧ '/' ∉ name.toList)
    ⟨fun ⟨a, b, c, d⟩ => ⟨a, b, c, d⟩, fun ⟨a, b, c, d⟩ => ⟨a, b, c, d⟩⟩

theorem Proper.whole {name : String} (h : Proper name) : Whole name := ⟨h.ne_empty, h.no_slash⟩

/-- A component other than two points is a proper name. -/
theorem proper_of_mem_components {p name : String} (h : name ∈ components p)
    (hpoints : name ≠ "..") : Proper name := by
  have hkept := (List.mem_filter.1 h).2
  simp only [Bool.and_eq_true, bne_iff_ne] at hkept
  exact ⟨hkept.1, hkept.2, hpoints, notMem_of_mem_components h⟩

variable {names : List String}

theorem components_join (h : ∀ n ∈ names, Proper n) :
    components (Text.join "/" names) = names := by
  cases names with
  | nil => rfl
  | cons n rest =>
    rw [components, Text.split_join (by simp) fun x hx => (h x hx).no_slash]
    refine List.filter_eq_self.2 fun x hx => ?_
    simp [(h x hx).ne_empty, (h x hx).ne_point]

/-- A path of proper names does not start at the root. -/
theorem isAbsolute_join (h : ∀ n ∈ names, Proper n) :
    isAbsolute (Text.join "/" names) = false :=
  isAbsolute_of_whole fun n hn => (h n hn).whole

theorem leadingSlashes_of_relative {p : String} (h : isAbsolute p = false) :
    leadingSlashes p.toList = [] := by
  have hp : ∀ rest, p.toList ≠ '/' :: rest := by
    intro rest hrest
    rw [isAbsolute, Text.startsWith, hrest] at h
    simp at h
  unfold leadingSlashes
  split
  · next heq => exact absurd heq (hp _)
  · next heq => exact absurd heq (hp _)
  · next heq => exact absurd heq (hp _)
  · rfl

theorem join_ne_empty (hne : names ≠ []) (h : ∀ n ∈ names, Proper n) :
    Text.join "/" names ≠ "" :=
  join_ne_empty_of_whole hne fun n hn => (h n hn).whole

theorem join_ne_point (hne : names ≠ []) (h : ∀ n ∈ names, Proper n) :
    Text.join "/" names ≠ "." := by
  intro heq
  have hcomponents := components_join h
  rw [heq] at hcomponents
  exact hne hcomponents.symm

/-- A path of proper names has no root. -/
theorem root_join (h : ∀ n ∈ names, Proper n) : root (Text.join "/" names) = "" := by
  rw [root, leadingSlashes_of_relative (isAbsolute_join h)]

theorem parts_join (h : ∀ n ∈ names, Proper n) : parts (Text.join "/" names) = names := by
  rw [parts, if_pos (root_join h), components_join h]

theorem tidy_join (hne : names ≠ []) (h : ∀ n ∈ names, Proper n) :
    tidy (Text.join "/" names) = Text.join "/" names := by
  simp only [tidy, root_join h, components_join h, String.empty_append]
  rw [if_neg (join_ne_empty hne h)]

theorem normalizeParts_of_proper (rooted : Bool) (h : ∀ n ∈ names, Proper n) :
    normalizeParts rooted names = names := by
  have hfold : ∀ (ns parts : List String), (∀ n ∈ ns, Proper n) →
      ns.foldl (pushPart rooted) parts = ns.reverse ++ parts := by
    intro ns
    induction ns with
    | nil => simp
    | cons n ns ih =>
      intro parts hns
      have hn := hns n (by simp)
      have hpush : pushPart rooted parts n = n :: parts := by
        simp [pushPart, hn.ne_empty, hn.ne_point, hn.ne_points]
      rw [List.foldl_cons, hpush, ih _ fun x hx => hns x (by simp [hx])]
      simp
  rw [normalizeParts, hfold names [] h]
  simp

theorem normalize_join (hne : names ≠ []) (h : ∀ n ∈ names, Proper n) :
    normalize (Text.join "/" names) = Text.join "/" names := by
  simp only [normalize, leadingSlashes_of_relative (isAbsolute_join h),
    Text.split_join hne fun x hx => (h x hx).no_slash, normalizeParts_of_proper _ h]
  rw [show String.ofList [] = "" from rfl, String.empty_append, if_neg (join_ne_empty hne h)]

end Path

namespace Project

open Path (Proper)

/-- **Spelling.** A path of proper names is the spelling under which its file is known. -/
theorem normalize_join (root : String) {names : List String} (hne : names ≠ [])
    (h : ∀ n ∈ names, Proper n) :
    normalize root (Text.join "/" names) = some (Text.join "/" names) := by
  have hcomponents := Path.components_join h
  have hpoint := Path.join_ne_point hne h
  have hup : Text.startsWith (Text.join "/" names) "../" = false := by
    rw [Bool.eq_false_iff]
    intro hstart
    obtain ⟨rest, hrest⟩ := Text.exists_of_startsWith hstart
    -- two points in front would be the first name
    rw [hrest, show "../" ++ rest = ".." ++ "/" ++ rest from rfl, Path.components_slash]
      at hcomponents
    have hmem : ".." ∈ names := by
      rw [← hcomponents]
      simp [Path.components, Text.split, Text.splitList]
    exact (h ".." hmem).ne_points rfl
  rw [normalize, if_neg (Path.join_ne_empty hne h), relative?,
    if_neg (by simp [Path.isAbsolute_join h]), Path.tidy_join hne h]
  simp only [Option.bind_some, Path.normalize_join hne h, hpoint, hup]
  simp

end Project

end RouteImpact
