import RouteImpact.Proofs.Path.Normal

namespace RouteImpact

/-!
# Spellings of a file

However a path is written, the project knows its file under one spelling: the names that lead down
to it from the project's directory.  Two points are the one path that leads up and is spelled all
the same.

* `Path.components_tidy`, `Path.normalize_tidy` — tidying a relative path does not change where it
  leads;
* `Project.normalize_of_relative` — the spelling of a relative path is its normal form, unless this
  leads to the project's directory or climbs;
* `Project.exists_names_of_normalize` — a spelling is two points or goes down by proper names;
* `Project.normalize_spelling` — a spelling is its own spelling;
* `Project.normalize_below` — hence every spelling but two points lies below the project's directory
  and is its own spelling, and relative paths with one normal form have one spelling;
* `Project.normalize_points` — two points are spelled as they are, and lead above the project.
-/

namespace Path

/-! ### Tidying -/

theorem components_tidy {p : String} (h : isAbsolute p = false) :
    components (tidy p) = components p := by
  have hkept : ∀ n ∈ components p, n ≠ "" ∧ n ≠ "." := fun n hn => by
    simpa using (List.mem_filter.1 hn).2
  have htext : tidy p = ofRelative (components p) := by
    simp only [tidy, root, leadingSlashes_of_relative h]
    rw [show String.ofList [] = "" from rfl, String.empty_append]
    by_cases hnil : components p = []
    · rw [hnil]
      rfl
    · have hwhole : ∀ n ∈ components p, Whole n :=
        fun n hn => ⟨(hkept n hn).1, notMem_of_mem_components hn⟩
      rw [if_neg (join_ne_empty_of_whole hnil hwhole), ofRelative_of_ne_nil hnil]
  rw [htext]
  by_cases hnil : components p = []
  · rw [hnil]
    rfl
  · rw [ofRelative_of_ne_nil hnil]
    show (Text.split '/' (Text.join "/" (components p))).filter _ = components p
    rw [Text.split_join hnil fun n hn => notMem_of_mem_components hn]
    exact List.filter_eq_self.2 fun n hn => by simp [hkept n hn]

/-- Tidying a path does not change its normal form. -/
theorem normalize_tidy {p : String} (h : isAbsolute p = false) :
    normalize (tidy p) = normalize p := by
  rw [normalize_of_relative (isAbsolute_tidy h), normalize_of_relative h, normalizeParts_split,
    normalizeParts_split, components_tidy h]

/-- Names that go down are in normal form. -/
theorem normalize_ofRelative {names : List String} (h : ∀ n ∈ names, Proper n) :
    normalize (ofRelative names) = ofRelative names := by
  by_cases hnil : names = []
  · rw [hnil]
    decide
  · rw [ofRelative_of_ne_nil hnil, normalize_join hnil h]

end Path

namespace Project

open Path (Proper isAbsolute)

variable {root path file : String}

/-! ### What a spelling is -/

/-- The spelling of a relative path is its normal form. -/
theorem normalize_of_relative (h : isAbsolute path = false) :
    normalize root path =
      if Path.normalize path = "." ∨ Text.startsWith (Path.normalize path) "../" then none
      else some (Path.normalize path) := by
  by_cases hempty : path = ""
  · subst hempty
    rw [normalize, if_pos rfl, if_pos (Or.inl (by decide))]
  · rw [normalize, if_neg hempty, relative?, if_neg (by simp [h]), Option.bind_some]
    dsimp only
    rw [Path.normalize_tidy h]

/-- **The shape of a spelling**: two points, or proper names that go down. -/
theorem exists_names_of_normalize (h : normalize root path = some file) :
    (file = ".." ∧ isAbsolute path = false ∧ Path.normalize path = "..") ∨
      ∃ names, names ≠ [] ∧ (∀ n ∈ names, Proper n) ∧ file = Text.join "/" names := by
  cases habs : isAbsolute path with
  | false =>
    rw [normalize_of_relative habs] at h
    split at h
    · cases h
    · next hinside =>
      cases h
      rw [not_or] at hinside
      by_cases hpoints : Path.normalize path = ".."
      · exact Or.inl ⟨hpoints, rfl, hpoints⟩
      · obtain ⟨names, hnames, hfile⟩ := Path.exists_names_of_inside
          (Path.isAbsolute_normalize habs) hpoints (by simpa using hinside.2)
        have hnil : names ≠ [] := by
          rintro rfl
          exact hinside.1 hfile
        exact Or.inr ⟨names, hnil, hnames, by rw [hfile, Path.ofRelative_of_ne_nil hnil]⟩
  | true =>
    unfold normalize at h
    split at h
    · cases h
    · obtain ⟨seen, hseen, h⟩ := Option.bind_eq_some_iff.1 h
      rw [relative?, if_pos habs] at hseen
      split at hseen
      · cases hseen
      · -- what is seen below the project's directory is the end of a path from the root
        obtain ⟨names, hbelow, rfl⟩ := Option.map_eq_some_iff.1 hseen
        have hnames : ∀ n ∈ names, Proper n := by
          intro n hn
          obtain ⟨up, all, hall, hproper, hup⟩ := @Path.climbing_normalizeParts true _
            fun part hpart => Text.notMem_of_mem_split (s := Path.append "/" path) hpart
          have hmem := Path.mem_of_below? hbelow n hn
          rw [Path.resolveParts, hall, hup rfl] at hmem
          exact hproper n (by simpa using hmem)
        dsimp only at h
        rw [Path.normalize_ofRelative hnames] at h
        split at h
        · cases h
        · next hinside =>
          cases h
          rw [not_or] at hinside
          have hnil : names ≠ [] := by
            rintro rfl
            exact hinside.1 rfl
          exact Or.inr ⟨names, hnil, hnames, Path.ofRelative_of_ne_nil hnil⟩

/-- Only a path that leads to the directory above is spelled by two points. -/
theorem eq_points_iff (h : normalize root path = some file) :
    file = ".." ↔ isAbsolute path = false ∧ Path.normalize path = ".." := by
  constructor
  · rintro rfl
    rcases exists_names_of_normalize h with hup | ⟨names, -, hnames, hfile⟩
    · exact hup.2
    · -- proper names are the components of their path, and two points are none
      have hcomponents := Path.components_join hnames
      rw [← hfile, show Path.components ".." = [".."] by decide] at hcomponents
      exact absurd rfl (hnames ".." (by rw [← hcomponents]; simp)).ne_points
  · rintro ⟨hrelative, hpoints⟩
    rw [normalize_of_relative hrelative, hpoints, if_neg (by decide)] at h
    exact (Option.some.inj h).symm

/-- A spelling is its own spelling. -/
theorem normalize_spelling (h : normalize root path = some file) :
    normalize root file = some file := by
  rcases exists_names_of_normalize h with ⟨rfl, -⟩ | ⟨names, hne, hnames, rfl⟩
  · rw [normalize_of_relative (by decide), if_neg (by decide)]
    decide
  · exact normalize_join root hne hnames

/-- **Below the project's directory.**  A spelling is its own spelling.  Unless it is two points,
which only the directory above the project is spelled by, it is a relative path without empty
components and points, so that it goes down from the project's directory.  Relative paths with one
normal form have one spelling. -/
theorem normalize_below (root : String) :
    (∀ path file, normalize root path = some file →
      normalize root file = some file ∧
      (file = ".." ↔ isAbsolute path = false ∧ Path.normalize path = "..") ∧
      (file ≠ ".." →
        file ≠ "" ∧ isAbsolute file = false ∧
        (∀ part ∈ Text.split '/' file, part ≠ "" ∧ part ≠ "." ∧ part ≠ "..") ∧
        Path.components (Path.append root file) =
          Path.components root ++ Text.split '/' file)) ∧
    ∀ p q, isAbsolute p = false → isAbsolute q = false → Path.normalize p = Path.normalize q →
      normalize root p = normalize root q := by
  refine ⟨fun path file h => ?_, fun p q hp hq hsame => ?_⟩
  · have hpoints := eq_points_iff h
    have hspelling := normalize_spelling h
    rcases exists_names_of_normalize h with ⟨rfl, -⟩ | ⟨names, hne, hnames, rfl⟩
    · exact ⟨hspelling, hpoints, fun hup => absurd rfl hup⟩
    · have hrelative := Path.isAbsolute_join hnames
      have hsplit : Text.split '/' (Text.join "/" names) = names :=
        Text.split_join hne fun n hn => (hnames n hn).no_slash
      refine ⟨hspelling, hpoints, fun _ =>
        ⟨Path.join_ne_empty hne hnames, hrelative, ?_, ?_⟩⟩
      · rw [hsplit]
        exact fun part hpart =>
          ⟨(hnames part hpart).ne_empty, (hnames part hpart).ne_point, (hnames part hpart).ne_points⟩
      · rw [Path.components_append hrelative, Path.components_join hnames, hsplit]
  · rw [normalize_of_relative hp, normalize_of_relative hq, hsame]

/-- An absolute path that climbs on its way, and two relative paths to the file that it leads to. -/
theorem normalize_below_page :
    normalize "/p/web" "/p/../p/web//a/../src/x.ts" = some "src/x.ts" ∧
      Path.components (Path.append "/p/web" "src/x.ts") = ["p", "web"] ++ ["src", "x.ts"] ∧
      Path.normalize "./src/./x.ts" = Path.normalize "a/..//src/b/../x.ts" ∧
      normalize "/p/web" "./src/./x.ts" = normalize "/p/web" "a/..//src/b/../x.ts" := by
  have habsolute : normalize "/p/web" "/p/../p/web//a/../src/x.ts" = some "src/x.ts" := by
    decide +kernel
  have hsame : Path.normalize "./src/./x.ts" = Path.normalize "a/..//src/b/../x.ts" := by
    decide +kernel
  obtain ⟨hspelled, hrelative⟩ := normalize_below "/p/web"
  obtain ⟨-, -, hbelow⟩ := hspelled _ _ habsolute
  exact ⟨habsolute, (hbelow (by decide)).2.2.2, hsame, hrelative _ _ (by decide) (by decide) hsame⟩

/-- **Two points are spelled as they are**, though they lead to the directory above the project. -/
theorem normalize_points :
    normalize "/p/web" ".." = some ".." ∧ normalize "/p/web" "a/../.." = some ".." ∧
      Path.resolve "/p/web" ".." = "/p" ∧ normalize "/p/web" "../web" = none := by
  decide +kernel

end Project

end RouteImpact
