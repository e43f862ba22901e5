import RouteImpact.Proofs.Data.Containers
import RouteImpact.Proofs.Disk.Sound

namespace RouteImpact.Project

open Ignore (shouldIgnore PatternError compileAll)

/-!
# Which files a project has

Whether discovery takes a file is decided by the file's path alone, once a file is there.

* `Admitted` — a path that discovery takes when it leads to a file;
* `mem_discover` — on a sound disk discovery finds exactly the admitted paths at which a
  file stands;
* `discover_ok` — a project with one admitted path can be searched whatever else it holds, for
  then its patterns have a meaning (`discover_of_tested`).
-/

/-- A path in normal form of a source file that the patterns leave in. -/
structure Admitted (patterns : List String) (file : String) : Prop where
  ne_nil : Path.components file ≠ []
  inside : ∀ name ∈ Path.components file, name ≠ ".."
  spelled : Text.join "/" (Path.components file) = file
  supported : Source.isSupported (Path.lastName file) = true
  survives : survives patterns [] (Path.components file) = .ok true

/-- The place of a file of the project. -/
def placeOf (root file : String) : Disk.Place := Path.components root ++ Path.components file

namespace Admitted

variable {patterns : List String} {file : String}

theorem proper (h : Admitted patterns file) :
    ∀ name ∈ Path.components file, Path.Proper name :=
  fun name hname => Path.proper_of_mem_components hname (h.inside name hname)

/-- An admitted path is the spelling of its file. -/
theorem normalize (h : Admitted patterns file) (root : String) :
    normalize root file = some file := by
  have hjoin := normalize_join root h.ne_nil h.proper
  rwa [h.spelled] at hjoin

theorem components_append (h : Admitted patterns file) (root : String) :
    Path.components (Path.append root file) = placeOf root file := by
  have hrelative := Path.isAbsolute_join h.proper
  rw [h.spelled] at hrelative
  exact Path.components_append hrelative

end Admitted

theorem Admitted.placeOf_ne_nil {patterns : List String} {file : String}
    (h : Admitted patterns file) (root : String) : placeOf root file ≠ [] := by
  simp [placeOf, h.ne_nil]

/-- Two admitted paths that lead to one place are the same. -/
theorem Admitted.eq_of_placeOf {patterns : List String} {file other : String}
    (h : Admitted patterns file) (hother : Admitted patterns other) {root : String}
    (heq : placeOf root file = placeOf root other) : file = other := by
  rw [← h.spelled, ← hother.spelled, List.append_cancel_left heq]

section Join

variable {patterns : List String} {names : Disk.Place}

/-- A path of proper names is admitted for its last name, and for what its names survive. -/
theorem admitted_join_iff (hproper : ∀ n ∈ names, Path.Proper n) :
    Admitted patterns (Text.join "/" names) ↔
      names ≠ [] ∧ Source.isSupported (names.getLast?.getD "") = true ∧
        Project.survives patterns [] names = .ok true := by
  have hcomponents := Path.components_join hproper
  constructor
  · rintro ⟨hne, -, -, hsupported, hsurvives⟩
    rw [hcomponents] at hne hsurvives
    rw [Path.lastName, hcomponents] at hsupported
    exact ⟨hne, hsupported, hsurvives⟩
  · rintro ⟨hne, hsupported, hsurvives⟩
    refine ⟨by rwa [hcomponents], ?_, by rw [hcomponents], ?_, by rwa [hcomponents]⟩
    · rw [hcomponents]
      exact fun n hn => (hproper n hn).ne_points
    · rw [Path.lastName, hcomponents]
      exact hsupported

theorem placeOf_join (root : String) (hproper : ∀ n ∈ names, Path.Proper n) :
    placeOf root (Text.join "/" names) = Path.components root ++ names := by
  rw [placeOf, Path.components_join hproper]

end Join

/-! ### Keeping and testing -/

theorem mem_filterAuxM {ε α : Type} {p : α → Except ε Bool} {xs kept found : List α}
    (h : xs.filterAuxM p kept = .ok found) (x : α) :
    x ∈ found ↔ (x ∈ xs ∧ p x = .ok true) ∨ x ∈ kept := by
  induction xs generalizing kept with
  | nil =>
    cases h
    simp
  | cons y ys ih =>
    obtain ⟨b, hb, h⟩ := bind_eq_ok.1 h
    rw [ih h]
    -- the element at hand is put before those kept so far, or left out
    cases b with
    | true =>
      simp only [cond_true, List.mem_cons]
      constructor
      · rintro (hx | rfl | hx)
        · exact Or.inl ⟨Or.inr hx.1, hx.2⟩
        · exact Or.inl ⟨Or.inl rfl, hb⟩
        · exact Or.inr hx
      · rintro (⟨rfl | hx, hp⟩ | hx)
        · exact Or.inr (Or.inl rfl)
        · exact Or.inl ⟨hx, hp⟩
        · exact Or.inr (Or.inr hx)
    | false =>
      simp only [cond_false, List.mem_cons]
      constructor
      · rintro (hx | hx)
        · exact Or.inl ⟨Or.inr hx.1, hx.2⟩
        · exact Or.inr hx
      · rintro (⟨rfl | hx, hp⟩ | hx)
        · rw [hb] at hp
          cases hp
        · exact Or.inl ⟨hx, hp⟩
        · exact Or.inr hx

/-- A test that can fail keeps exactly the elements that pass it. -/
theorem mem_filterM {ε α : Type} {p : α → Except ε Bool} {xs found : List α}
    (h : xs.filterM p = .ok found) (x : α) : x ∈ found ↔ x ∈ xs ∧ p x = .ok true := by
  obtain ⟨kept, hkept, h⟩ := bind_eq_ok.1 h
  cases h
  rw [List.mem_reverse, mem_filterAuxM hkept]
  simp

theorem filterM_ok {ε α : Type} {p : α → Except ε Bool} (h : ∀ x, ∃ b, p x = .ok b)
    (xs : List α) : ∃ found, xs.filterM p = .ok found := by
  have haux : ∀ kept, ∃ found, xs.filterAuxM p kept = .ok found := by
    induction xs with
    | nil => exact fun kept => ⟨kept, rfl⟩
    | cons x xs ih =>
      intro kept
      obtain ⟨b, hb⟩ := h x
      obtain ⟨found, hfound⟩ := ih (cond b (x :: kept) kept)
      exact ⟨found, bind_eq_ok.2 ⟨b, hb, hfound⟩⟩
  obtain ⟨found, hfound⟩ := haux []
  exact ⟨found.reverse, bind_eq_ok.2 ⟨found, hfound, rfl⟩⟩

theorem mapM_ok {ε α β : Type} {f : α → Except ε β} (h : ∀ x, ∃ b, f x = .ok b)
    (xs : List α) : ∃ found, xs.mapM f = .ok found := by
  induction xs with
  | nil => exact ⟨[], rfl⟩
  | cons x xs ih =>
    obtain ⟨b, hb⟩ := h x
    obtain ⟨bs, hbs⟩ := ih
    exact ⟨b :: bs, by rw [List.mapM_cons, hb, hbs]; rfl⟩

/-! ### Places below a directory -/

theorem below?_eq_some_iff {dir place names : List String} :
    Path.below? dir place = some names ↔ place = dir ++ names := by
  induction dir generalizing place with
  | nil => simp [Path.below?]
  | cons d dir ih =>
    cases place with
    | nil => simp [Path.below?]
    | cons part parts =>
      by_cases hd : d = part
      · subst hd
        simp [Path.below?, ih]
      · simp [Path.below?, hd, Ne.symm hd]

theorem mem_filesBelow {d : Disk} (h : d.Sound) {dir names : Disk.Place} :
    names ∈ d.filesBelow dir ↔ names ≠ [] ∧ (d.bytes? (dir ++ names)).isSome = true := by
  rw [Disk.filesBelow, Disk.placesBelow, List.mem_filterMap, Option.isSome_iff_exists]
  constructor
  · rintro ⟨⟨place, e⟩, hmem, hbelow⟩
    cases e with
    | directory => simp [Disk.Entry.isFile] at hbelow
    | file bytes =>
      simp only [Disk.Entry.isFile, if_true, Option.filter_eq_some_iff,
        below?_eq_some_iff] at hbelow
      obtain ⟨rfl, hne⟩ := hbelow
      exact ⟨by simpa using hne, bytes, Disk.bytes?_eq_some_iff.2 (h.at?_of_mem hmem)⟩
  · rintro ⟨hne, bytes, hbytes⟩
    have hat := Disk.bytes?_eq_some_iff.1 hbytes
    refine ⟨(dir ++ names, .file bytes), Disk.mem_entries_of_at? (by simp [hne]) hat, ?_⟩
    simp [Disk.Entry.isFile, Option.filter_eq_some_iff, below?_eq_some_iff, hne]

/-! ### Discovery -/

theorem of_discover {d : Disk} {root : String} {patterns files : List String}
    (h : discover d root patterns = .ok files) :
    ∃ kept, ((d.filesBelow (Path.components root)).filter fun names =>
        Source.isSupported (names.getLast?.getD "")).filterM (survives patterns []) = .ok kept ∧
      files = Text.sort (kept.map (Text.join "/")) := by
  unfold discover ofPattern at h
  split at h
  · next found hfound =>
    cases h
    obtain ⟨_, _, hfound⟩ := bind_eq_ok.1 hfound
    obtain ⟨kept, hkept, hfound⟩ := bind_eq_ok.1 hfound
    cases hfound
    exact ⟨kept, hkept, rfl⟩
  · cases h

/-- **What is discovered.** On a sound disk, discovery finds the admitted paths at which a
file stands. -/
theorem mem_discover {d : Disk} (hd : d.Sound) {root : String} {patterns files : List String}
    (h : discover d root patterns = .ok files) (file : String) :
    file ∈ files ↔
      Admitted patterns file ∧ (d.bytes? (placeOf root file)).isSome = true := by
  obtain ⟨kept, hkept, rfl⟩ := of_discover h
  rw [Text.sort, List.mem_mergeSort, List.mem_map]
  constructor
  · rintro ⟨names, hnames, rfl⟩
    obtain ⟨hsource, hsurvives⟩ := (mem_filterM hkept names).1 hnames
    obtain ⟨hbelow, hsupported⟩ := List.mem_filter.1 hsource
    obtain ⟨hne, hfile⟩ := (mem_filesBelow hd).1 hbelow
    -- the names on a sound disk are proper, so the path has them as its components
    obtain ⟨bytes, hbytes⟩ := Option.isSome_iff_exists.1 hfile
    have hnameable := hd.nameable (Disk.bytes?_eq_some_iff.1 hbytes)
    have hproper : ∀ n ∈ names, Path.Proper n := fun n hn =>
      (hnameable n (List.mem_append_right _ hn)).proper
    refine ⟨(admitted_join_iff hproper).2 ⟨hne, hsupported, hsurvives⟩, ?_⟩
    rw [placeOf_join root hproper]
    exact hfile
  · rintro ⟨hadmitted, hfile⟩
    refine ⟨Path.components file, (mem_filterM hkept _).2 ⟨List.mem_filter.2 ⟨?_, ?_⟩, ?_⟩,
      hadmitted.spelled⟩
    · exact (mem_filesBelow hd).2 ⟨hadmitted.ne_nil, hfile⟩
    · exact hadmitted.supported
    · exact hadmitted.survives

/-! ### Patterns that have a meaning -/

/-- Patterns that leave a path in can be asked about every path. -/
theorem shouldIgnore_ok {patterns : List String} {path : String}
    (h : shouldIgnore patterns path = .ok false) (p : String) :
    ∃ b, shouldIgnore patterns p = .ok b := by
  unfold shouldIgnore at h ⊢
  split at h
  · cases h
  · split at h
    · split
      · exact ⟨true, rfl⟩
      · exact ⟨false, rfl⟩
    · obtain ⟨compiled, hcompiled, -⟩ := bind_eq_ok.1 h
      split
      · exact ⟨true, rfl⟩
      · exact ⟨_, bind_eq_ok.2 ⟨compiled, hcompiled, rfl⟩⟩

theorem survives_cons {patterns : List String} {above rest : List String} {name : String}
    {b : Bool} : survives patterns above (name :: rest) = .ok b ↔
      (shouldIgnore patterns (Text.join "/" (above ++ [name])) = .ok true ∧ b = false) ∨
        (shouldIgnore patterns (Text.join "/" (above ++ [name])) = .ok false ∧
          survives patterns (above ++ [name]) rest = .ok b) := by
  rw [survives, bind_eq_ok]
  constructor
  · rintro ⟨ignored, hignored, h⟩
    cases ignored with
    | true =>
      cases h
      exact Or.inl ⟨hignored, rfl⟩
    | false => exact Or.inr ⟨hignored, h⟩
  · rintro (⟨hignored, rfl⟩ | ⟨hignored, h⟩)
    · exact ⟨true, hignored, rfl⟩
    · exact ⟨false, hignored, h⟩

theorem survives_ok {patterns : List String} (h : ∀ p, ∃ b, shouldIgnore patterns p = .ok b)
    (above names : List String) : ∃ b, survives patterns above names = .ok b := by
  induction names generalizing above with
  | nil => exact ⟨true, rfl⟩
  | cons name rest ih =>
    obtain ⟨ignored, hignored⟩ := h (Text.join "/" (above ++ [name]))
    cases ignored with
    | true => exact ⟨false, survives_cons.2 (Or.inl ⟨hignored, rfl⟩)⟩
    | false =>
      obtain ⟨b, hb⟩ := ih (above ++ [name])
      exact ⟨b, survives_cons.2 (Or.inr ⟨hignored, hb⟩)⟩

/-- With patterns that have a meaning, discovery ends well on every disk. -/
theorem discover_of_tested {patterns : List String}
    (htested : ∀ p, ∃ b, shouldIgnore patterns p = .ok b) (d : Disk) (root : String) :
    ∃ files, discover d root patterns = .ok files := by
  obtain ⟨tested, hdirectories⟩ := mapM_ok (survives_ok htested [])
    (d.directoriesBelow (Path.components root))
  obtain ⟨kept, hkept⟩ := filterM_ok (survives_ok htested [])
    ((d.filesBelow (Path.components root)).filter fun names =>
      Source.isSupported (names.getLast?.getD ""))
  refine ⟨Text.sort (kept.map (Text.join "/")), ?_⟩
  rw [discover]
  simp only [hdirectories, hkept, bind, Except.bind]
  rfl

/-- Patterns that admit one path have a meaning. -/
theorem discover_ok {patterns : List String} {file : String} (h : Admitted patterns file)
    (d : Disk) (root : String) : ∃ files, discover d root patterns = .ok files := by
  apply discover_of_tested
  have hsurvives := h.survives
  cases hnames : Path.components file with
  | nil => exact absurd hnames h.ne_nil
  | cons name rest =>
    rw [hnames, survives_cons] at hsurvives
    rcases hsurvives with ⟨-, hfalse⟩ | ⟨hname, -⟩
    · cases hfalse
    · exact shouldIgnore_ok hname

end RouteImpact.Project
