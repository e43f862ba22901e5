import RouteImpact.Fact.Extractor

namespace RouteImpact

open Route.Convention (pagesRoutes pagesFrameworks)

/-!
# What the framework decides

Of the recognizers only the one for pages asks for the framework of a project, and every
route bears the name of its recognizer.  So the routes of a file under any framework can be
told from those that it has where no framework is known.

* `Route.recognizer_eq_name` — a recognizer puts its name on the routes that it finds;
* `Route.recognizeAll_congr` — frameworks that agree about pages give the same routes;
* `FileFact.under` — a fact as it is under a framework; `Extractor.factOf_under` — it is what
  is extracted there.
-/

namespace Route

variable {file : String} {r : RouteDecl}

/-! ### Routes bear the names of their recognizers -/

theorem Markup.recognizer_of_mem {t : Source.Tree} (h : r ∈ Markup.routes file t) :
    r.recognizer = "jsx" := by
  obtain ⟨site, -, hsite⟩ := List.mem_filterMap.1 h
  obtain ⟨own, -, rfl⟩ := Option.map_eq_some_iff.1 hsite
  rfl

theorem Objects.recognizer_of_mem_declared {parent : String} {object : Syntax.Node}
    (h : r ∈ Objects.declared file parent object) : r.recognizer = "object" := by
  unfold Objects.declared at h
  split at h
  · cases h
  · rw [List.mem_singleton.1 h]

/-- The routes below an object are those of its children. -/
theorem Objects.recognizer_of_mem_visit {parent : String} {object : Syntax.Node}
    (h : r ∈ (Objects.visit file parent object).1) : r.recognizer = "object" := by
  fun_induction Objects.visit file parent object with
  | case1 parent object hobject below ih =>
    rcases List.mem_append.1 h with hown | hbelow
    · exact recognizer_of_mem_declared hown
    · obtain ⟨found, hfound, hr⟩ := List.mem_flatMap.1 hbelow
      obtain ⟨⟨child, hchild⟩, -, rfl⟩ := List.mem_map.1 hfound
      exact ih child hchild hr
  | case2 parent object hobject => cases h

theorem Objects.recognizer_of_mem_visitAll {objects : List Syntax.Node} {nested : List Nat}
    (h : r ∈ Objects.visitAll file objects nested) : r.recognizer = "object" := by
  fun_induction Objects.visitAll file objects nested with
  | case1 => cases h
  | case2 object rest nested hmet ih => exact ih h
  | case3 object rest nested hmet routes more hvisit ih =>
    rcases List.mem_append.1 h with hown | hrest
    · have hown' : r ∈ (visit file "" object).1 := by
        rw [hvisit]
        exact hown
      exact recognizer_of_mem_visit hown'
    · exact ih hrest

theorem Objects.recognizer_of_mem {t : Source.Tree} (h : r ∈ Objects.routes file t) :
    r.recognizer = "object" :=
  recognizer_of_mem_visitAll h

theorem Convention.recognizer_of_mem_app (h : r ∈ Convention.appRoutes file) :
    r.recognizer = "next-app" := by
  unfold Convention.appRoutes at h
  dsimp only at h
  split at h
  · cases h
  · split at h
    · cases h
    · rw [List.mem_singleton.1 h]
      rfl

theorem Convention.recognizer_of_mem_pages {framework : String}
    (h : r ∈ pagesRoutes framework file) : r.recognizer = "next-pages" := by
  unfold pagesRoutes at h
  dsimp only at h
  split at h
  · cases h
  · split at h
    · cases h
    · split at h
      · cases h
      · rw [List.mem_singleton.1 h]
        rfl

theorem Convention.recognizer_of_mem_svelte (h : r ∈ Convention.svelteRoutes file) :
    r.recognizer = "sveltekit" := by
  unfold Convention.svelteRoutes at h
  split at h
  · cases h
  · split at h
    · cases h
    · rw [List.mem_singleton.1 h]
      rfl

/-- **Every recognizer puts its name on the routes that it finds.** -/
theorem recognizer_eq_name {recognizer : Recognizer} (hrecognizer : recognizer ∈ defaultRecognizers)
    {c : Context} (h : r ∈ (recognizer.recognize c).getD []) : r.recognizer = recognizer.name := by
  simp only [defaultRecognizers, List.mem_cons, List.not_mem_nil, or_false] at hrecognizer
  -- the first two look at the tree, and find nothing where there is none
  rcases hrecognizer with rfl | rfl | rfl | rfl | rfl
  · simp only [markupRecognizer, Option.getD_some] at h ⊢
    cases htree : c.tree with
    | none => simp [htree] at h
    | some t =>
      rw [htree, Option.elim_some] at h
      exact Markup.recognizer_of_mem h
  · simp only [objectRecognizer, Option.getD_some] at h ⊢
    cases htree : c.tree with
    | none => simp [htree] at h
    | some t =>
      rw [htree, Option.elim_some] at h
      exact Objects.recognizer_of_mem h
  · simp only [appRecognizer, Option.getD_some] at h ⊢
    exact Convention.recognizer_of_mem_app h
  · simp only [pagesRecognizer, Option.getD_some] at h ⊢
    exact Convention.recognizer_of_mem_pages h
  · simp only [svelteRecognizer, Option.getD_some] at h ⊢
    exact Convention.recognizer_of_mem_svelte h

/-- Among recognizers that do so, leaving one out leaves its routes out. -/
theorem recognizeAll_filter {rs : List Recognizer} (hrs : ∀ r ∈ rs, r ∈ defaultRecognizers)
    (c : Context) (name : String) :
    recognizeAll (rs.filter (·.name ≠ name)) c =
      (recognizeAll rs c).filter (·.recognizer ≠ name) := by
  induction rs with
  | nil => rfl
  | cons recognizer rest ih =>
    have hrest := ih fun r hr => hrs r (by simp [hr])
    have hown : ∀ r ∈ (recognizer.recognize c).getD [], r.recognizer = recognizer.name :=
      fun r hr => recognizer_eq_name (hrs recognizer (by simp)) hr
    -- the routes of one recognizer bear one name, so they stay or go together
    have hfilter : ((recognizer.recognize c).getD []).filter (·.recognizer ≠ name) =
        if recognizer.name = name then [] else (recognizer.recognize c).getD [] := by
      split
      · next hname => exact List.filter_eq_nil_iff.2 fun r hr => by simp [hown r hr, hname]
      · next hname => exact List.filter_eq_self.2 fun r hr => by simp [hown r hr, hname]
    unfold recognizeAll at hrest ⊢
    rw [List.flatMap_cons, List.filter_append, hfilter, ← hrest]
    by_cases hname : recognizer.name = name
    · rw [if_pos hname, List.filter_cons_of_neg (by simpa using hname), List.nil_append]
    · rw [if_neg hname, List.filter_cons_of_pos (by simpa using hname), List.flatMap_cons]

/-! ### Frameworks -/

variable {tree : Option Source.Tree} {framework framework' : String}

/-- Frameworks that agree about pages give the same routes. -/
theorem recognizeAll_congr (h : pagesRoutes framework' file = pagesRoutes framework file) :
    recognizeAll defaultRecognizers { file, tree, framework := framework' } =
      recognizeAll defaultRecognizers { file, tree, framework } := by
  simp only [recognizeAll, defaultRecognizers, List.flatMap_cons, List.flatMap_nil,
    markupRecognizer, objectRecognizer, appRecognizer, pagesRecognizer, svelteRecognizer, h]

theorem Convention.pagesRoutes_of_notMem (h : framework ∉ pagesFrameworks) :
    pagesRoutes framework file = [] := by
  simp [pagesRoutes, h]

theorem Convention.pagesRoutes_congr (h : framework ∈ pagesFrameworks)
    (h' : framework' ∈ pagesFrameworks) :
    pagesRoutes framework' file = pagesRoutes framework file := by
  simp [pagesRoutes, h, h']

/-- A framework without pages makes no difference but that their routes are missing. -/
theorem recognizeAll_of_notMem (h : framework ∉ pagesFrameworks) :
    recognizeAll defaultRecognizers { file, tree, framework } =
      (recognizeAll defaultRecognizers { file, tree, framework := framework' }).filter
        (·.recognizer ≠ pagesRecognizer.name) := by
  -- where pages have no routes it is as if their recognizer were left out
  have hothers : defaultRecognizers.filter (·.name ≠ pagesRecognizer.name) =
      [markupRecognizer, objectRecognizer, appRecognizer, svelteRecognizer] := rfl
  rw [← recognizeAll_filter (fun _ hr => hr), hothers]
  simp only [recognizeAll, defaultRecognizers, List.flatMap_cons, List.flatMap_nil,
    markupRecognizer, objectRecognizer, appRecognizer, pagesRecognizer, svelteRecognizer,
    Convention.pagesRoutes_of_notMem h, Option.getD_some, List.nil_append]

end Route

/-- A fact as it is under a framework: without the routes of pages, where the framework has
none. -/
def FileFact.under (fact : FileFact) (framework : String) : FileFact :=
  if framework ∈ pagesFrameworks then fact
  else { fact with routes := fact.routes.filter (·.recognizer ≠ Route.pagesRecognizer.name) }

@[simp] theorem FileFact.imports_under (fact : FileFact) (framework : String) :
    (fact.under framework).imports = fact.imports := by
  unfold under
  split <;> rfl

@[simp] theorem FileFact.none_under (file : String) (now : Moment) (framework : String) :
    (FileFact.none file now).under framework = FileFact.none file now := by
  unfold under
  split <;> rfl

namespace Extractor

variable {x : Extractor} {framework file : String}

/-- Frameworks that agree about pages do not show in a fact. -/
theorem factOf_congr (hx : x.recognizers = Route.defaultRecognizers)
    (h : pagesRoutes framework file = pagesRoutes x.framework file) (now : Moment)
    (content : String) :
    ({ x with framework } : Extractor).factOf now file content = x.factOf now file content := by
  unfold factOf isSkippable routes
  simp only [hx, Route.recognizeAll_congr h]

/-- **What is extracted under a framework** from a text can be told from what is extracted
where pages have routes. -/
theorem factOf_under (hx : x.recognizers = Route.defaultRecognizers)
    (hpages : x.framework ∈ pagesFrameworks) (framework file : String) (now : Moment)
    (content : String) :
    ({ x with framework } : Extractor).factOf now file content =
      (x.factOf now file content).under framework := by
  by_cases h : framework ∈ pagesFrameworks
  · rw [FileFact.under, if_pos h]
    exact factOf_congr hx (Route.Convention.pagesRoutes_congr hpages h) now content
  · have hskip : ({ x with framework } : Extractor).isSkippable content =
        x.isSkippable content := rfl
    unfold factOf
    rw [hskip]
    split
    · rw [FileFact.none_under]
    · unfold routes
      rw [FileFact.under, if_neg h]
      dsimp only
      rw [hx, Route.recognizeAll_of_notMem h]

end Extractor

end RouteImpact
