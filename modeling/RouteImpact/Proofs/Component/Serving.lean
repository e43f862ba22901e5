import RouteImpact.Proofs.Component.Preparation

namespace RouteImpact.Session

open ComponentMaps (routesWith firstName)

/-!
# Which routes of a component are found

A route file may import a file under several names.  It is asked for one of them, the first
that resolves to the file, and so the routes that render the file under that name are found,
in prepared maps and in precise mode; those under another name are passed over.

* `exists_binding_of_componentPath` — a route whose component is a file has a binding of
  that file;
* `nameIn_eq_of_first` — hence the name that is asked for, by the first such binding;
* `prepareComponents_refreshed` — a refresh of the file itself leaves the other maps;
* `reported_of_first_name` — the routes of that name are found and reported.
-/

variable {s : Session} {routeFile file : String} {m : RouteComponent}

/-- The component of a route is a file because a binding resolves to that file. -/
theorem exists_binding_of_componentPath {g : ImportGraph} {bindings : ImportMap}
    (hm : m ∈ routesWith g bindings routeFile) (hpath : m.componentPath = some file) :
    ∃ b ∈ bindings.values, b.resolvedPath = some file := by
  unfold routesWith at hm
  cases hf : g.fact? routeFile with
  | none => simp [hf] at hm
  | some fact =>
    rw [hf, Option.elim_some] at hm
    obtain ⟨r, -, rfl⟩ := List.mem_map.1 hm
    obtain ⟨b, hb, hresolved⟩ := Option.bind_eq_some_iff.1 hpath
    exact ⟨b, OrderedMap.mem_values_of_get? hb, hresolved⟩

/-- The first binding that resolves to a file decides the name that is asked for. -/
theorem nameIn_eq_of_first {name : String}
    (hsome : ∃ b ∈ (s.components.current routeFile).values, b.resolvedPath = some file)
    (hfirst : ∀ b ∈ (s.components.current routeFile).values.find? (·.resolvedPath == some file),
      b.localName = name) : s.nameIn file routeFile = some name := by
  obtain ⟨b, hb, hresolved⟩ := hsome
  have hfound : ((s.components.current routeFile).values.find?
      (·.resolvedPath == some file)).isSome = true := by
    rw [List.find?_isSome]
    exact ⟨b, hb, by simp [hresolved]⟩
  obtain ⟨first, hfirst'⟩ := Option.isSome_iff_exists.1 hfound
  rw [nameIn, Component.localName?, hfirst']
  exact congrArg some (hfirst first hfirst')

/-- After a refresh of one file no other map has to be made. -/
theorem eq_of_isStale_refreshed (hprepared : s.Prepared) {fact? : Option FileFact} {x : String}
    (hx : x ∈ (s.refreshed file fact?).graph.routeFiles)
    (hstale : (s.refreshed file fact?).components.isStale
      (s.refreshed file fact?).graph x = true) : x = file := by
  by_contra hne
  have hold := hprepared x ((mem_routeFiles_refreshed (Ne.symm hne)).1 hx)
  rw [isStale_refreshed_of_ne (Ne.symm hne), hold] at hstale
  cases hstale

/-- Preparing after a refresh of one file leaves what the other route files render. -/
theorem prepareComponents_refreshed (hprepared : s.Prepared) {fact : FileFact}
    (hfact : s.freshFact? file = .ok (some fact)) :
    ∃ t, (s.refreshed file (some fact)).prepareComponents = (.ok (), t) ∧
      t.normalize = s.normalize ∧
      ∀ x ∈ s.graph.routeFiles, x ≠ file →
        x ∈ t.graph.routeFiles ∧ t.servedBy file x = s.servedBy file x := by
  have hremembers := remembers_refreshed s file (some fact)
  -- the fact of the file itself has just been extracted
  have hhash : ((s.refreshed file (some fact)).heldFact file).contentHash =
      ((s.refreshed file (some fact)).factNow file).contentHash := by
    rw [heldFact_of_some (fact?_refreshed_self s file fact), hremembers.factNow,
      freshFact?_eq_some hfact]
  have hmake : (s.refreshed file (some fact)).Preparable := by
    intro x hx hstale
    rw [eq_of_isStale_refreshed hprepared hx hstale]
    exact mappable_of_freshFact? hremembers hfact
  have hhashes : ∀ x ∈ (s.refreshed file (some fact)).graph.routeFiles,
      (s.refreshed file (some fact)).components.isStale
        (s.refreshed file (some fact)).graph x = true →
      ((s.refreshed file (some fact)).heldFact x).contentHash =
        ((s.refreshed file (some fact)).factNow x).contentHash := by
    intro x hx hstale
    rw [eq_of_isStale_refreshed hprepared hx hstale]
    exact hhash
  obtain ⟨t, hprepare⟩ := prepareComponents_of_contentHash hhashes hmake
  obtain ⟨hframe, hmaps⟩ := of_prepareComponents_of_contentHash hhashes hprepare
  have hgraph : t.graph = (s.refreshed file (some fact)).graph := by rw [hframe]
  refine ⟨t, hprepare, by rw [hframe]; rfl, fun x hx hne => ⟨?_, ?_⟩⟩
  · rw [hgraph]
    exact (mem_routeFiles_refreshed hne.symm).2 hx
  · refine servedBy_congr (by rw [hframe]; rfl) ?_ ?_
    · rw [hgraph]
      exact fact?_refreshed_of_ne hne.symm
    · rw [hmaps x, if_neg fun h => hne (eq_of_isStale_refreshed hprepared h.1 h.2),
        get?_components_refreshed_of_ne hne.symm]

/-- **Routes of the first name are found.** In prepared maps, take a route whose component
is a file because its name is bound to that file.  If no import before the one that binds
the name resolves to the file, then the route is among those that render the file, and it
is reported for the file in precise mode, however the file has changed in the meantime
unless it is the route file itself, as long as the file can be refreshed. -/
theorem reported_of_first_name (hinit : s.initialized = true) (hprepared : s.Prepared)
    (hroute : routeFile ∈ s.graph.routeFiles) {mapped : Mapped (List RouteComponent)}
    (hmapped : s.components.mapRouteFile s.componentSource routeFile = .ok mapped)
    (hm : m ∈ mapped.value) (hpath : m.componentPath = some file)
    (hfirst : ∀ b ∈ (s.components.current routeFile).values.find? (·.resolvedPath == some file),
      b.localName = firstName m.componentName)
    {path : String} (hnormal : s.normalize path = some file) :
    (∃ found t, s.routesServing path = (.ok found, t) ∧
      ⟨m.routePath, componentLabel (firstName m.componentName) file, routeFile, m.line⟩ ∈
        found) ∧
    (s.Refreshable file →
      (routeFile = file → s.freshFact? file = .ok none) →
      ∃ found t, s.detectRoutes [path] true = (.ok found, t) ∧
        m.routePath ∈ (found.get? path).getD []) := by
  have hwith : m ∈ routesWith s.graph (s.components.current routeFile) routeFile := by
    have hfresh : s.components.mapRouteFile s.componentSource routeFile = _ :=
      ComponentMaps.mapRouteFile_of_fresh (hprepared routeFile hroute)
    rw [hfresh] at hmapped
    cases hmapped
    exact hm
  have hname := nameIn_eq_of_first (exists_binding_of_componentPath hwith hpath) hfirst
  have hserved : ⟨m.routePath, componentLabel (firstName m.componentName) file, routeFile,
      m.line⟩ ∈ s.servedBy file routeFile :=
    mem_servedBy.2 ⟨_, hname, m, hwith, rfl, rfl⟩
  have hall : ⟨m.routePath, componentLabel (firstName m.componentName) file, routeFile,
      m.line⟩ ∈ s.served file := List.mem_flatMap.2 ⟨routeFile, hroute, hserved⟩
  refine ⟨⟨s.served file, s, ?_, hall⟩, fun hrefreshable hkept => ?_⟩
  · unfold routesServing ensureInitialized
    rw [if_pos hinit]
    simp only [Outcome.andThen, hnormal, prepareComponents_of_prepared hprepared]
    exact serving_of_prepared hprepared file
  · obtain ⟨fact?, hfact⟩ := exists_freshFact?.2 hrefreshable
    obtain ⟨changed, hrefresh⟩ := refresh_one hinit hnormal hfact
    -- precise mode refreshes the file before it asks
    cases fact? with
    | none =>
      obtain ⟨found, t, hfound, hroutes⟩ := detectRoutes_precise_one hrefresh
        (prepareComponents_of_prepared hprepared) hnormal
      refine ⟨found, t, hfound, ?_⟩
      rw [hroutes]
      exact mem_preciseRoutes_of_served hall
    | some fact =>
      -- the file has changed, so it is not the route file, whose map is kept
      have hne : routeFile ≠ file := by
        intro heq
        rw [hkept heq] at hfact
        cases hfact
      obtain ⟨u, hprepare, hsame, hothers⟩ := prepareComponents_refreshed hprepared hfact
      have hnormal' : u.normalize path = some file := by rw [hsame, hnormal]
      obtain ⟨found, t, hfound, hroutes⟩ := detectRoutes_precise_one hrefresh hprepare hnormal'
      obtain ⟨hroute', hservedBy⟩ := hothers routeFile hroute hne
      have hall' : ⟨m.routePath, componentLabel (firstName m.componentName) file, routeFile,
          m.line⟩ ∈ u.served file :=
        List.mem_flatMap.2 ⟨routeFile, hroute', by rw [hservedBy]; exact hserved⟩
      refine ⟨found, t, hfound, ?_⟩
      rw [hroutes]
      exact mem_preciseRoutes_of_served hall'

/-! ### A file under two names -/

/-- What is known of a route file with two routes, of which each renders one name. -/
def twoNamesFact : FileFact where
  path := "r.js"
  imports := [{ source := some "x.js", line := 1, specifier := "./x" }]
  routes := [⟨"/a", "A", "r.js", 2, "object"⟩, ⟨"/b", "B", "r.js", 3, "object"⟩]
  contentHash := "h"
  lastSeenAt := Number.Binary64.zero

/-- Both names are imported from one file. -/
def twoNamesMap : ImportMap := OrderedMap.ofList
  [("A", ⟨"A", "./x", some "x.js", "default", "default", 1⟩),
   ("B", ⟨"B", "./x", some "x.js", "named", "B", 1⟩)]

/-- A session that knows the route file and its names. -/
def twoNamesSession : Session where
  root := "/p"
  config := plainConfig
  host := { store := .memory OrderedMap.empty, disk := Disk.empty }
  now := Number.Binary64.zero
  graph := ({} : ImportGraph).upsert "r.js" twoNamesFact
  components := ⟨OrderedMap.ofList [("r.js", ("h", twoNamesMap))]⟩
  initialized := true

/-- The route of the first name is found and reported. -/
theorem reported_of_first_name_twoNamesSession :
    (∃ found t, twoNamesSession.routesServing "x.js" = (.ok found, t) ∧
      ⟨"/a", componentLabel (firstName "A") "x.js", "r.js", 2⟩ ∈ found) ∧
    ∃ found t, twoNamesSession.detectRoutes ["x.js"] true = (.ok found, t) ∧
      "/a" ∈ (found.get? "x.js").getD [] := by
  have hprepared : twoNamesSession.Prepared := by decide +kernel
  have hroute : "r.js" ∈ twoNamesSession.graph.routeFiles := by decide +kernel
  have hmapped : twoNamesSession.components.mapRouteFile twoNamesSession.componentSource "r.js" =
      .ok _ := ComponentMaps.mapRouteFile_of_fresh (hprepared "r.js" hroute)
  have hm : (⟨"/a", "A", some "x.js", 2⟩ : RouteComponent) ∈
      routesWith twoNamesSession.graph (twoNamesSession.components.current "r.js") "r.js" := by
    decide
  have hfirst : ∀ b ∈ (twoNamesSession.components.current "r.js").values.find?
      (·.resolvedPath == some "x.js"), b.localName = firstName "A" := by
    decide
  have hnormal : twoNamesSession.normalize "x.js" = some "x.js" := by decide
  obtain ⟨hserving, hdetect⟩ :=
    reported_of_first_name rfl hprepared hroute hmapped hm rfl hfirst hnormal
  -- there is no file, so it has no text with imports
  have hrefreshable : twoNamesSession.Refreshable "x.js" :=
    refreshable_of_extractable (by decide) (extractable_of_loadNow (by decide))
  exact ⟨hserving, hdetect hrefreshable fun h => absurd h (by decide)⟩

/-- The route of the second name is passed over, though its component is the same file. -/
theorem routesServing_twoNamesSession :
    twoNamesSession.Prepared ∧
      (twoNamesSession.components.mapRouteFile twoNamesSession.componentSource
        "r.js").toOption.map (·.value) =
          some [⟨"/a", "A", some "x.js", 2⟩, ⟨"/b", "B", some "x.js", 3⟩] ∧
      (twoNamesSession.routesServing "x.js").1.toOption =
        some [⟨"/a", "A (x)", "r.js", 2⟩] := by
  refine ⟨?_, ?_, ?_⟩ <;> decide +kernel

end RouteImpact.Session
