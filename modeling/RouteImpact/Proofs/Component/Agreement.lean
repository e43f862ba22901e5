import RouteImpact.Proofs.Component.Narrowing
import RouteImpact.Proofs.Component.Serving
import RouteImpact.Proofs.Graph.History

namespace RouteImpact.ComponentMaps

open ImportGraph (History)

/-!
# Components and the graph agree

The component of a route is a file because a name of the route file is bound to that file; a
route is affected by a file because the graph leads from the file back to the route file.  The
names and the imports of the graph are collected from one text by different walks, and the graph
may hold the traces of many older texts.  Still, whatever the first way finds the second finds
too.

* `LoadedFrom` — the map of a file is that of a given text, whether it is there or is yet to be
  made;
* `mapRouteFile_of_loadedFrom` — then its routes get the names of that text;
* `mem_resolvedImports_of_bindingsFor` — a name that resolves to a file is an import of the fact;
* `bindings_agree_with_graph` — hence every component is imported, and its routes are affected
  by it.
-/

variable {m m' : ComponentMaps} {src : ComponentSource} {file text : String}

/-! ### Maps of a text -/

/-- The map of a file has been made from a text, or it has to be made and this is the text that
will be read. -/
def LoadedFrom (m : ComponentMaps) (src : ComponentSource) (file text : String) : Prop :=
  m.maps.get? file = some (factHash src.graph file, bindingsFor src file (some text)) ∨
    m.isStale src.graph file = true ∧ src.read file = .ok (some text)

theorem loadedFrom_of_load (h : m.load src file (some text) = .ok m') :
    m'.LoadedFrom src file text := by
  obtain ⟨-, rfl⟩ := load_eq_ok.1 h
  apply Or.inl
  rw [get?_loaded, if_pos rfl]

theorem importMap_of_loadedFrom (h : m.LoadedFrom src file text)
    (hmake : Makeable src file (some text)) :
    ∃ found, m.importMap src file = .ok found ∧
      found.value = bindingsFor src file (some text) := by
  rcases h with hget | ⟨hstale, hread⟩
  · exact ⟨_, importMap_of_fresh (isStale_of_get? hget), current_of_get? hget⟩
  · have hget : (m.loaded src file (some text)).maps.get? file = _ := get?_loaded (some text) file
    rw [if_pos rfl] at hget
    have hload : m.load src file (some text) = .ok (m.loaded src file (some text)) :=
      load_eq_ok.2 ⟨hmake, rfl⟩
    rw [importMap, if_pos hstale, hread]
    dsimp only
    rw [hload]
    exact ⟨_, rfl, current_of_get? hget⟩

theorem mapRouteFile_of_loadedFrom (h : m.LoadedFrom src file text)
    (hmake : Makeable src file (some text)) :
    ∃ found, m.mapRouteFile src file = .ok found ∧
      found.value = routesWith src.graph (bindingsFor src file (some text)) file := by
  obtain ⟨asked, hasked, hvalue⟩ := importMap_of_loadedFrom h hmake
  unfold mapRouteFile routesWith
  cases src.graph.fact? file with
  | none => exact ⟨_, rfl, rfl⟩
  | some fact =>
    rw [Option.elim_some, ← hvalue]
    dsimp only
    split
    · next hroutes =>
      refine ⟨_, rfl, ?_⟩
      rw [List.isEmpty_iff.1 hroutes]
      rfl
    · rw [hasked]
      exact ⟨_, rfl, rfl⟩

/-! ### Names and imports -/

section Extracted

variable {now : Moment} {fact : FileFact}
  (hextract : src.extractor.extract now file text = .ok fact)
  (hfact : src.graph.fact? file = some fact)

include hextract hfact

/-- A text that was skipped has left no hash. -/
theorem isSkippable_of_factHash (hhash : factHash src.graph file ≠ "") :
    src.extractor.isSkippable text = false := by
  obtain ⟨-, rfl⟩ := Extractor.extract_eq_ok.1 hextract
  by_contra hskipped
  apply hhash
  rw [factHash, hfact, Option.elim_some, Extractor.factOf, if_pos (by simpa using hskipped)]
  rfl

/-- The text that a fact was extracted from has a map. -/
theorem makeable_of_extract : Makeable src file (some text) := by
  rintro _ ⟨⟩ hhash -
  exact ImportMap.resolves_of_extract hextract (isSkippable_of_factHash hextract hfact hhash)

/-- **A name of a text that resolves to a file is an import of the fact of the text.** -/
theorem mem_resolvedImports_of_bindingsFor {b : ImportBinding}
    (hb : b ∈ (bindingsFor src file (some text)).values) {target : String}
    (htarget : b.resolvedPath = some target) : target ∈ fact.resolvedImports := by
  unfold bindingsFor at hb
  dsimp only at hb
  split at hb
  · next hversion =>
    have hskip := isSkippable_of_factHash hextract hfact hversion.1
    obtain ⟨-, rfl⟩ := Extractor.extract_eq_ok.1 hextract
    exact ImportMap.mem_resolvedImports_factOf hskip now hb htarget
  · cases hb

end Extracted

/-- A route that gets a component is one of the file's fact. -/
theorem mem_routePaths_of_mem_routesWith {g : ImportGraph} {bindings : ImportMap}
    {fact : FileFact} (hfact : g.fact? file = some fact) {r : RouteComponent}
    (hr : r ∈ routesWith g bindings file) : r.routePath ∈ fact.routePaths := by
  rw [routesWith, hfact, Option.elim_some] at hr
  obtain ⟨route, hroute, rfl⟩ := List.mem_map.1 hr
  exact List.mem_map.2 ⟨route, hroute, rfl⟩

/-- **Components agree with the graph.**  Let a graph have got its facts one after the other,
the last one of a route file extracted from a text, and let the map of the route file be loaded
from the same text.  Then every name that is bound in the tree of the text has an import with the
same specifier that resolves to the same file; the routes of the file are answered; and where one
of them has a file for its component, the fact imports that file, and the route is among those
that the file affects when no depth limit is set. -/
theorem bindings_agree_with_graph {src : ComponentSource} {prune : Bool} {h : History}
    (hgraph : src.graph = h.graph prune) {now : Moment} {file text : String} {fact : FileFact}
    (hextract : src.extractor.extract now file text = .ok fact) (hlast : h.last? file = some fact)
    {m : ComponentMaps} (hloaded : m.LoadedFrom src file text) :
    (∀ tree, Extractor.parse file text = some tree →
      ∀ b ∈ (ImportMap.collect src.extractor.resolver file tree).values,
        ∃ e ∈ Extractor.imports src.extractor.resolver file tree,
          e.specifier = b.specifier ∧ e.source = b.resolvedPath) ∧
    ∃ found, m.mapRouteFile src file = .ok found ∧
      ∀ r ∈ found.value, ∀ target, r.componentPath = some target →
        target ∈ fact.resolvedImports ∧
          ∀ c, ImpactCache.Coherent src.graph none c →
            r.routePath ∈ (c.impactOf src.graph none target).1 := by
  refine ⟨fun tree htree b hb => ImportMap.exists_import_of_mem_values htree hb, ?_⟩
  have hfact : src.graph.fact? file = some fact := by
    rw [hgraph, ImportGraph.fact?_graph, hlast]
  have hreflects : src.graph.Reflects := by
    rw [hgraph]
    exact ImportGraph.reflects_graph prune h
  have hconsistent : src.graph.Consistent := by
    rw [hgraph]
    exact ImportGraph.consistent_run prune _
  obtain ⟨found, hfound, hvalue⟩ := mapRouteFile_of_loadedFrom hloaded
    (makeable_of_extract hextract hfact)
  refine ⟨found, hfound, fun r hr target htarget => ?_⟩
  rw [hvalue] at hr
  obtain ⟨b, hb, hresolved⟩ := Session.exists_binding_of_componentPath hr htarget
  have himport := mem_resolvedImports_of_bindingsFor hextract hfact hb hresolved
  refine ⟨himport, fun c hc => ?_⟩
  -- from the component back to the route file, which declares the route
  have hreach := Impact.reaches_of_resolvedImport hreflects hconsistent hfact himport
  have hdeclares : Impact.Declares src.graph file r.routePath :=
    (Impact.declares_iff_of_reflects hreflects).2
      ⟨_, hfact, mem_routePaths_of_mem_routesWith hfact hr⟩
  rw [hc.fst_impactOf, Impact.fst_impactOf_empty]
  exact (Impact.mem_routes_searchFrom _ _ _).2 ⟨file, hreach, hdeclares⟩

/-! ### A route file that has changed -/

theorem exists_ok_of_bind {ε α β : Type} {r : Except ε α} {f : α → Option β} {b : β}
    (h : r.toOption.bind f = some b) : ∃ a, r = .ok a ∧ f a = some b := by
  cases r with
  | error e => cases h
  | ok a => exact ⟨a, rfl, h⟩

/-- A route file that said nothing at first, and then came to render a page. -/
def changedPage : History :=
  ["", Session.pageText].map fun text =>
    ("r.js", Session.pageStart.extractor.factOf Number.Binary64.zero "r.js" text)

/-- What its components are made from. -/
def changedPageSource : ComponentSource :=
  ⟨changedPage.graph true, Session.pageStart.extractor, [], fun _ => .ok none⟩

/-- Its map, loaded from its last text. -/
def changedPageMaps : Except Failure ComponentMaps :=
  empty.load changedPageSource "r.js" (some Session.pageText)

/-- The fact of the text and its map can be made, and the map names the page. -/
theorem mapRouteFile_changedPage :
    (changedPageSource.extractor.extract Number.Binary64.zero "r.js"
        Session.pageText).toOption.isSome = true ∧
      (changedPageMaps.toOption.bind fun m =>
        (m.mapRouteFile changedPageSource "r.js").toOption.map (·.value)) =
          some [⟨"/", "A", some "x.js", 1⟩] := by
  decide +kernel

/-- The page is the component of the route, and the route is affected by the page. -/
theorem bindings_agree_with_graph_changedPage :
    ∃ m found, changedPageMaps = .ok m ∧ m.mapRouteFile changedPageSource "r.js" = .ok found ∧
      found.value = [⟨"/", "A", some "x.js", 1⟩] ∧
      "/" ∈ (ImpactCache.empty.impactOf changedPageSource.graph none "x.js").1 := by
  have hextract : changedPageSource.extractor.extract Number.Binary64.zero "r.js"
      Session.pageText = .ok (changedPageSource.extractor.factOf Number.Binary64.zero "r.js"
        Session.pageText) :=
    Extractor.extract_of_isSome mapRouteFile_changedPage.1
  obtain ⟨m, hload, hvalue⟩ := exists_ok_of_bind mapRouteFile_changedPage.2
  obtain ⟨-, found, hfound, hcomponents⟩ :=
    bindings_agree_with_graph rfl hextract rfl (loadedFrom_of_load hload)
  rw [hfound] at hvalue
  replace hvalue : found.value = [⟨"/", "A", some "x.js", 1⟩] := Option.some.inj hvalue
  obtain ⟨-, himpact⟩ := hcomponents ⟨"/", "A", some "x.js", 1⟩ (by simp [hvalue]) "x.js" rfl
  exact ⟨m, found, hload, hfound, hvalue, himpact _ (ImpactCache.coherent_empty _ _)⟩

end RouteImpact.ComponentMaps
