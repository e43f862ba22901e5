import RouteImpact.Proofs.Graph.History
import RouteImpact.Proofs.Impact.Layers

namespace RouteImpact

open Relation (ReflTransGen)
open ImportGraph (History)
open ImportGraph.History (graph)

/-!
# What stale edges do to an answer

One history of facts makes two graphs: one that drops a reverse edge with its forward edge,
and one that keeps it.  The second has the same facts and more importers.

* `ImportGraph.Widens` — a graph with the facts and route files of another and all its
  reverse edges; `Widens.upsert` keeps it, `widens_graph` says so of every history;
* `Impact.impactOf_pruned_subset` — without a depth limit, stale edges only widen an answer;
* `Impact.beyond_limit_of_lost` — with a limit they can also narrow it: a stale edge can
  bring a near route to light, and then the search stops before a far one.  What is lost that
  way is beyond the limit, and never all there is;
* `Impact.not_subset_detourHistory` — a history where this happens with the usual limit.
-/

namespace ImportGraph

/-- A graph that has the facts and the route files of another, and all its reverse edges. -/
structure Widens (g wide : ImportGraph) : Prop where
  fact : ∀ x, wide.fact? x = g.fact? x
  routeFile : ∀ x, (wide.node? x).map (·.isRouteFile) = (g.node? x).map (·.isRouteFile)
  importers : ∀ x, ∀ y ∈ g.importersOf x, y ∈ wide.importersOf x

/-- What a node says about routes after a fact was replaced. -/
theorem routeFile_upsert (g : ImportGraph) (file : String) (fact : FileFact) (x : String) :
    ((g.upsert file fact).node? x).map (·.isRouteFile) =
      if file = x then some (!fact.routes.isEmpty)
      else if x ∈ targets file fact then some (((g.node? x).map (·.isRouteFile)).getD false)
      else (g.node? x).map (·.isRouteFile) := by
  have hsome := isSome_node?_upsert g file fact x
  cases hn : (g.upsert file fact).node? x with
  | none =>
    rw [hn, Option.isSome_none] at hsome
    obtain ⟨hfile, htarget, hnone⟩ : x ≠ file ∧ x ∉ targets file fact ∧ g.node? x = none := by
      simpa [not_or] using hsome
    simp [Ne.symm hfile, htarget, hnone]
  | some n =>
    rw [hn] at hsome
    rw [Option.map_some, isRouteFile_upsert hn]
    split
    · rfl
    · next hfile =>
      have hknown := (hsome.1 rfl).resolve_left (Ne.symm hfile)
      split
      · cases g.node? x <;> rfl
      · next htarget =>
        obtain ⟨m, hm⟩ := Option.isSome_iff_exists.1 (hknown.resolve_left htarget)
        rw [hm]
        rfl

/-- **Step.** The same fact put into both graphs leaves them so, if the wider one drops no
reverse edge. -/
theorem Widens.upsert {g wide : ImportGraph} (h : g.Widens wide) (hprune : wide.prune = false)
    (file : String) (fact : FileFact) : (g.upsert file fact).Widens (wide.upsert file fact) where
  fact := by
    intro x
    rw [fact?_upsert, fact?_upsert, h.fact]
  routeFile := by
    intro x
    rw [routeFile_upsert, routeFile_upsert, h.routeFile]
  importers := by
    intro x y hy
    rw [mem_importersOf_upsert] at hy ⊢
    rcases hy with hnew | ⟨hold, -⟩
    · exact Or.inl hnew
    · exact Or.inr ⟨h.importers x y hold, by simp [hprune]⟩

/-- **Run.** The graph that keeps stale edges is the wider one after every history. -/
theorem widens_graph (h : History) : (graph true h).Widens (graph false h) := by
  induction h using List.reverseRecOn with
  | nil => exact ⟨fun _ => rfl, fun _ => rfl, fun _ _ hy => hy⟩
  | append_singleton h e ih =>
    obtain ⟨file, fact⟩ := e
    rw [History.graph_concat, History.graph_concat]
    exact ih.upsert (prune_graph false h) file fact

end ImportGraph

namespace Impact

open ImportGraph (Widens widens_graph)

variable {g wide : ImportGraph}

/-! ### Searches on the wider graph -/

theorem importerStep_of_widens (h : g.Widens wide) {x y : String} (hstep : ImporterStep g x y) :
    ImporterStep wide x y := by
  refine ⟨h.importers x y hstep.1, ?_⟩
  rw [← Option.isSome_map (f := (·.isRouteFile)), h.routeFile, Option.isSome_map]
  exact hstep.2

theorem declares_iff_of_widens (h : g.Widens wide) {x r : String} :
    Declares g x r ↔ Declares wide x r := by
  -- a route file is told by the node, its routes by the fact, and both are the same
  have hflag : ∀ g : ImportGraph, Declares g x r ↔ (g.node? x).map (·.isRouteFile) = some true ∧
      ∃ fact, g.fact? x = some fact ∧ r ∈ fact.routePaths := by
    intro g
    rw [Option.map_eq_some_iff]
    exact ⟨fun ⟨n, fact, hn, hroute, hfact⟩ => ⟨⟨n, hn, hroute⟩, fact, hfact⟩,
      fun ⟨⟨n, hn, hroute⟩, fact, hfact⟩ => ⟨n, fact, hn, hroute, hfact⟩⟩
  rw [hflag g, hflag wide, h.routeFile, h.fact]

theorem reached_of_widens (h : g.Widens wide) {file x : String}
    (hx : ReflTransGen (ImporterStep g) file x) : ReflTransGen (ImporterStep wide) file x :=
  ReflTransGen.mono (fun _ _ => importerStep_of_widens h) _ _ hx

/-- **Stale edges only widen an answer**, if there is no depth limit: whatever facts were put
into a graph that drops stale edges and into one that keeps them, every route that the first
gives for a file is given by the second. -/
theorem impactOf_pruned_subset (h : History) (file : String) :
    (ImpactCache.empty.impactOf (graph true h) none file).1 ⊆
      (ImpactCache.empty.impactOf (graph false h) none file).1 := by
  intro r hr
  have hwidens := widens_graph h
  rw [fst_impactOf_empty, ← NameSet.mem_def] at hr ⊢
  obtain ⟨x, hx, hdeclares⟩ := (mem_routes_searchFrom _ _ _).1 hr
  exact (mem_routes_searchFrom _ _ _).2
    ⟨x, reached_of_widens hwidens hx, (declares_iff_of_widens hwidens).1 hdeclares⟩

/-- A fact with given imports and routes. -/
def plainFact (file : String) (imports routes : List String) : FileFact where
  path := file
  imports := imports.map fun x => { source := some x, line := 1, specifier := x }
  routes := routes.map fun r => { path := r, component := "C", declaringFile := file, line := 1 }
  lastSeenAt := Number.Binary64.zero

/-- A page that is imported over four files by one that declares a route, and that was once
imported by another such file. -/
def detourHistory : History :=
  [("near", plainFact "near" ["page"] ["/near"]), ("near", plainFact "near" [] ["/near"]),
   ("a", plainFact "a" ["page"] []), ("b", plainFact "b" ["a"] []),
   ("c", plainFact "c" ["b"] []), ("far", plainFact "far" ["c"] ["/far"])]

/-- The stale edge adds the near route to the far one. -/
theorem impactOf_pruned_subset_detourHistory :
    (ImpactCache.empty.impactOf (graph true detourHistory) none "page").1 = ["/far"] ∧
      "/far" ∈ (ImpactCache.empty.impactOf (graph false detourHistory) none "page").1 ∧
      "/near" ∈ (ImpactCache.empty.impactOf (graph false detourHistory) none "page").1 := by
  have hpruned : (ImpactCache.empty.impactOf (graph true detourHistory) none "page").1 =
      ["/far"] := by decide +kernel
  refine ⟨hpruned, impactOf_pruned_subset detourHistory "page" ?_, by decide +kernel⟩
  rw [hpruned]
  exact List.mem_singleton.2 rfl

/-! ### With a depth limit -/

/-- **What stale edges can hide.**  With a depth limit, take a route that is given for a file
by the graph that drops stale edges and not by the one that keeps them.  Then every way to it,
stale edges included, is longer than the limit, and the second graph gives another route.  So
routes within the limit are never lost, and an answer never becomes empty. -/
theorem beyond_limit_of_lost (h : History) (file : String) (d : Int) (r : String)
    (hr : r ∈ (ImpactCache.empty.impactOf (graph true h) (some d) file).1)
    (hlost : r ∉ (ImpactCache.empty.impactOf (graph false h) (some d) file).1) :
    (ImpactCache.empty.impactOf (graph false h) (some d) file).1 ≠ [] ∧
      ∀ x n, Declares (graph false h) x r → Walk (graph false h) file n x → d < n := by
  have hwidens := widens_graph h
  rw [fst_impactOf_empty, ← NameSet.mem_def] at hr hlost
  rw [fst_impactOf_empty]
  refine ⟨?_, ?_⟩
  · obtain ⟨x, hx, hdeclares⟩ := declares_of_mem_routes hr
    have hfound : ∃ r', r' ∈ (searchFrom (graph false h) (some d) file).routes :=
      exists_mem_routes (reached_of_widens hwidens hx)
        ((declares_iff_of_widens hwidens).1 hdeclares)
    obtain ⟨r', hr'⟩ := hfound
    exact List.ne_nil_of_mem hr'
  · intro x n hdeclares hwalk
    by_contra hle
    exact hlost (mem_routes_of_walk (Int.not_lt.1 hle) hwalk hdeclares)

/-- **Stale edges can narrow an answer.**  With the usual limit of three steps, the far route
is given where the stale edge was dropped, and not where it leads to the near route first. -/
theorem not_subset_detourHistory :
    ¬ (ImpactCache.empty.impactOf (graph true detourHistory) (some 3) "page").1 ⊆
      (ImpactCache.empty.impactOf (graph false detourHistory) (some 3) "page").1 := by
  have hpruned : (ImpactCache.empty.impactOf (graph true detourHistory) (some 3) "page").1 =
      ["/far"] := by decide +kernel
  have hkept : (ImpactCache.empty.impactOf (graph false detourHistory) (some 3) "page").1 =
      ["/near"] := by decide +kernel
  rw [hpruned, hkept]
  decide

/-- The far route is four steps away, whichever edges are counted. -/
theorem beyond_limit_of_lost_detourHistory :
    "/far" ∈ (ImpactCache.empty.impactOf (graph true detourHistory) (some 3) "page").1 ∧
      "/far" ∉ (ImpactCache.empty.impactOf (graph false detourHistory) (some 3) "page").1 ∧
      (ImpactCache.empty.impactOf (graph false detourHistory) (some 3) "page").1 ≠ [] ∧
      ∀ x n, Declares (graph false detourHistory) x "/far" →
        Walk (graph false detourHistory) "page" n x → (3 : Int) < n := by
  have hpruned : "/far" ∈
      (ImpactCache.empty.impactOf (graph true detourHistory) (some 3) "page").1 := by
    decide +kernel
  have hlost : "/far" ∉
      (ImpactCache.empty.impactOf (graph false detourHistory) (some 3) "page").1 := by
    decide +kernel
  exact ⟨hpruned, hlost, beyond_limit_of_lost detourHistory "page" 3 "/far" hpruned hlost⟩

end Impact

end RouteImpact
