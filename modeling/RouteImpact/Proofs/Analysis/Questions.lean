import RouteImpact.Proofs.Analysis.Answers
import RouteImpact.Proofs.Graph.Commutation

namespace RouteImpact

/-!
# Plain questions about many files

Once the facts are up to date, a plain question asks for one file after the other.  Each
search may be remembered, and the next file may find what was remembered; none of this shows.

* `ImportGraph.Alike` — graphs that answer alike: the same nodes, and facts that differ in
  their dates at most;
* `Session.routesFor`, `Session.infoFor` — what is answered for a path, from the graph alone;
* `Session.Asked` — asking changes nothing but what is remembered, and that stays right;
* `Session.affectedEach_eq`, `Session.affectedEach_plain`, `Session.infoEach_eq` — hence the
  answers for many paths are those for each of them.
-/

namespace ImportGraph

/-! ### Graphs that answer alike -/

/-- The same nodes, and facts that differ in their dates at most. -/
structure Alike (g h : ImportGraph) : Prop extends SameNodes g h where
  facts : g.SameFacts h

theorem Same.alike {g h : ImportGraph} (hsame : g.Same h) : g.Alike h where
  toSameNodes := hsame.toSameNodes
  facts := fun x => by rw [hsame.fact]

/-- The date of a fact that is put in does not show either. -/
theorem Alike.upsert {g h : ImportGraph} (halike : g.Alike h) {file : String}
    {fact fact' : FileFact} (hfact : fact.undated = fact'.undated) :
    (g.upsert file fact).Alike (h.upsert file fact') where
  toSameNodes := by
    refine halike.toSameNodes.upsert ?_ ?_
    · show targets file fact.undated = targets file fact'.undated
      rw [hfact]
    · show fact.undated.routes.isEmpty = fact'.undated.routes.isEmpty
      rw [hfact]
  facts := by
    intro x
    rw [fact?_upsert, fact?_upsert]
    split
    · rw [Option.map_some, Option.map_some, hfact]
    · exact halike.facts x

theorem Alike.markEntryPoints {g h : ImportGraph} (halike : g.Alike h) :
    g.markEntryPoints.Alike h.markEntryPoints where
  toSameNodes := halike.toSameNodes.markEntryPoints
  facts := halike.facts

end ImportGraph

namespace Impact

/-- A search sees the same of every file. -/
theorem view_of_alike {g h : ImportGraph} (halike : g.Alike h) (x : String) :
    view g x = view h x := by
  have hroutes : (g.fact? x).elim [] (·.routePaths) = (h.fact? x).elim [] (·.routePaths) :=
    halike.facts.elim [] (·.routePaths) (fun _ => rfl) x
  simp only [view, ownRoutes, halike.node, hroutes]

theorem impactOf_of_alike {g h : ImportGraph} (halike : g.Alike h) (limit : Option Int)
    (file : String) :
    (ImpactCache.empty.impactOf g limit file).1 = (ImpactCache.empty.impactOf h limit file).1 := by
  rw [fst_impactOf_empty, fst_impactOf_empty,
    searchFrom_congr fun x _ => (view_of_alike halike x).symm]

end Impact

namespace Session

variable {s t : Session} {limit : Option Int}

/-! ### What is answered for a path -/

/-- The routes that are affected by a change to a path; none for a path that is not in the
project. -/
def routesFor (s : Session) (path : String) : List String :=
  (s.normalize path).elim [] fun file =>
    (ImpactCache.empty.impactOf s.graph s.config.earlyStopDepth file).1

/-- What a path has to do with routes. -/
def infoFor (s : Session) (path : String) : RouteInfo :=
  (s.normalize path).elim {} fun file =>
    let definer := (s.graph.node? file).any (·.isRouteFile)
    { routes := s.routesFor path
      isRouteDefiner := definer
      role := if definer then some (Route.Role.ofPath file) else none }

theorem routesFor_of_none {path : String} (h : s.normalize path = none) :
    s.routesFor path = [] := by
  rw [routesFor, h]
  rfl

theorem routesFor_of_some {path file : String} (h : s.normalize path = some file) :
    s.routesFor path = (ImpactCache.empty.impactOf s.graph s.config.earlyStopDepth file).1 := by
  rw [routesFor, h]
  rfl

/-- Both questions name the same routes. -/
theorem routes_infoFor (s : Session) (path : String) :
    (s.infoFor path).routes = s.routesFor path := by
  unfold infoFor
  cases h : s.normalize path with
  | none => rw [routesFor_of_none h]; rfl
  | some file => rfl

/-- Sessions on one project whose graphs are alike answer alike. -/
theorem routesFor_congr (hroot : t.root = s.root) (hconfig : t.config = s.config)
    (hgraph : t.graph.Alike s.graph) (path : String) : t.routesFor path = s.routesFor path := by
  rw [routesFor, routesFor, normalize, normalize, hroot, hconfig]
  congr 1
  funext file
  exact Impact.impactOf_of_alike hgraph _ file

theorem infoFor_congr (hroot : t.root = s.root) (hconfig : t.config = s.config)
    (hgraph : t.graph.Alike s.graph) (path : String) : t.infoFor path = s.infoFor path := by
  simp only [infoFor, routesFor_congr hroot hconfig hgraph, normalize, hroot, hgraph.node]

/-! ### Asking -/

/-- Nothing but what is remembered has changed, and that is right. -/
structure Asked (limit : Option Int) (s t : Session) : Prop where
  frame : t = { s with impact := t.impact }
  coherent : CoherentAt limit t

theorem Asked.refl (h : CoherentAt limit s) : Asked limit s s := ⟨rfl, h⟩

theorem Asked.trans {u : Session} (hst : Asked limit s t) (htu : Asked limit t u) :
    Asked limit s u := by
  refine ⟨?_, htu.coherent⟩
  rw [htu.frame, hst.frame]

theorem Asked.routesFor (h : Asked limit s t) : t.routesFor = s.routesFor := by
  rw [h.frame]
  rfl

theorem Asked.infoFor (h : Asked limit s t) : t.infoFor = s.infoFor := by
  rw [h.frame]
  rfl

theorem Asked.normalize (h : Asked limit s t) : t.normalize = s.normalize := by
  rw [h.frame]
  rfl

theorem coherentAt_steps (h : CoherentAt limit s) (hsteps : Steps s t) : CoherentAt limit t := by
  induction hsteps with
  | refl => exact h
  | tail _ hstep ih => exact coherentAt_step _ _ hstep ih

/-- **One file.** It is answered as if nothing were remembered. -/
theorem asked_impactOf (h : CoherentAt limit s) {path file : String}
    (hfile : s.normalize path = some file) :
    (s.impactOf file).1 = s.routesFor path ∧ Asked limit s (s.impactOf file).2 := by
  refine ⟨?_, rfl, coherentAt_steps h (steps_impactOf s file)⟩
  rw [routesFor_of_some hfile, impactOf_of_coherent h, h.depth]

/-- The files for which there is something to report. -/
def reported (s : Session) (paths : List String) : List String :=
  paths.filter fun p => !(s.routesFor p).isEmpty

/-- **Many files.** If every file is answered with the routes that `answer` has for its path,
whatever was remembered since, then every path with routes is reported with its routes. -/
theorem affectedEach_eq {precise : Bool} {answer : String → List String} (h : CoherentAt limit s)
    (houtside : ∀ p, s.normalize p = none → answer p = [])
    (hanswer : ∀ t, Asked limit s t → ∀ p file, s.normalize p = some file →
      ∃ u, t.affected precise file = (.ok (answer p), u) ∧ Asked limit t u)
    (paths : List String) (found : OrderedMap (List String)) :
    ∃ t, affectedEach precise paths found s =
        (.ok ((paths.filter fun p => !(answer p).isEmpty).foldl
          (fun m p => m.set p (answer p)) found), t) ∧ Asked limit s t := by
  have hloop : ∀ t found, Asked limit s t → ∃ u, affectedEach precise paths found t =
      (.ok ((paths.filter fun p => !(answer p).isEmpty).foldl
        (fun m p => m.set p (answer p)) found), u) ∧ Asked limit s u := by
    induction paths with
    | nil => exact fun t found ht => ⟨t, rfl, ht⟩
    | cons path rest ih =>
      intro t found ht
      unfold affectedEach
      rw [ht.normalize]
      cases hfile : s.normalize path with
      | none =>
        obtain ⟨u, hrun, hu⟩ := ih t found ht
        refine ⟨u, ?_, hu⟩
        simpa [houtside path hfile] using hrun
      | some file =>
        obtain ⟨v, haffected, hv⟩ := hanswer t ht path file hfile
        obtain ⟨u, hrun, hu⟩ := ih v
          (if (answer path).isEmpty then found else found.set path (answer path)) (ht.trans hv)
        refine ⟨u, ?_, hu⟩
        show Outcome.andThen (t.affected precise file) _ = _
        rw [haffected]
        show affectedEach precise rest _ _ = _
        rw [hrun]
        cases hempty : (answer path).isEmpty with
        | true => simp [hempty]
        | false => simp [hempty]
  exact hloop s found (Asked.refl h)

/-- In plain mode these are the routes that a search finds. -/
theorem affectedEach_plain (h : CoherentAt limit s) (paths : List String)
    (found : OrderedMap (List String)) :
    ∃ t, affectedEach false paths found s =
        (.ok ((s.reported paths).foldl (fun m p => m.set p (s.routesFor p)) found), t) ∧
      Asked limit s t := by
  refine affectedEach_eq h (fun p => routesFor_of_none) (fun t ht p file hfile => ?_) paths found
  rw [← ht.normalize] at hfile
  obtain ⟨hroutes, hasked⟩ := asked_impactOf ht.coherent hfile
  refine ⟨(t.impactOf file).2, ?_, hasked⟩
  rw [← ht.routesFor, ← hroutes]
  rfl

/-- **Many files.** Every path is told about. -/
theorem infoEach_eq (h : CoherentAt limit s) (paths : List String)
    (found : OrderedMap RouteInfo) :
    ∃ t, infoEach paths found s = (paths.foldl (fun m p => m.set p (s.infoFor p)) found, t) ∧
      Asked limit s t := by
  induction paths generalizing found s with
  | nil => exact ⟨s, rfl, Asked.refl h⟩
  | cons path rest ih =>
    unfold infoEach
    cases hfile : s.normalize path with
    | none =>
      obtain ⟨t, hrun, ht⟩ := ih h (found.set path {})
      refine ⟨t, ?_, ht⟩
      rw [List.foldl_cons, infoFor, hfile]
      exact hrun
    | some file =>
      obtain ⟨hroutes, hasked⟩ := asked_impactOf h hfile
      have hinfo : s.infoOf file = (s.infoFor path, (s.impactOf file).2) := by
        rw [infoFor, hfile, ← hroutes]
        rfl
      obtain ⟨t, hrun, ht⟩ := ih hasked.coherent (found.set path (s.infoFor path))
      refine ⟨t, ?_, hasked.trans ht⟩
      simp only [hinfo]
      rw [hrun, hasked.infoFor]
      rfl

theorem get?_reported (s : Session) (paths : List String) (path : String) :
    ((s.reported paths).foldl (fun m p => m.set p (s.routesFor p)) OrderedMap.empty).get? path =
      if path ∈ paths ∧ s.routesFor path ≠ [] then some (s.routesFor path) else none := by
  rw [OrderedMap.get?_foldl_assign, OrderedMap.get?_empty]
  simp [reported]

end Session

end RouteImpact
