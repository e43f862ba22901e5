import RouteImpact.Proofs.Analysis.Coherence
import RouteImpact.Proofs.Analysis.Refreshing
import RouteImpact.Proofs.Impact.Reachability

namespace RouteImpact

open Relation (ReflTransGen)
open Impact (ImporterStep Declares)

/-!
# Questions about one file

What is asked about one file is asked after a refresh of that file.

* `refresh_one` — the refresh replaces the file's fact or does nothing, and all else stays
  (`remembers_refreshed`, `fact?_refreshed_of_ne`, `get?_components_refreshed_of_ne`,
  `mem_routeFiles_refreshed`);
* `affectedEach_one` — one file is reported with its routes, or left out when it has none;
* `detectRoutes_plain_one` — hence the plain answer is the search from the file;
* `impactOf_of_coherent`, `mem_impactOf_iff` — what the search finds;
* `mem_importsOf_of_heldFact`, `declares_of_heldFact` — which edges and routes it goes by;
* `Impact.reaches_of_resolvedImport` — in particular it gets from a file to those that import it.
-/

/-! ### Edges and routes of a graph -/

theorem Impact.declares_iff_of_reflects {g : ImportGraph} (hg : g.Reflects) {x r : String} :
    Declares g x r ↔ ∃ fact, g.fact? x = some fact ∧ r ∈ fact.routePaths := by
  constructor
  · rintro ⟨n, fact, -, -, hfact, hr⟩
    exact ⟨fact, hfact, hr⟩
  · rintro ⟨fact, hfact, hr⟩
    obtain ⟨n, hn⟩ := Option.isSome_iff_exists.1 (hg.known x (by simp [hfact]))
    refine ⟨n, fact, hn, ?_, hfact, hr⟩
    rw [hg.routeFile x n hn, hfact]
    cases hroutes : fact.routes with
    | nil => simp [FileFact.routePaths, hroutes] at hr
    | cons => simp [hroutes]

/-- Every import is a step back to its importer. -/
theorem Impact.importerStep_of_mem_importsOf {g : ImportGraph} (hg : g.Consistent) {x y : String}
    (h : y ∈ g.importsOf x) : ImporterStep g y x := by
  refine ⟨hg x y h, ?_⟩
  -- a file that imports something has a node
  cases hn : g.node? x with
  | some n => rfl
  | none => simp [ImportGraph.importsOf, hn] at h

/-- A file that resolves an import to another one is reached from it, also where it imports
itself. -/
theorem Impact.reaches_of_resolvedImport {g : ImportGraph} (hg : g.Reflects)
    (hconsistent : g.Consistent) {x y : String} {fact : FileFact} (hfact : g.fact? x = some fact)
    (hy : y ∈ fact.resolvedImports) : ReflTransGen (ImporterStep g) y x := by
  by_cases hself : y = x
  · rw [hself]
  · refine ReflTransGen.single (importerStep_of_mem_importsOf hconsistent ?_)
    rw [hg.imports, hfact, Option.elim_some]
    simp only [ImportGraph.targets, NameSet.mem_ofList, List.mem_filter]
    exact ⟨hy, by simpa using hself⟩

namespace Session

variable {s t : Session} {p file : String}

/-! ### Refreshing one file -/

/-- The session after the fact of a file was replaced, if it was. -/
def refreshed (s : Session) (file : String) : Option FileFact → Session
  | none => s
  | some fact =>
    { s.replaceFact file fact with graph := (s.graph.upsert file fact).markEntryPoints }

theorem refresh_one {fact? : Option FileFact} (hinit : s.initialized = true)
    (hnormal : s.normalize p = some file) (hfact : s.freshFact? file = .ok fact?) :
    ∃ changed, s.refresh [p] = (.ok changed, s.refreshed file fact?) := by
  unfold refresh ensureInitialized
  rw [if_pos hinit]
  cases fact? with
  | none =>
    have heach : refreshEach [p] s = (.ok [], s) := by
      rw [refreshEach, hnormal]
      simp only [hfact, refreshEach]
    refine ⟨[], ?_⟩
    show Outcome.andThen (refreshEach [p] s) _ = _
    rw [heach]
    rfl
  | some fact =>
    have heach : refreshEach [p] s = (.ok [file], s.replaceFact file fact) := by
      rw [refreshEach, hnormal]
      simp only [hfact, refreshEach]
      rfl
    refine ⟨[file], ?_⟩
    show Outcome.andThen (refreshEach [p] s) _ = _
    rw [heach]
    rfl

/-- A refresh of one file that has succeeded has done this. -/
theorem of_refresh_one {changed : List String} (hinit : s.initialized = true)
    (hnormal : s.normalize p = some file) (h : s.refresh [p] = (.ok changed, t)) :
    ∃ fact?, s.freshFact? file = .ok fact? ∧ t = s.refreshed file fact? := by
  cases hfact : s.freshFact? file with
  | error e =>
    unfold refresh ensureInitialized at h
    rw [if_pos hinit] at h
    change Outcome.andThen (refreshEach [p] s) _ = _ at h
    rw [refreshEach, hnormal] at h
    simp only [hfact] at h
    cases h
  | ok fact? =>
    obtain ⟨changed', hrefresh⟩ := refresh_one hinit hnormal hfact
    rw [h] at hrefresh
    exact ⟨fact?, rfl, (Prod.mk.inj hrefresh).2⟩

theorem remembers_refreshed (s : Session) (file : String) (fact? : Option FileFact) :
    Remembers s (s.refreshed file fact?) := by
  cases fact? <;> rfl

theorem fact?_refreshed_of_ne {fact? : Option FileFact} {x : String} (hx : file ≠ x) :
    (s.refreshed file fact?).graph.fact? x = s.graph.fact? x := by
  cases fact? with
  | none => rfl
  | some fact =>
    show (s.graph.upsert file fact).markEntryPoints.fact? x = _
    rw [ImportGraph.fact?_markEntryPoints, ImportGraph.fact?_upsert, if_neg hx]

theorem fact?_refreshed_self (s : Session) (file : String) (fact : FileFact) :
    (s.refreshed file (some fact)).graph.fact? file = some fact := by
  show (s.graph.upsert file fact).markEntryPoints.fact? file = _
  rw [ImportGraph.fact?_markEntryPoints, ImportGraph.fact?_upsert, if_pos rfl]

theorem get?_components_refreshed_of_ne {fact? : Option FileFact} {x : String} (hx : file ≠ x) :
    (s.refreshed file fact?).components.maps.get? x = s.components.maps.get? x := by
  cases fact? with
  | none => rfl
  | some fact =>
    show (s.components.maps.erase file).get? x = _
    rw [OrderedMap.get?_erase, if_neg hx]

theorem mem_routeFiles_refreshed {fact? : Option FileFact} {x : String} (hx : file ≠ x) :
    x ∈ (s.refreshed file fact?).graph.routeFiles ↔ x ∈ s.graph.routeFiles := by
  cases fact? with
  | none => exact Iff.rfl
  | some fact =>
    exact ImportGraph.mem_routeFiles_markEntryPoints.trans (ImportGraph.mem_routeFiles_upsert hx)

/-! ### Answers about one file -/

/-- Of one file the routes are reported, unless there are none. -/
theorem affectedEach_one {precise : Bool} (hnormal : s.normalize p = some file)
    {routes : List String} (h : s.affected precise file = (.ok routes, t)) :
    ∃ found, affectedEach precise [p] OrderedMap.empty s = (.ok found, t) ∧
      (found.get? p).getD [] = routes := by
  refine ⟨if routes.isEmpty then OrderedMap.empty else OrderedMap.empty.set p routes, ?_, ?_⟩
  · rw [affectedEach, hnormal]
    simp only [h]
    rfl
  · cases routes with
    | nil => rfl
    | cons r rest => simp

/-- The plain answer about a file is the search from it after the refresh. -/
theorem detectRoutes_plain_one {changed : List String} (hrefresh : s.refresh [p] = (.ok changed, t))
    (hnormal : t.normalize p = some file) :
    ∃ found u, s.detectRoutes [p] false = (.ok found, u) ∧
      (found.get? p).getD [] = (t.impactOf file).1 := by
  have haffected : t.affected false file = (.ok (t.impactOf file).1, (t.impactOf file).2) := rfl
  obtain ⟨found, hfound, hroutes⟩ := affectedEach_one hnormal haffected
  refine ⟨found, (t.impactOf file).2, ?_, hroutes⟩
  unfold detectRoutes
  rw [hrefresh]
  exact hfound

/-- The plain answer about a file whose fact is kept. -/
theorem detectRoutes_one_of_kept (hinit : s.initialized = true)
    (hnormal : s.normalize p = some file) (hkept : s.freshFact? file = .ok none) :
    ∃ found t, s.detectRoutes [p] false = (.ok found, t) ∧
      (found.get? p).getD [] = (s.impactOf file).1 := by
  obtain ⟨changed, hrefresh⟩ := refresh_one hinit hnormal hkept
  exact detectRoutes_plain_one hrefresh hnormal

/-- A session that was built and went through rounds never answers from a stale cache. -/
theorem coherentAt_afterRounds {root : String} {config : Settings.Config} {host : Host}
    {now : Moment} {s₀ : Session} {force : Bool} (hstart : start root config host now = .ok s₀)
    (hbuilt : s₀.setUp force = (.ok (), s)) (rounds : List Round) :
    CoherentAt config.earlyStopDepth (s.afterRounds rounds) := by
  -- a round is a run of operations, so what every run keeps holds after it
  have hrun : s₀.run (.setUp force :: rounds.flatMap Round.operations) = s.afterRounds rounds := by
    show Session.run (s₀.setUp force).2 _ = _
    rw [hbuilt]
    rfl
  rw [← hrun]
  exact run_induction (fun s t => coherentAt_step s t) (coherentAt_start hstart) _

/-- A session that never answers from a stale cache answers with a search. -/
theorem impactOf_of_coherent {limit : Option Int} (h : CoherentAt limit s) (file : String) :
    (s.impactOf file).1 = (ImpactCache.empty.impactOf s.graph limit file).1 := by
  rw [impactOf, h.depth]
  exact h.coherent.fst_impactOf file

/-- Without a depth limit the search finds the routes of the files that are reached. -/
theorem mem_impactOf_iff (h : CoherentAt none s) (file r : String) :
    r ∈ (s.impactOf file).1 ↔
      ∃ x, ReflTransGen (ImporterStep s.graph) file x ∧ Declares s.graph x r := by
  rw [impactOf_of_coherent h, Impact.fst_impactOf_empty]
  exact Impact.mem_routes_searchFrom s.graph file r

/-! ### What the facts put into the graph -/

theorem mem_importsOf_of_heldFact (h : s.graph.Reflects) {x y : String}
    (hy : y ∈ ImportGraph.targets x (s.heldFact x)) : y ∈ s.graph.importsOf x := by
  rw [h.imports]
  cases hf : s.graph.fact? x with
  | none =>
    rw [heldFact_of_none hf] at hy
    exact absurd hy (NameSet.not_mem_empty y)
  | some fact =>
    rw [heldFact_of_some hf] at hy
    exact hy

theorem declares_of_heldFact (h : s.graph.Reflects) {x r : String}
    (hr : r ∈ (s.heldFact x).routePaths) : Impact.Declares s.graph x r := by
  rw [Impact.declares_iff_of_reflects h]
  cases hf : s.graph.fact? x with
  | none =>
    rw [heldFact_of_none hf] at hr
    exact absurd hr List.not_mem_nil
  | some fact =>
    rw [heldFact_of_some hf] at hr
    exact ⟨fact, rfl, hr⟩

end Session

end RouteImpact
