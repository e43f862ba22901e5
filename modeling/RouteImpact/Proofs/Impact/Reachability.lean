import Mathlib.Logic.Relation
import Mathlib.Tactic.ByContra
import RouteImpact.Impact.Cache
import RouteImpact.Proofs.Impact.Search

namespace RouteImpact.Impact

open Relation (ReflTransGen)

/-!
# An unlimited search finds what a change reaches

Without a depth limit the answer for a file is a matter of reachability alone: the order
of the search, cycles, reverse edges that have lost their forward edge and importers
without a node do not show in it.

* `ImporterStep`, `Declares` — one step from a file to an importer that has a node, and a
  route that a file adds to an answer;
* `Progress` — what holds of queue, entered files and routes while the search goes on;
  `Progress.skip` and `Progress.look` are its two steps, `progress_search` the whole run;
* `impactOf_unlimited` — the answer is the sorted list of exactly the routes declared by
  the files that the start reaches.
-/

/-- From a file to one that imports it and has a node. -/
def ImporterStep (g : ImportGraph) (x y : String) : Prop :=
  y ∈ g.importersOf x ∧ (g.node? y).isSome = true

/-- A route file with a fact that lists the route. -/
def Declares (g : ImportGraph) (x r : String) : Prop :=
  ∃ n fact, g.node? x = some n ∧ n.isRouteFile = true ∧ g.fact? x = some fact ∧
    r ∈ fact.routePaths

theorem mem_ownRoutes_iff_declares {g : ImportGraph} {x : String} {n : GraphNode}
    (hn : g.node? x = some n) {r : String} : r ∈ ownRoutes g x n ↔ Declares g x r := by
  unfold ownRoutes Declares
  rw [hn]
  cases hr : n.isRouteFile with
  | false => simp [hr]
  | true => cases hf : g.fact? x <;> simp [hr]

/-! ### The invariant of the search -/

/-- How an unlimited search from `start` stands. -/
structure Progress (g : ImportGraph) (start : String) (queue : List (String × Nat))
    (visited routes : NameSet) : Prop where
  entered_start : start ∈ visited
  entered_queue : ∀ e ∈ queue, e.1 ∈ visited
  /-- Of the entered files those with a node are reached. -/
  reached : ∀ x ∈ visited, (g.node? x).isSome = true → ReflTransGen (ImporterStep g) start x
  /-- Every route was declared by a file that is reached. -/
  sound : ∀ r ∈ routes, ∃ x, ReflTransGen (ImporterStep g) start x ∧ Declares g x r
  /-- A file that no longer waits has been looked at. -/
  done : ∀ x ∈ visited, x ∉ queue.map Prod.fst → ∀ n, g.node? x = some n →
    (∀ y ∈ n.importedBy, y ∈ visited) ∧ ∀ r ∈ ownRoutes g x n, r ∈ routes

theorem progress_start (g : ImportGraph) (start : String) :
    Progress g start [(start, 0)] (NameSet.empty.insert start) NameSet.empty where
  entered_start := by simp
  entered_queue := by simp
  reached := by
    intro x hx _
    have hx' : x = start := by simpa using hx
    exact hx' ▸ ReflTransGen.refl
  sound := by simp
  done := by
    intro x hx hq
    exact absurd hx (by simpa using hq)

namespace Progress

variable {g : ImportGraph} {start file : String} {depth : Nat} {rest : List (String × Nat)}
  {visited routes : NameSet}

/-- **Step.** Passing over a file without a node. -/
theorem skip (h : Progress g start ((file, depth) :: rest) visited routes)
    (hn : g.node? file = none) : Progress g start rest visited routes where
  entered_start := h.entered_start
  entered_queue := fun e he => h.entered_queue e (List.mem_cons_of_mem _ he)
  reached := h.reached
  sound := h.sound
  done := by
    intro x hx hq m hm
    have hne : x ≠ file := by
      rintro rfl
      rw [hn] at hm
      cases hm
    refine h.done x hx ?_ m hm
    rw [List.map_cons, List.mem_cons]
    exact fun hc => hc.elim hne hq

/-- **Step.** Looking at a file with a node. -/
theorem look (h : Progress g start ((file, depth) :: rest) visited routes) {n : GraphNode}
    (hn : g.node? file = some n) :
    Progress g start (rest ++ (fresh n visited).map (·, depth + 1))
      ((fresh n visited).foldl NameSet.insert visited)
      ((ownRoutes g file n).foldl NameSet.insert routes) := by
  have hfile : file ∈ visited := h.entered_queue (file, depth) (by simp)
  have hreach : ReflTransGen (ImporterStep g) start file := h.reached file hfile (by simp [hn])
  refine ⟨mem_enter.2 (Or.inr h.entered_start), ?_, ?_, ?_, ?_⟩
  · intro e he
    rw [mem_enter]
    rcases List.mem_append.1 he with hold | hnew
    · exact Or.inr (h.entered_queue e (List.mem_cons_of_mem _ hold))
    · obtain ⟨x, hx, rfl⟩ := List.mem_map.1 hnew
      exact Or.inl (mem_fresh.1 hx).1
  · -- an importer with a node is one step further than the file
    intro x hx hsome
    rcases mem_enter.1 hx with himp | hold
    · have hstep : ImporterStep g file x :=
        ⟨by rw [ImportGraph.importersOf_of_node? hn]; exact himp, hsome⟩
      exact hreach.tail hstep
    · exact h.reached x hold hsome
  · intro r hr
    rcases (NameSet.mem_foldl_insert _ _).1 hr with hown | hold
    · exact ⟨file, hreach, (mem_ownRoutes_iff_declares hn).1 hown⟩
    · exact h.sound r hold
  · intro x hx hq m hm
    rw [List.map_append, List.mem_append, not_or] at hq
    -- a file that was just entered still waits, so this one was entered before
    have hold : x ∈ visited := by
      by_contra hnew
      have himp : x ∈ n.importedBy := (mem_enter.1 hx).resolve_right hnew
      refine hq.2 (List.mem_map.2 ⟨(x, depth + 1), ?_, rfl⟩)
      exact List.mem_map.2 ⟨x, mem_fresh.2 ⟨himp, hnew⟩, rfl⟩
    by_cases hxf : x = file
    · subst hxf
      rw [hn] at hm
      cases hm
      exact ⟨fun y hy => mem_enter.2 (Or.inl hy),
        fun r hr => (NameSet.mem_foldl_insert _ _).2 (Or.inl hr)⟩
    · have hq' : x ∉ ((file, depth) :: rest).map Prod.fst := by
        rw [List.map_cons, List.mem_cons]
        exact fun hc => hc.elim hxf hq.1
      obtain ⟨hin, hroutes⟩ := h.done x hold hq' m hm
      exact ⟨fun y hy => mem_enter.2 (Or.inr (hin y hy)),
        fun r hr => (NameSet.mem_foldl_insert _ _).2 (Or.inr (hroutes r hr))⟩

/-- **At the end.** With nothing left to look at, every file that is reached has been
entered: the entered files are closed under importers. -/
theorem entered_of_reached (h : Progress g start [] visited routes) {x : String}
    (hx : ReflTransGen (ImporterStep g) start x) : x ∈ visited := by
  induction hx with
  | refl => exact h.entered_start
  | tail _ hstep ih =>
    obtain ⟨n, hn, himp⟩ := ImportGraph.exists_node_of_mem_importersOf hstep.1
    exact (h.done _ ih (by simp) n hn).1 _ himp

theorem mem_routes_iff (h : Progress g start [] visited routes) (r : String) :
    r ∈ routes ↔ ∃ x, ReflTransGen (ImporterStep g) start x ∧ Declares g x r := by
  constructor
  · exact h.sound r
  · rintro ⟨x, hx, hd⟩
    obtain ⟨n, fact, hn, _⟩ := id hd
    have hx' := h.entered_of_reached hx
    exact (h.done x hx' (by simp) n hn).2 r ((mem_ownRoutes_iff_declares hn).2 hd)

end Progress

/-- **Run.** An unlimited search leaves nothing waiting. -/
theorem progress_search {g : ImportGraph} {start : String} (queue : List (String × Nat))
    (visited routes : NameSet) (h : Progress g start queue visited routes) :
    Progress g start [] (search g none queue visited routes).visited
      (search g none queue visited routes).routes := by
  fun_induction search g none queue visited routes with
  | case1 => exact h
  | case2 _ _ _ _ _ hs => simp [stops] at hs
  | case3 _ _ _ _ _ _ hn ih => exact ih (h.skip hn)
  | case4 _ _ _ _ _ _ n hn ih => exact ih (h.look hn)

/-- An unlimited search collects the routes of the files that it reaches. -/
theorem mem_routes_searchFrom (g : ImportGraph) (file r : String) :
    r ∈ (searchFrom g none file).routes ↔
      ∃ x, ReflTransGen (ImporterStep g) file x ∧ Declares g x r :=
  (progress_search _ _ _ (progress_start g file)).mem_routes_iff r

/-- **Exhaustive impact is reachability.** Without a depth limit and with nothing
remembered, the answer for a file is strictly sorted, without repetitions, and holds
exactly the routes of the route files that the file reaches over importers with a node;
a file without a node affects none. -/
theorem impactOf_unlimited (g : ImportGraph) (file : String) :
    let answer := (ImpactCache.empty.impactOf g none file).1
    answer.Pairwise (· < ·) ∧ answer.Nodup ∧
      (∀ r, r ∈ answer ↔ ∃ x n fact, ReflTransGen (ImporterStep g) file x ∧
        g.node? x = some n ∧ n.isRouteFile = true ∧ g.fact? x = some fact ∧
        r ∈ fact.routePaths) ∧
      (g.node? file = none → answer = []) := by
  intro answer
  have hunknown : g.node? file = none → answer = [] := by
    intro hn
    simp only [answer, ImpactCache.impactOf, hn]
    rfl
  cases hn : g.node? file with
  | none =>
    rw [hunknown hn]
    refine ⟨List.Pairwise.nil, List.nodup_nil, ?_, fun _ => rfl⟩
    intro r
    refine ⟨fun hr => absurd hr List.not_mem_nil, ?_⟩
    rintro ⟨x, n, fact, hx, hxn, _⟩
    -- without a node there is no step away from the file, and it declares nothing itself
    rcases ReflTransGen.cases_head hx with rfl | ⟨y, hstep, _⟩
    · rw [hn] at hxn
      cases hxn
    · obtain ⟨m, hm, _⟩ := ImportGraph.exists_node_of_mem_importersOf hstep.1
      rw [hn] at hm
      cases hm
  | some n =>
    have hanswer : answer = (searchFrom g none file).routes.toList := by
      simp only [answer, ImpactCache.impactOf, hn]
      rfl
    have hprogress := progress_search _ _ _ (progress_start g file)
    rw [hanswer]
    refine ⟨(searchFrom g none file).routes.sorted, (searchFrom g none file).routes.nodup, ?_,
      fun h => by cases h⟩
    intro r
    refine (hprogress.mem_routes_iff r).trans ⟨?_, ?_⟩
    · rintro ⟨x, hx, m, fact, h⟩
      exact ⟨x, m, fact, hx, h⟩
    · rintro ⟨x, m, fact, hx, h⟩
      exact ⟨x, hx, m, fact, h⟩

/-- Two files that import each other, one of them a route file, and an importer that has
no node. -/
def loopGraph : ImportGraph where
  nodes := OrderedMap.ofList
    [("leaf", { importedBy := NameSet.ofList ["app", "gone"] }),
     ("app", { importedBy := NameSet.ofList ["leaf"], isRouteFile := true })]
  facts := OrderedMap.ofList
    [("app",
      { path := "app"
        routes := [{ path := "/home", component := "Home", declaringFile := "app", line := 1 }]
        lastSeenAt := Number.Binary64.zero })]

/-- The route is found around the loop, and the file without a node affects nothing. -/
theorem impactOf_unlimited_loopGraph :
    "/home" ∈ (ImpactCache.empty.impactOf loopGraph none "leaf").1 ∧
      (ImpactCache.empty.impactOf loopGraph none "gone").1 = [] := by
  have hstep : ImporterStep loopGraph "leaf" "app" := ⟨by decide, rfl⟩
  refine ⟨((impactOf_unlimited loopGraph "leaf").2.2.1 "/home").2 ?_,
    (impactOf_unlimited loopGraph "gone").2.2.2 rfl⟩
  exact ⟨"app", _, _, ReflTransGen.single hstep, rfl, rfl, rfl, by decide⟩

end RouteImpact.Impact
