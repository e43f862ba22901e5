import RouteImpact.Proofs.Impact.Reachability

namespace RouteImpact.Impact

open Relation (ReflTransGen)

/-!
# A search goes layer by layer

The files that wait are at one depth or at the next, and when the first file of a depth is
looked at, every file that can be reached in so many steps has been entered.  So a search
that stops beyond its limit has looked at all files within the limit.

* `Walk` — a file that importers lead to in a number of steps;
* `Layered` — what holds of the two layers that wait; `Layered.skip` and `Layered.look` are
  its steps within a layer, `Layered.descend` the step to the next one;
* `Ending` — how a search ends: with nothing left to look at, or beyond its limit;
  `ending_search` says that it ends in one of these ways;
* `mem_routes_of_walk` — routes within the limit are found;
  `declares_of_mem_routes` — only routes that are reached are found;
  `exists_mem_routes` — if any route is reached, one is found, whatever the limit.
-/

/-- A file that importers lead to in a number of steps, from `start`. -/
inductive Walk (g : ImportGraph) (start : String) : Nat → String → Prop
  | here : Walk g start 0 start
  | step {n : Nat} {x y : String} (walk : Walk g start n x) (next : ImporterStep g x y) :
      Walk g start (n + 1) y

theorem Walk.reached {g : ImportGraph} {start x : String} {n : Nat} (h : Walk g start n x) :
    ReflTransGen (ImporterStep g) start x := by
  induction h with
  | here => exact ReflTransGen.refl
  | step _ next ih => exact ih.tail next

/-! ### The two layers that wait -/

/-- How a search from `start` stands that has files at `depth` left to look at, and has
entered others that are one step deeper. -/
structure Layered (g : ImportGraph) (start : String) (depth : Nat) (present next : List String)
    (visited : NameSet) : Prop where
  /-- Files of this depth and of lesser ones have been entered. -/
  near : ∀ n ≤ depth, ∀ x, Walk g start n x → x ∈ visited
  /-- Files of lesser depths no longer wait. -/
  passed : ∀ n < depth, ∀ x, Walk g start n x → x ∉ present
  /-- What waits in the next layer is in no earlier one. -/
  beyond : ∀ x ∈ next, ∀ n ≤ depth, ¬ Walk g start n x

/-- What waits, with its depths. -/
def waiting (depth : Nat) (present next : List String) : List (String × Nat) :=
  present.map (·, depth) ++ next.map (·, depth + 1)

theorem mem_waiting {depth : Nat} {present next : List String} {x : String} :
    x ∈ (waiting depth present next).map Prod.fst ↔ x ∈ present ∨ x ∈ next := by
  simp [waiting]

theorem layered_start (g : ImportGraph) (start : String) :
    Layered g start 0 [start] [] (NameSet.empty.insert start) where
  near := by
    intro n hn x hx
    rw [Nat.le_zero.1 hn] at hx
    cases hx
    simp
  passed := fun n hn => absurd hn (Nat.not_lt_zero n)
  beyond := by simp

namespace Layered

variable {g : ImportGraph} {start file : String} {depth : Nat} {present next : List String}
  {visited routes : NameSet}

/-- **Step.** Passing over a file without a node. -/
theorem skip (h : Layered g start depth (file :: present) next visited) :
    Layered g start depth present next visited where
  near := h.near
  passed := fun n hn x hx hmem => h.passed n hn x hx (List.mem_cons_of_mem _ hmem)
  beyond := h.beyond

/-- **Step.** Looking at a file: what is entered there is one step deeper, because all files
of this depth have been entered before. -/
theorem look (h : Layered g start depth (file :: present) next visited) (n : GraphNode) :
    Layered g start depth present (next ++ fresh n visited)
      ((fresh n visited).foldl NameSet.insert visited) where
  near := fun k hk x hx => mem_enter.2 (Or.inr (h.near k hk x hx))
  passed := h.skip.passed
  beyond := by
    intro x hx k hk hwalk
    rcases List.mem_append.1 hx with hold | hnew
    · exact h.beyond x hold k hk hwalk
    · exact (mem_fresh.1 hnew).2 (h.near k hk x hwalk)

/-- A file of this depth or a lesser one that is not in this layer no longer waits. -/
theorem not_waiting (h : Layered g start depth present next visited) {n : Nat} {x : String}
    (hn : n ≤ depth) (hx : Walk g start n x) (hpresent : x ∉ present) :
    x ∉ (waiting depth present next).map Prod.fst := by
  rw [mem_waiting, not_or]
  exact ⟨hpresent, fun hnext => h.beyond x hnext n hn hx⟩

/-- **Step.** When nothing waits at this depth, the next layer is complete: its files are
importers of files that have been looked at. -/
theorem descend (h : Layered g start depth [] next visited)
    (hp : Progress g start (waiting depth [] next) visited routes) :
    Layered g start (depth + 1) next [] visited where
  near := by
    intro n hn x hx
    rcases Nat.lt_or_ge depth n with hlt | hle
    · obtain rfl : n = depth + 1 := by omega
      cases hx with
      | step hwalk hstep =>
        obtain ⟨m, hm, himporter⟩ := ImportGraph.exists_node_of_mem_importersOf hstep.1
        have hdone := h.not_waiting (Nat.le_refl depth) hwalk List.not_mem_nil
        exact (hp.done _ (h.near depth (Nat.le_refl depth) _ hwalk) hdone m hm).1 x himporter
    · exact h.near n hle x hx
  passed := fun n hn x hx hmem => h.beyond x hmem n (Nat.le_of_lt_succ hn) hx
  beyond := by simp

end Layered

/-- A search whose queue consists of two layers. -/
def InLayers (g : ImportGraph) (start : String) (queue : List (String × Nat))
    (visited : NameSet) : Prop :=
  ∃ depth present next, queue = waiting depth present next ∧
    Layered g start depth present next visited

/-- The first file that waits stands at the head of its layer. -/
theorem InLayers.head {g : ImportGraph} {start file : String} {depth : Nat}
    {rest : List (String × Nat)} {visited routes : NameSet}
    (h : InLayers g start ((file, depth) :: rest) visited)
    (hp : Progress g start ((file, depth) :: rest) visited routes) :
    ∃ present next, rest = waiting depth present next ∧
      Layered g start depth (file :: present) next visited := by
  obtain ⟨level, present, next, hqueue, hlayered⟩ := h
  cases present with
  | cons first present =>
    cases hqueue
    exact ⟨present, next, rfl, hlayered⟩
  | nil =>
    -- this layer is used up, so the file is the first one of the next layer
    rw [hqueue] at hp
    have hnext := hlayered.descend hp
    cases next with
    | nil => cases hqueue
    | cons first next =>
      cases hqueue
      exact ⟨next, [], by simp [waiting], hnext⟩

/-! ### How a search ends -/

/-- How a search with a depth limit ends. -/
inductive Ending (g : ImportGraph) (start : String) (limit : Option Int)
    (visited routes : NameSet) : Prop
  /-- There is nothing left to look at. -/
  | complete (progress : Progress g start [] visited routes)
  /-- A route has been found, and what waits is beyond the limit. -/
  | stopped {d : Int} {file : String} {depth : Nat} {present next : List String}
      (bound : limit = some d) (deeper : d < depth) (found : ∃ r, r ∈ routes)
      (progress : Progress g start (waiting depth (file :: present) next) visited routes)
      (layered : Layered g start depth (file :: present) next visited)

theorem exists_of_stops {limit : Option Int} {routes : NameSet} {depth : Nat}
    (h : stops limit routes depth = true) :
    ∃ d, limit = some d ∧ d < (depth : Int) ∧ ∃ r, r ∈ routes := by
  cases limit with
  | none => simp [stops] at h
  | some d =>
    simp only [stops, Option.any_some, Bool.and_eq_true, Bool.not_eq_true',
      decide_eq_true_eq] at h
    obtain ⟨r, hr⟩ := List.exists_mem_of_ne_nil routes.toList (by
      simpa [NameSet.isEmpty] using h.1)
    exact ⟨d, rfl, h.2, r, hr⟩

/-- **Run.** A search with any limit ends in one of these ways. -/
theorem ending_search {g : ImportGraph} {start : String} {limit : Option Int}
    (queue : List (String × Nat)) (visited routes : NameSet)
    (hp : Progress g start queue visited routes) (hl : InLayers g start queue visited) :
    Ending g start limit (search g limit queue visited routes).visited
      (search g limit queue visited routes).routes := by
  fun_induction search g limit queue visited routes with
  | case1 => exact .complete hp
  | case2 visited routes file depth rest hs =>
    obtain ⟨present, next, rfl, hlayered⟩ := hl.head hp
    obtain ⟨d, hlimit, hdeeper, hfound⟩ := exists_of_stops hs
    exact .stopped hlimit hdeeper hfound hp hlayered
  | case3 visited routes file depth rest _ hn ih =>
    obtain ⟨present, next, rfl, hlayered⟩ := hl.head hp
    exact ih (hp.skip hn) ⟨depth, present, next, rfl, hlayered.skip⟩
  | case4 visited routes file depth rest _ n hn ih =>
    obtain ⟨present, next, rfl, hlayered⟩ := hl.head hp
    exact ih (hp.look hn) ⟨depth, present, next ++ fresh n visited, by simp [waiting],
      hlayered.look n⟩

theorem ending_searchFrom (g : ImportGraph) (limit : Option Int) (file : String) :
    Ending g file limit (searchFrom g limit file).visited (searchFrom g limit file).routes :=
  ending_search _ _ _ (progress_start g file) ⟨0, [file], [], rfl, layered_start g file⟩

/-! ### What a limited search finds -/

variable {g : ImportGraph} {limit : Option Int} {file x r : String}

/-- **Within the limit** every route is found. -/
theorem mem_routes_of_walk {d : Int} {n : Nat} (hn : (n : Int) ≤ d) (hx : Walk g file n x)
    (hr : Declares g x r) : r ∈ (searchFrom g (some d) file).routes := by
  cases ending_searchFrom g (some d) file with
  | complete progress => exact (progress.mem_routes_iff r).2 ⟨x, hx.reached, hr⟩
  | stopped bound deeper _ progress layered =>
    cases bound
    have hlt : n < _ := Int.ofNat_lt.1 (Int.lt_of_le_of_lt hn deeper)
    obtain ⟨m, _, hm, _⟩ := id hr
    -- a file within the limit is in an earlier layer than what waits, so it has been looked at
    have hdone := layered.not_waiting (Nat.le_of_lt hlt) hx (layered.passed n hlt x hx)
    exact (progress.done x (layered.near n (Nat.le_of_lt hlt) x hx) hdone m hm).2 r
      ((mem_ownRoutes_iff_declares hm).2 hr)

/-- Every route that is found is declared by a file that is reached. -/
theorem declares_of_mem_routes (hr : r ∈ (searchFrom g limit file).routes) :
    ∃ x, ReflTransGen (ImporterStep g) file x ∧ Declares g x r := by
  cases ending_searchFrom g limit file with
  | complete progress => exact progress.sound r hr
  | stopped _ _ _ progress => exact progress.sound r hr

/-- **No limit hides everything.** If any route is reached, a route is found. -/
theorem exists_mem_routes (hx : ReflTransGen (ImporterStep g) file x) (hr : Declares g x r) :
    ∃ r', r' ∈ (searchFrom g limit file).routes := by
  cases ending_searchFrom g limit file with
  | complete progress => exact ⟨r, (progress.mem_routes_iff r).2 ⟨x, hx, hr⟩⟩
  | stopped _ _ found => exact found

end RouteImpact.Impact
