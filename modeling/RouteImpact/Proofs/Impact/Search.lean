import RouteImpact.Impact.Search
import RouteImpact.Proofs.Graph.Operations

namespace RouteImpact.Impact

/-!
# What a search reads

A search reads no more of a graph than the files it enters, and of each of these only
who imports it and which routes it adds.

* `search_nil`, `search_of_stops`, `search_of_none`, `search_of_some` — the four things
  that can happen at the head of the queue;
* `view` — what a search sees of one file;
* `search_congr` — two graphs that look alike at every file that a search enters lead it
  to the same outcome.
-/

/-! ### One file at a time -/

/-- With nothing left to look at, the search is over. -/
theorem search_nil (g : ImportGraph) (limit : Option Int) (visited routes : NameSet) :
    search g limit [] visited routes = ⟨visited, routes⟩ := by
  rw [search]

/-- Beyond the depth limit the search is over as soon as a route has been found. -/
theorem search_of_stops {g : ImportGraph} {limit : Option Int} {file : String} {depth : Nat}
    {routes : NameSet} (hs : stops limit routes depth = true) (rest : List (String × Nat))
    (visited : NameSet) :
    search g limit ((file, depth) :: rest) visited routes = ⟨visited, routes⟩ := by
  rw [search, if_pos hs]

/-- A file without a node is passed over. -/
theorem search_of_none {g : ImportGraph} {limit : Option Int} {file : String} {depth : Nat}
    {routes : NameSet} (hs : stops limit routes depth = false) (hn : g.node? file = none)
    (rest : List (String × Nat)) (visited : NameSet) :
    search g limit ((file, depth) :: rest) visited routes =
      search g limit rest visited routes := by
  rw [search, if_neg (by simp [hs])]
  split
  · rfl
  · next h => rw [hn] at h; cases h

/-- A file with a node adds its routes, and its importers are entered. -/
theorem search_of_some {g : ImportGraph} {limit : Option Int} {file : String} {depth : Nat}
    {routes : NameSet} {n : GraphNode} (hs : stops limit routes depth = false)
    (hn : g.node? file = some n) (rest : List (String × Nat)) (visited : NameSet) :
    search g limit ((file, depth) :: rest) visited routes =
      search g limit (rest ++ (fresh n visited).map (·, depth + 1))
        ((fresh n visited).foldl NameSet.insert visited)
        ((ownRoutes g file n).foldl NameSet.insert routes) := by
  rw [search, if_neg (by simp [hs])]
  split
  · next h => rw [hn] at h; cases h
  · next m h =>
    rw [hn] at h
    cases h
    rfl

/-- The importers that are entered at a file are those that were not entered before. -/
theorem mem_fresh {n : GraphNode} {visited : NameSet} {x : String} :
    x ∈ fresh n visited ↔ x ∈ n.importedBy ∧ x ∉ visited := by
  simp [fresh, NameSet.mem_def]

/-- After a file was looked at, its importers have been entered. -/
theorem mem_enter {n : GraphNode} {visited : NameSet} {x : String} :
    x ∈ (fresh n visited).foldl NameSet.insert visited ↔ x ∈ n.importedBy ∨ x ∈ visited := by
  rw [NameSet.mem_foldl_insert, mem_fresh]
  by_cases hx : x ∈ visited <;> simp [hx]

/-- The search keeps what it has entered. -/
theorem mem_search_visited (g : ImportGraph) (limit : Option Int) (queue : List (String × Nat))
    (visited routes : NameSet) {x : String} (hx : x ∈ visited) :
    x ∈ (search g limit queue visited routes).visited := by
  fun_induction search g limit queue visited routes with
  | case1 => exact hx
  | case2 => exact hx
  | case3 _ _ _ _ _ _ _ ih => exact ih hx
  | case4 _ _ _ _ _ _ n _ ih => exact ih (mem_enter.2 (Or.inr hx))

theorem mem_searchFrom_self (g : ImportGraph) (limit : Option Int) (file : String) :
    file ∈ (searchFrom g limit file).visited :=
  mem_search_visited g limit _ _ _ (by simp)

/-! ### What a search sees -/

/-- What a search sees of a file: nothing, or its importers and the routes it adds. -/
def view (g : ImportGraph) (file : String) : Option (NameSet × List String) :=
  (g.node? file).map fun n => (n.importedBy, ownRoutes g file n)

theorem view_of_none {g : ImportGraph} {file : String} (h : g.node? file = none) :
    view g file = none := by
  simp [view, h]

theorem view_of_some {g : ImportGraph} {file : String} {n : GraphNode}
    (h : g.node? file = some n) : view g file = some (n.importedBy, ownRoutes g file n) := by
  simp [view, h]

/-- Nodes with the same importers enter the same files. -/
theorem fresh_congr {n m : GraphNode} (h : n.importedBy = m.importedBy) (visited : NameSet) :
    fresh n visited = fresh m visited := by
  rw [fresh, fresh, h]

/-- **Locality.** A search depends on nothing but the views of the files it enters. -/
theorem search_congr {g g' : ImportGraph} (limit : Option Int) (queue : List (String × Nat))
    (visited routes : NameSet) (hq : ∀ e ∈ queue, e.1 ∈ visited)
    (h : ∀ x ∈ (search g limit queue visited routes).visited, view g x = view g' x) :
    search g' limit queue visited routes = search g limit queue visited routes := by
  fun_induction search g limit queue visited routes with
  | case1 visited routes => rw [search_nil]
  | case2 visited routes file depth rest hs => rw [search_of_stops hs]
  | case3 visited routes file depth rest hs hn ih =>
    have hs' : stops limit routes depth = false := by simpa using hs
    have hfile : file ∈ visited := hq (file, depth) (by simp)
    have hview := h file (mem_search_visited g limit rest visited routes hfile)
    have hn' : g'.node? file = none := by
      rw [view_of_none hn] at hview
      cases hm : g'.node? file with
      | none => rfl
      | some m => rw [view_of_some hm] at hview; cases hview
    rw [search_of_none hs' hn']
    exact ih (fun e he => hq e (by simp [he])) h
  | case4 visited routes file depth rest hs n hn ih =>
    have hs' : stops limit routes depth = false := by simpa using hs
    have hfile : file ∈ visited := hq (file, depth) (by simp)
    have hview := h file (mem_search_visited g limit _ _ _ (mem_enter.2 (Or.inr hfile)))
    rw [view_of_some hn] at hview
    cases hm : g'.node? file with
    | none => rw [view_of_none hm] at hview; cases hview
    | some m =>
      rw [view_of_some hm, Option.some.injEq, Prod.mk.injEq] at hview
      obtain ⟨himporters, hroutes⟩ := hview
      rw [search_of_some hs' hm, ← fresh_congr himporters, ← hroutes]
      refine ih ?_ h
      -- what waits now was waiting before or has just been entered
      intro e he
      rw [mem_enter]
      rcases List.mem_append.1 he with hold | hnew
      · exact Or.inr (hq e (by simp [hold]))
      · obtain ⟨x, hx, rfl⟩ := List.mem_map.1 hnew
        exact Or.inl (mem_fresh.1 hx).1

/-- Two graphs that look alike at every file entered from `file` give one answer. -/
theorem searchFrom_congr {g g' : ImportGraph} {limit : Option Int} {file : String}
    (h : ∀ x ∈ (searchFrom g limit file).visited, view g x = view g' x) :
    searchFrom g' limit file = searchFrom g limit file :=
  search_congr limit [(file, 0)] _ _ (by simp) h

end RouteImpact.Impact
