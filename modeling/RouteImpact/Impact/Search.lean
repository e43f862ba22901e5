import RouteImpact.Graph.Basic

namespace RouteImpact.Impact

/-!
# Searching for affected routes

A change to a file affects the routes of every file that imports it, directly or
through others.  The search goes from a file to its importers, nearer files first
and the importers of one file in order, and collects the routes of the route
files it meets.

A depth limit makes it stop early: once a route has been found, no file beyond
the limit is looked at.  Every file is entered at most once, so the search ends;
the measure counts the files that still wait and the importers not yet seen.
-/

/-- What a search has found. -/
structure Outcome where
  /-- Every file that was entered, looked at or not. -/
  visited : NameSet
  routes : NameSet
deriving Repr, DecidableEq

/-- Every file that imports some other. -/
def importers (g : ImportGraph) : NameSet :=
  NameSet.ofList (g.nodes.values.flatMap (·.importedBy.toList))

/-- The routes that a file adds: those of its fact when it is a route file. -/
def ownRoutes (g : ImportGraph) (file : String) (n : GraphNode) : List String :=
  if n.isRouteFile then (g.fact? file).elim [] (·.routePaths) else []

/-- Whether the search ends before a file at this depth. -/
def stops (limit : Option Int) (routes : NameSet) (depth : Nat) : Bool :=
  !routes.isEmpty && limit.any (· < (depth : Int))

/-- The importers of a node that have not been entered. -/
def fresh (n : GraphNode) (visited : NameSet) : List String :=
  n.importedBy.toList.filter fun f => !decide (f ∈ visited)

/-! ### Why the search ends -/

theorem length_filter_lt {p q : String → Bool} {x : String} {xs : List String}
    (hpq : ∀ y, p y = true → q y = true) (hx : x ∈ xs) (hq : q x = true) (hp : p x = false) :
    (xs.filter p).length + 1 ≤ (xs.filter q).length := by
  have mono : ∀ ys : List String, (ys.filter p).length ≤ (ys.filter q).length := by
    intro ys
    induction ys with
    | nil => simp
    | cons y ys ih => grind
  induction xs with
  | nil => simp at hx
  | cons y ys ih =>
    rcases List.mem_cons.1 hx with rfl | hy
    · have := mono ys
      simp only [List.filter_cons, hp, hq]
      simp
      omega
    · have := ih hy
      grind

/-- Entering a file leaves fewer importers unseen. -/
theorem size_sdiff_insert {all visited : NameSet} {x : String} (hx : x ∈ all) (hv : x ∉ visited) :
    (all.sdiff (visited.insert x)).size + 1 ≤ (all.sdiff visited).size := by
  apply length_filter_lt (x := x) _ hx
  · simpa using hv
  · simp
  · intro y hy
    simp only [NameSet.mem_insert, not_or, Bool.not_eq_true', decide_eq_false_iff_not] at hy ⊢
    exact hy.2

/-- Entering several files leaves as many importers fewer unseen. -/
theorem size_sdiff_foldl {all : NameSet} (xs : List String) (visited : NameSet)
    (hall : ∀ x ∈ xs, x ∈ all) (hnew : ∀ x ∈ xs, x ∉ visited) (hnd : xs.Nodup) :
    (all.sdiff (xs.foldl NameSet.insert visited)).size + xs.length ≤ (all.sdiff visited).size := by
  induction xs generalizing visited with
  | nil => simp
  | cons x xs ih =>
    have hx := size_sdiff_insert (hall x (by simp)) (hnew x (by simp))
    have hnd' := List.nodup_cons.1 hnd
    have := ih (visited.insert x) (fun y hy => hall y (by simp [hy]))
      (by
        intro y hy
        simp only [NameSet.mem_insert, not_or]
        exact ⟨fun h => hnd'.1 (h ▸ hy), hnew y (by simp [hy])⟩)
      hnd'.2
    simp only [List.foldl_cons, List.length_cons]
    omega

theorem mem_importers {g : ImportGraph} {file x : String} {n : GraphNode}
    (h : g.node? file = some n) (hx : x ∈ n.importedBy) : x ∈ importers g := by
  have hv : n ∈ g.nodes.values := OrderedMap.mem_values_of_get? h
  simp only [importers, NameSet.mem_ofList, List.mem_flatMap]
  exact ⟨n, hv, hx⟩

/-- Looking at a file takes it off the queue; what it puts there was unseen. -/
theorem measure_lt {g : ImportGraph} {file : String} {n : GraphNode} (visited : NameSet)
    (h : g.node? file = some n) :
    ((importers g).sdiff ((fresh n visited).foldl NameSet.insert visited)).size +
      (fresh n visited).length ≤ ((importers g).sdiff visited).size := by
  apply size_sdiff_foldl
  · intro x hx
    exact mem_importers h (List.mem_filter.1 hx).1
  · intro x hx
    simpa using (List.mem_filter.1 hx).2
  · exact (n.importedBy.nodup).sublist List.filter_sublist

/-! ### The search -/

/-- Looks at the files of `queue`, each with its depth, and at what they lead to. -/
def search (g : ImportGraph) (limit : Option Int) (queue : List (String × Nat))
    (visited routes : NameSet) : Outcome :=
  match queue with
  | [] => ⟨visited, routes⟩
  | (file, depth) :: rest =>
    if stops limit routes depth then ⟨visited, routes⟩
    else
      match _h : g.node? file with
      | none => search g limit rest visited routes
      | some n =>
        search g limit (rest ++ (fresh n visited).map (·, depth + 1))
          ((fresh n visited).foldl NameSet.insert visited)
          ((ownRoutes g file n).foldl NameSet.insert routes)
termination_by ((importers g).sdiff visited).size + queue.length
decreasing_by
  · simp only [List.length_cons]
    omega
  · have := measure_lt visited _h
    simp only [List.length_append, List.length_map, List.length_cons]
    omega

/-- The search that starts at a file. -/
def searchFrom (g : ImportGraph) (limit : Option Int) (file : String) : Outcome :=
  search g limit [(file, 0)] (NameSet.empty.insert file) NameSet.empty

end RouteImpact.Impact
