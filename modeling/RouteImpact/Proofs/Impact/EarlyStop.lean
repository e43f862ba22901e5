import RouteImpact.Proofs.Graph.Reflection
import RouteImpact.Proofs.Impact.Layers

namespace RouteImpact.Impact

open Relation (ReflTransGen)

/-!
# What a depth limit leaves of an answer

A search with a depth limit looks at the files in the same order as one without, and stops
somewhere.  So the order is described first, by itself, and then where the search stops.

* `order` — files first in, first out, the importers of each in order, with their depths;
  `mem_orderFrom` says that the depth of a file is its distance, `pairwise_order` that nearer
  files come first;
* `collect` — the routes of a list of files, up to where a search would stop;
  `routes_search` says that a search collects along the order;
* `Divided.mem_of_within`, `Divided.mem_of_not_within` — if there is a route within the limit,
  all files within the limit count; otherwise the first file that has routes counts, alone;
* `impactOf_limited` — the answer with a depth limit, in terms of distances and of the order.
-/

/-! ### The order of a search -/

/-- The files that wait and the files that they lead to, first in, first out, with their
depths.  The importers of a file come in order, and no file is entered twice. -/
def order (g : ImportGraph) (queue : List (String × Nat)) (visited : NameSet) :
    List (String × Nat) :=
  match queue with
  | [] => []
  | (file, depth) :: rest =>
    match _h : g.node? file with
    | none => (file, depth) :: order g rest visited
    | some n =>
      (file, depth) :: order g (rest ++ (fresh n visited).map (·, depth + 1))
        ((fresh n visited).foldl NameSet.insert visited)
termination_by ((importers g).sdiff visited).size + queue.length
decreasing_by
  · simp only [List.length_cons]
    omega
  · have := measure_lt visited _h
    simp only [List.length_append, List.length_map, List.length_cons]
    omega

/-- The order of a search that starts at a file. -/
def orderFrom (g : ImportGraph) (file : String) : List (String × Nat) :=
  order g [(file, 0)] (NameSet.empty.insert file)

/-- How many steps over importers lead to a file at the least. -/
def Distance (g : ImportGraph) (start : String) (n : Nat) (x : String) : Prop :=
  Walk g start n x ∧ ∀ m < n, ¬ Walk g start m x

section Order

variable {g : ImportGraph} {start file : String} {queue : List (String × Nat)}
  {visited : NameSet}

/-- How the queue of a search from `start` stands while the order is made. -/
def Underway (g : ImportGraph) (start : String) (queue : List (String × Nat))
    (visited : NameSet) : Prop :=
  (∃ routes, Progress g start queue visited routes) ∧ InLayers g start queue visited

theorem underway_start (g : ImportGraph) (start : String) :
    Underway g start [(start, 0)] (NameSet.empty.insert start) :=
  ⟨⟨_, progress_start g start⟩, 0, [start], [], rfl, layered_start g start⟩

theorem Underway.head {depth : Nat} {rest : List (String × Nat)}
    (h : Underway g start ((file, depth) :: rest) visited) :
    ∃ present next, rest = waiting depth present next ∧
      Layered g start depth (file :: present) next visited := by
  obtain ⟨⟨routes, hprogress⟩, hlayers⟩ := h
  exact hlayers.head hprogress

/-- **Step.** Passing over a file without a node. -/
theorem Underway.skip {depth : Nat} {rest : List (String × Nat)}
    (h : Underway g start ((file, depth) :: rest) visited) (hn : g.node? file = none) :
    Underway g start rest visited := by
  obtain ⟨present, next, rfl, hlayered⟩ := h.head
  obtain ⟨routes, hprogress⟩ := h.1
  exact ⟨⟨routes, hprogress.skip hn⟩, depth, present, next, rfl, hlayered.skip⟩

/-- **Step.** Looking at a file with a node. -/
theorem Underway.look {depth : Nat} {rest : List (String × Nat)} {n : GraphNode}
    (h : Underway g start ((file, depth) :: rest) visited) (hn : g.node? file = some n) :
    Underway g start (rest ++ (fresh n visited).map (·, depth + 1))
      ((fresh n visited).foldl NameSet.insert visited) := by
  obtain ⟨present, next, rfl, hlayered⟩ := h.head
  obtain ⟨routes, hprogress⟩ := h.1
  exact ⟨⟨_, hprogress.look hn⟩, depth, present, next ++ fresh n visited, by simp [waiting],
    hlayered.look n⟩

/-- No file comes before its distance. -/
theorem not_walk_of_mem_order (h : Underway g start queue visited) {x : String} {n : Nat}
    (hx : (x, n) ∈ order g queue visited) : ∀ m < n, ¬ Walk g start m x := by
  have hhead : ∀ {depth : Nat} {rest : List (String × Nat)} {file : String} {visited : NameSet},
      Underway g start ((file, depth) :: rest) visited → (x, n) = (file, depth) →
        ∀ m < n, ¬ Walk g start m x := by
    intro depth rest file visited h heq m hm hwalk
    cases heq
    obtain ⟨present, next, -, hlayered⟩ := h.head
    exact hlayered.passed m hm x hwalk (by simp)
  fun_induction order g queue visited with
  | case1 => cases hx
  | case2 visited file depth rest hn ih =>
    rcases List.mem_cons.1 hx with heq | hmem
    · exact hhead h heq
    · exact ih (h.skip hn) hmem
  | case3 visited file depth rest n hn ih =>
    rcases List.mem_cons.1 hx with heq | hmem
    · exact hhead h heq
    · exact ih (h.look hn) hmem

/-- Files with a node are reached in as many steps as their depth says. -/
theorem walk_of_mem_order
    (h : ∀ e ∈ queue, (g.node? e.1).isSome = true → Walk g start e.2 e.1) :
    ∀ e ∈ order g queue visited, (g.node? e.1).isSome = true → Walk g start e.2 e.1 := by
  fun_induction order g queue visited with
  | case1 => exact h
  | case2 visited file depth rest hn ih =>
    exact List.forall_mem_cons.2 ⟨h _ (by simp), ih fun e he => h e (by simp [he])⟩
  | case3 visited file depth rest n hn ih =>
    refine List.forall_mem_cons.2 ⟨h _ (by simp), ih fun e he hsome => ?_⟩
    rcases List.mem_append.1 he with hold | hnew
    · exact h e (by simp [hold]) hsome
    · -- an importer that is entered here is one step further than the file
      obtain ⟨y, hy, rfl⟩ := List.mem_map.1 hnew
      have himporter : y ∈ g.importersOf file := by
        rw [ImportGraph.importersOf_of_node? hn]
        exact (mem_fresh.1 hy).1
      exact (h (file, depth) (by simp) (by simp [hn])).step ⟨himporter, hsome⟩

theorem mem_order_of_mem_queue {e : String × Nat} (h : e ∈ queue) :
    e ∈ order g queue visited := by
  fun_induction order g queue visited with
  | case1 => exact h
  | case2 visited file depth rest hn ih =>
    exact List.mem_cons.2 ((List.mem_cons.1 h).imp id ih)
  | case3 visited file depth rest n hn ih =>
    exact List.mem_cons.2 ((List.mem_cons.1 h).imp id fun hrest =>
      ih (List.mem_append_left _ hrest))

/-- What an unlimited search enters is in the order, if it was not entered before. -/
theorem mem_order_of_mem_search {routes : NameSet} {x : String}
    (h : x ∈ (search g none queue visited routes).visited) :
    x ∈ visited ∨ x ∈ (order g queue visited).map Prod.fst := by
  fun_induction order g queue visited generalizing routes with
  | case1 visited =>
    rw [search_nil] at h
    exact Or.inl h
  | case2 visited file depth rest hn ih =>
    rw [search_of_none (by simp [stops]) hn] at h
    exact (ih h).imp id (List.mem_cons_of_mem file)
  | case3 visited file depth rest n hn ih =>
    rw [search_of_some (by simp [stops]) hn] at h
    rcases ih h with hentered | hlater
    · -- an importer that is entered here waits, and what waits comes later
      by_cases hold : x ∈ visited
      · exact Or.inl hold
      · have hfresh : x ∈ fresh n visited :=
          mem_fresh.2 ⟨(mem_enter.1 hentered).resolve_right hold, hold⟩
        have hqueue : (x, depth + 1) ∈ rest ++ (fresh n visited).map (·, depth + 1) :=
          List.mem_append_right _ (List.mem_map.2 ⟨x, hfresh, rfl⟩)
        exact Or.inr (List.mem_cons_of_mem file
          (List.mem_map.2 ⟨_, mem_order_of_mem_queue hqueue, rfl⟩))
    · exact Or.inr (List.mem_cons_of_mem file hlater)

/-- **The depth of a file in the order is its distance**, and every file that is reached is
in the order. -/
theorem mem_orderFrom {x : String} {n : Nat} (hx : (g.node? x).isSome = true) :
    (x, n) ∈ orderFrom g start ↔ Distance g start n x := by
  have hsound : ∀ m, (x, m) ∈ orderFrom g start → Distance g start m x := by
    intro m hm
    refine ⟨walk_of_mem_order ?_ (x, m) hm hx, not_walk_of_mem_order (underway_start g start) hm⟩
    intro e he _
    rw [List.mem_singleton.1 he]
    exact .here
  refine ⟨hsound n, fun hdistance => ?_⟩
  -- the file has a place in the order, and two distances of one file are equal
  have hentered : x ∈ (searchFrom g none start).visited :=
    (progress_search _ _ _ (progress_start g start)).entered_of_reached hdistance.1.reached
  obtain ⟨m, hm⟩ : ∃ m, (x, m) ∈ orderFrom g start := by
    rcases mem_order_of_mem_search hentered with hstart | hlater
    · have hx : x = start := by simpa using hstart
      exact ⟨0, hx ▸ mem_order_of_mem_queue (List.mem_singleton.2 rfl)⟩
    · obtain ⟨⟨y, m⟩, hm, rfl⟩ := List.mem_map.1 hlater
      exact ⟨m, hm⟩
  obtain rfl : m = n := by
    rcases Nat.lt_trichotomy m n with hlt | heq | hgt
    · exact absurd (hsound m hm).1 (hdistance.2 m hlt)
    · exact heq
    · exact absurd hdistance.1 ((hsound m hm).2 n hgt)
  exact hm

theorem le_of_mem_order {depth : Nat} (h : ∀ e ∈ queue, depth ≤ e.2) :
    ∀ e ∈ order g queue visited, depth ≤ e.2 := by
  fun_induction order g queue visited with
  | case1 => exact h
  | case2 visited file level rest hn ih =>
    exact List.forall_mem_cons.2 ⟨h _ (by simp), ih fun e he => h e (by simp [he])⟩
  | case3 visited file level rest n hn ih =>
    have hlevel : depth ≤ level := h (file, level) (by simp)
    refine List.forall_mem_cons.2 ⟨hlevel, ih fun e he => ?_⟩
    rcases List.mem_append.1 he with hold | hnew
    · exact h e (by simp [hold])
    · obtain ⟨y, -, rfl⟩ := List.mem_map.1 hnew
      exact Nat.le_succ_of_le hlevel

/-- What waits in two layers is at their depths. -/
theorem le_of_mem_waiting {depth : Nat} {present next : List String} :
    ∀ e ∈ waiting depth present next, depth ≤ e.2 := by
  intro e he
  rcases List.mem_append.1 he with hpresent | hnext
  · obtain ⟨y, -, rfl⟩ := List.mem_map.1 hpresent
    exact Nat.le_refl depth
  · obtain ⟨y, -, rfl⟩ := List.mem_map.1 hnext
    exact Nat.le_succ depth

/-- **Nearer files come first.** -/
theorem pairwise_order (h : Underway g start queue visited) :
    (order g queue visited).Pairwise fun a b => a.2 ≤ b.2 := by
  fun_induction order g queue visited with
  | case1 => exact List.Pairwise.nil
  | case2 visited file depth rest hn ih =>
    obtain ⟨present, next, rfl, -⟩ := h.head
    exact List.pairwise_cons.2 ⟨le_of_mem_order le_of_mem_waiting, ih (h.skip hn)⟩
  | case3 visited file depth rest n hn ih =>
    obtain ⟨present, next, rfl, -⟩ := h.head
    refine List.pairwise_cons.2 ⟨le_of_mem_order fun e he => ?_, ih (h.look hn)⟩
    rcases List.mem_append.1 he with hold | hnew
    · exact le_of_mem_waiting e hold
    · obtain ⟨y, -, rfl⟩ := List.mem_map.1 hnew
      exact Nat.le_succ depth

end Order

/-! ### Collecting along the order -/

/-- The routes of files in turn, up to the file before which a search stops. -/
def collect (g : ImportGraph) (limit : Option Int) : List (String × Nat) → NameSet → NameSet
  | [], routes => routes
  | (file, depth) :: rest, routes =>
    if stops limit routes depth then routes
    else collect g limit rest ((routesAt g file).foldl NameSet.insert routes)

/-- **A search collects along the order**, whatever its limit. -/
theorem routes_search (g : ImportGraph) (limit : Option Int) (queue : List (String × Nat))
    (visited routes : NameSet) :
    (search g limit queue visited routes).routes =
      collect g limit (order g queue visited) routes := by
  fun_induction order g queue visited generalizing routes with
  | case1 visited => rw [search_nil, collect]
  | case2 visited file depth rest hn ih =>
    cases hs : stops limit routes depth with
    | true => rw [search_of_stops hs, collect, if_pos hs]
    | false =>
      rw [search_of_none hs hn, collect, if_neg (by simp [hs]), ih]
      simp [routesAt, hn]
  | case3 visited file depth rest n hn ih =>
    cases hs : stops limit routes depth with
    | true => rw [search_of_stops hs, collect, if_pos hs]
    | false =>
      rw [search_of_some hs hn, collect, if_neg (by simp [hs]), ih]
      simp [routesAt, hn]

/-- Whether a file is a route file whose fact has a route. -/
def productive (g : ImportGraph) (file : String) : Bool :=
  match g.node? file, g.fact? file with
  | some n, some fact => n.isRouteFile && !fact.routePaths.isEmpty
  | _, _ => false

theorem mem_routesAt {g : ImportGraph} {x r : String} : r ∈ routesAt g x ↔ Declares g x r := by
  unfold routesAt
  cases hn : g.node? x with
  | none => simp [Declares, hn]
  | some n => exact mem_ownRoutes_iff_declares hn

theorem productive_iff {g : ImportGraph} {x : String} :
    productive g x = true ↔ ∃ r, Declares g x r := by
  unfold productive Declares
  cases hn : g.node? x with
  | none => simp
  | some n =>
    cases hf : g.fact? x with
    | none => simp
    | some fact =>
      cases hroutes : fact.routePaths with
      | nil => simp [hroutes]
      | cons r rest => simp [hroutes]

theorem routesAt_of_not_productive {g : ImportGraph} {x : String}
    (h : productive g x = false) : routesAt g x = [] := by
  refine List.eq_nil_iff_forall_not_mem.2 fun r hr => ?_
  rw [productive_iff.2 ⟨r, mem_routesAt.1 hr⟩] at h
  cases h

/-- The routes of all the files of a list, added to others. -/
def gather (g : ImportGraph) (files : List (String × Nat)) (routes : NameSet) : NameSet :=
  (files.flatMap fun e => routesAt g e.1).foldl NameSet.insert routes

theorem mem_gather {g : ImportGraph} {files : List (String × Nat)} {r : String} :
    r ∈ gather g files NameSet.empty ↔ ∃ e ∈ files, Declares g e.1 r := by
  simp [gather, NameSet.mem_foldl_insert, mem_routesAt]

section Collect

variable {g : ImportGraph} {d : Int} {near far : List (String × Nat)}

/-- Within the limit a search never stops. -/
theorem collect_near (hnear : ∀ e ∈ near, (e.2 : Int) ≤ d) (far : List (String × Nat))
    (routes : NameSet) :
    collect g (some d) (near ++ far) routes = collect g (some d) far (gather g near routes) := by
  induction near generalizing routes with
  | nil => rfl
  | cons e near ih =>
    have hstops : stops (some d) routes e.2 = false := by
      have he : (e.2 : Int) ≤ d := hnear e (by simp)
      simp [stops, Int.not_lt.2 he]
    rw [List.cons_append, collect, if_neg (by simp [hstops]),
      ih fun e he => hnear e (List.mem_cons_of_mem _ he), gather, gather, List.flatMap_cons,
      List.foldl_append]

/-- Beyond the limit a search stops as soon as it has a route. -/
theorem collect_of_found (hfar : ∀ e ∈ far, d < (e.2 : Int)) {routes : NameSet}
    (hfound : routes.isEmpty = false) : collect g (some d) far routes = routes := by
  cases far with
  | nil => rfl
  | cons e far =>
    have he : d < (e.2 : Int) := hfar e (by simp)
    rw [collect, if_pos (by simp [stops, hfound, he])]

/-- Beyond the limit a search that has no route yet takes those of the first file that has
any. -/
theorem collect_far (hfar : ∀ e ∈ far, d < (e.2 : Int)) :
    collect g (some d) far NameSet.empty =
      (far.find? fun e => productive g e.1).elim NameSet.empty
        fun e => NameSet.ofList (routesAt g e.1) := by
  induction far with
  | nil => rfl
  | cons e far ih =>
    have hrest : ∀ e ∈ far, d < (e.2 : Int) := fun e he => hfar e (List.mem_cons_of_mem _ he)
    rw [collect, if_neg (by simp [stops, NameSet.isEmpty, NameSet.empty])]
    cases hproductive : productive g e.1 with
    | false =>
      rw [routesAt_of_not_productive hproductive, List.foldl_nil, ih hrest,
        List.find?_cons_of_neg (by simp [hproductive])]
    | true =>
      rw [List.find?_cons_of_pos (by simpa using hproductive)]
      refine collect_of_found hrest ?_
      obtain ⟨r, hr⟩ := productive_iff.1 hproductive
      rw [Bool.eq_false_iff]
      exact fun hempty => NameSet.isEmpty_iff.1 hempty r
        ((NameSet.mem_foldl_insert _ _).2 (Or.inl (mem_routesAt.2 hr)))

end Collect

/-! ### The answer -/

/-- A file that is at most `d` steps away. -/
def Within (g : ImportGraph) (start : String) (d : Int) (x : String) : Prop :=
  ∃ n : Nat, (n : Int) ≤ d ∧ Distance g start n x

/-- The order of a search, divided where the limit is passed. -/
structure Divided (g : ImportGraph) (file : String) (d : Int) (near far : List (String × Nat)) :
    Prop where
  whole : orderFrom g file = near ++ far
  near : ∀ e ∈ near, (e.2 : Int) ≤ d
  far : ∀ e ∈ far, d < (e.2 : Int)

theorem exists_divided (g : ImportGraph) (file : String) (d : Int) :
    ∃ near far, Divided g file d near far := by
  have hsplit : ∀ files : List (String × Nat), (files.Pairwise fun a b => a.2 ≤ b.2) →
      ∃ near far, files = near ++ far ∧ (∀ e ∈ near, (e.2 : Int) ≤ d) ∧
        ∀ e ∈ far, d < (e.2 : Int) := by
    intro files h
    induction files with
    | nil => exact ⟨[], [], rfl, by simp, by simp⟩
    | cons e files ih =>
      rw [List.pairwise_cons] at h
      by_cases he : (e.2 : Int) ≤ d
      · obtain ⟨near, far, rfl, hnear, hfar⟩ := ih h.2
        exact ⟨e :: near, far, rfl, List.forall_mem_cons.2 ⟨he, hnear⟩, hfar⟩
      · -- all that follows is at least as deep
        refine ⟨[], e :: files, rfl, by simp, List.forall_mem_cons.2 ⟨Int.not_le.1 he, ?_⟩⟩
        intro x hx
        have := h.1 x hx
        omega
  obtain ⟨near, far, hwhole, hnear, hfar⟩ := hsplit _ (pairwise_order (underway_start g file))
  exact ⟨near, far, hwhole, hnear, hfar⟩

namespace Divided

variable {g : ImportGraph} {file : String} {d : Int} {near far : List (String × Nat)}

theorem fst_impactOf (h : Divided g file d near far) :
    (ImpactCache.empty.impactOf g (some d) file).1 =
      (collect g (some d) far (gather g near NameSet.empty)).toList := by
  have hroutes : (searchFrom g (some d) file).routes =
      collect g (some d) (orderFrom g file) NameSet.empty := routes_search ..
  rw [fst_impactOf_empty, hroutes, h.whole, collect_near h.near]

/-- The files with routes in the first part are those within the limit. -/
theorem mem_near_iff (h : Divided g file d near far) {x : String}
    (hx : productive g x = true) : (∃ n, (x, n) ∈ near) ↔ Within g file d x := by
  obtain ⟨r, n, fact, hn, -⟩ := productive_iff.1 hx
  have horder : ∀ n, (x, n) ∈ near ++ far ↔ Distance g file n x := by
    intro n
    rw [← h.whole]
    exact mem_orderFrom (by simp [hn])
  constructor
  · rintro ⟨n, hnear⟩
    exact ⟨n, h.near _ hnear, (horder n).1 (List.mem_append_left far hnear)⟩
  · rintro ⟨n, hle, hdistance⟩
    refine ⟨n, (List.mem_append.1 ((horder n).2 hdistance)).resolve_right fun hfar => ?_⟩
    exact Int.not_lt.2 hle (h.far _ hfar)

theorem mem_gather_near (h : Divided g file d near far) {r : String} :
    r ∈ gather g near NameSet.empty ↔ ∃ x, Within g file d x ∧ Declares g x r := by
  rw [mem_gather]
  constructor
  · rintro ⟨⟨x, n⟩, he, hr⟩
    exact ⟨x, (h.mem_near_iff (productive_iff.2 ⟨r, hr⟩)).1 ⟨n, he⟩, hr⟩
  · rintro ⟨x, hx, hr⟩
    obtain ⟨n, hn⟩ := (h.mem_near_iff (productive_iff.2 ⟨r, hr⟩)).2 hx
    exact ⟨(x, n), hn, hr⟩

/-- **A route within the limit**: all files within the limit count, and no other. -/
theorem mem_of_within (h : Divided g file d near far) {x : String}
    (hx : productive g x = true) (hwithin : Within g file d x) (r : String) :
    r ∈ (ImpactCache.empty.impactOf g (some d) file).1 ↔
      ∃ x, Within g file d x ∧ Declares g x r := by
  obtain ⟨s, hs⟩ := productive_iff.1 hx
  have hfound : (gather g near NameSet.empty).isEmpty = false := by
    rw [Bool.eq_false_iff]
    exact fun hempty => NameSet.isEmpty_iff.1 hempty s (h.mem_gather_near.2 ⟨x, hwithin, hs⟩)
  rw [h.fst_impactOf, collect_of_found h.far hfound, ← NameSet.mem_def, h.mem_gather_near]

/-- **No route within the limit**: the first file with routes counts, alone. -/
theorem mem_of_not_within (h : Divided g file d near far)
    (hnone : ∀ x, productive g x = true → ¬ Within g file d x) (r : String) :
    r ∈ (ImpactCache.empty.impactOf g (some d) file).1 ↔
      ∃ x n, (orderFrom g file).find? (fun e => productive g e.1) = some (x, n) ∧
        Declares g x r := by
  have hgather : gather g near NameSet.empty = NameSet.empty := by
    ext r
    rw [h.mem_gather_near]
    simp only [NameSet.not_mem_empty, iff_false]
    rintro ⟨x, hwithin, hr⟩
    exact hnone x (productive_iff.2 ⟨r, hr⟩) hwithin
  have hnear : near.find? (fun e => productive g e.1) = none := by
    rw [List.find?_eq_none]
    rintro ⟨x, n⟩ he hproductive
    exact hnone x hproductive ((h.mem_near_iff hproductive).1 ⟨n, he⟩)
  rw [h.fst_impactOf, hgather, collect_far h.far, h.whole, List.find?_append, hnear,
    Option.none_or]
  cases far.find? (fun e => productive g e.1) with
  | none => simp [NameSet.empty]
  | some e =>
    obtain ⟨x, n⟩ := e
    simp [← NameSet.mem_def, mem_routesAt]

end Divided

/-- **Early termination.**  With a depth limit and nothing remembered, the answer for a file is
strictly sorted.  If a file with routes is within the limit, it holds exactly the routes of
the files within the limit.  Otherwise it holds exactly the routes of one file: the first in
the order of the search that has any.  It is empty if no file with routes is reached. -/
theorem impactOf_limited (g : ImportGraph) (file : String) (d : Int) :
    let answer := (ImpactCache.empty.impactOf g (some d) file).1
    answer.Pairwise (· < ·) ∧
      ((∃ x, productive g x = true ∧ Within g file d x) →
        ∀ r, r ∈ answer ↔ ∃ x, Within g file d x ∧ Declares g x r) ∧
      ((∀ x, productive g x = true → ¬ Within g file d x) →
        ∀ r, r ∈ answer ↔ ∃ x n,
          (orderFrom g file).find? (fun e => productive g e.1) = some (x, n) ∧
            Declares g x r) ∧
      ((∀ x, ReflTransGen (ImporterStep g) file x → productive g x = false) → answer = []) := by
  intro answer
  obtain ⟨near, far, hdivided⟩ := exists_divided g file d
  refine ⟨?_, ?_, hdivided.mem_of_not_within, ?_⟩
  · simp only [answer, fst_impactOf_empty]
    exact (searchFrom g (some d) file).routes.sorted
  · rintro ⟨x, hx, hwithin⟩
    exact hdivided.mem_of_within hx hwithin
  · intro hnone
    refine List.eq_nil_iff_forall_not_mem.2 fun r hr => ?_
    simp only [answer, fst_impactOf_empty, ← NameSet.mem_def] at hr
    obtain ⟨x, hreached, hdeclares⟩ := declares_of_mem_routes hr
    have hx := hnone x hreached
    rw [productive_iff.2 ⟨r, hdeclares⟩] at hx
    cases hx

/-- A file that is imported by another, and this one by two route files. -/
def forkGraph : ImportGraph where
  nodes := OrderedMap.ofList
    [("leaf", { importedBy := NameSet.ofList ["shared"] }),
     ("shared", { importedBy := NameSet.ofList ["shop", "blog"] }),
     ("shop", { isRouteFile := true }), ("blog", { isRouteFile := true })]
  facts := OrderedMap.ofList (["shop", "blog"].map fun file =>
    (file,
      { path := file
        routes := [{ path := "/" ++ file, component := "C", declaringFile := file, line := 1 }]
        lastSeenAt := Number.Binary64.zero }))

-- both route files are two steps away: with a smaller limit only the first of them counts
example : (ImpactCache.empty.impactOf forkGraph (some 1) "leaf").1 = ["/blog"] ∧
    (ImpactCache.empty.impactOf forkGraph (some 2) "leaf").1 = ["/blog", "/shop"] := by
  decide +kernel

end RouteImpact.Impact
