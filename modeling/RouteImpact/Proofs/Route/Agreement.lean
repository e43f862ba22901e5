import RouteImpact.Proofs.Route.Trees

namespace RouteImpact.Route

open Syntax Source

/-!
# Elements and objects that write one tree

Written with elements, a tree of routes gives its routes in order: a node only counts for what
is inside of it by the path that it puts around.  Written with objects it gives what the visits
reach, one visit after the other.  A visit does not go into an object that is not taken for a
route, and a layout that names its component under the key `Component` is such an object.

* `RouteTree.visited`, `RouteTree.later` — what the visit of a tree gives, and what the visits
  give that begin inside of it;
* `RouteTree.unbroken` — no such layout comes between a route object and a route;
* `Markup.map_routes`, `Objects.map_routes` — what elements and objects give;
* `pairs_of_written` — that both give the routes of the tree, where it is unbroken.
-/

/-- The path of a route and its component. -/
def RouteDecl.pair (d : RouteDecl) : String × String := (d.path, d.component)

/-! ### Visits of a tree -/

mutual

/-- The routes that the visit of a tree gives: it ends at a head that is not taken for a
route. -/
def RouteTree.visited (parent : String) : RouteTree → List (String × String)
  | .node head children =>
    if head.qualifies then head.declared parent ++ visitedAll (head.inside parent) children
    else []

def RouteTree.visitedAll (parent : String) : List RouteTree → List (String × String)
  | [] => []
  | r :: rest => r.visited parent ++ visitedAll parent rest

end

mutual

/-- The routes that visits give that begin below the head of a tree. -/
def RouteTree.later : RouteTree → List (String × String)
  | .node head children => visits head.qualifies children

/-- The routes that visits of several trees give; where the trees were met by a visit before, only
the visits that begin below their heads count. -/
def RouteTree.visits (met : Bool) : List RouteTree → List (String × String)
  | [] => []
  | r :: rest => (if met then [] else r.visited "") ++ r.later ++ visits met rest

end

mutual

/-- Whether no object that is not taken for a route comes between one that is and a route. -/
def RouteTree.unbroken (inside : Bool) : RouteTree → Bool
  | .node head children =>
    if head.qualifies then areUnbroken true children
    else if inside then ((RouteTree.node head children).routes "").isEmpty
    else areUnbroken false children

def RouteTree.areUnbroken (inside : Bool) : List RouteTree → Bool
  | [] => true
  | r :: rest => r.unbroken inside && areUnbroken inside rest

end

namespace RouteTree

variable {head : RouteHead} {children : List RouteTree} {r : RouteTree}

theorem visitedAll_eq_flatMap (parent : String) (rs : List RouteTree) :
    visitedAll parent rs = rs.flatMap (visited parent) := by
  induction rs with
  | nil => rfl
  | cons r rest ih => rw [visitedAll, ih, List.flatMap_cons]

theorem visits_eq_flatMap (met : Bool) (rs : List RouteTree) :
    visits met rs = rs.flatMap fun r => (if met then [] else r.visited "") ++ r.later := by
  induction rs with
  | nil => rfl
  | cons r rest ih => rw [visits, ih, List.flatMap_cons]

theorem areUnbroken_iff {inside : Bool} {rs : List RouteTree} :
    areUnbroken inside rs = true ↔ ∀ r ∈ rs, r.unbroken inside = true := by
  induction rs with
  | nil => simp [areUnbroken]
  | cons r rest ih => simp [areUnbroken, ih]

theorem visited_node (parent : String) : (node head children).visited parent =
    if head.qualifies then
      head.declared parent ++ children.flatMap (visited (head.inside parent))
    else [] := by
  rw [visited, visitedAll_eq_flatMap]

theorem later_node : (node head children).later = children.flatMap fun c =>
    (if head.qualifies then [] else c.visited "") ++ c.later := by
  rw [later, visits_eq_flatMap]

/-- A head that is not taken for a route is a layout. -/
theorem place_of_not_qualifies (h : ¬ head.qualifies = true) : head.place = .layout := by
  simp only [RouteHead.qualifies, Bool.or_eq_true, bne_iff_ne, not_or, not_not] at h
  exact h.1

theorem ownPath?_of_not_qualifies (h : ¬ head.qualifies = true) : head.ownPath? = none := by
  rw [RouteHead.ownPath?, place_of_not_qualifies h]

theorem declared_of_not_qualifies (h : ¬ head.qualifies = true) (parent : String) :
    head.declared parent = [] := by
  rw [RouteHead.declared, ownPath?_of_not_qualifies h]
  rfl

theorem inside_of_not_qualifies (h : ¬ head.qualifies = true) (parent : String) :
    head.inside parent = parent := by
  rw [RouteHead.inside, ownPath?_of_not_qualifies h]
  rfl

/-- No route inside of a tree that has none at one path has any at another. -/
theorem routes_eq_nil {parent : String} (h : r.routes parent = []) (other : String) :
    r.routes other = [] := by
  induction r generalizing parent other with
  | node head children ih =>
    rw [routes_node, List.append_eq_nil_iff, List.flatMap_eq_nil_iff] at h ⊢
    obtain ⟨hdeclared, hchildren⟩ := h
    refine ⟨?_, fun c hc => ih c hc (hchildren c hc) _⟩
    simpa [RouteHead.declared] using hdeclared

theorem visited_of_routes_eq_nil {parent : String} (h : r.routes parent = []) :
    r.visited parent = [] := by
  induction r generalizing parent with
  | node head children ih =>
    rw [routes_node, List.append_eq_nil_iff, List.flatMap_eq_nil_iff] at h
    rw [visited_node]
    split
    · rw [h.1, List.nil_append, List.flatMap_eq_nil_iff]
      exact fun c hc => ih c hc (h.2 c hc)
    · rfl

theorem later_of_routes_eq_nil {parent : String} (h : r.routes parent = []) : r.later = [] := by
  induction r generalizing parent with
  | node head children ih =>
    rw [routes_node, List.append_eq_nil_iff, List.flatMap_eq_nil_iff] at h
    rw [later_node, List.flatMap_eq_nil_iff]
    intro c hc
    rw [ih c hc (h.2 c hc), visited_of_routes_eq_nil (routes_eq_nil (h.2 c hc) "")]
    simp

/-- Where nothing comes between, a visit from the head gives all routes, and no visit begins
below it. -/
theorem visited_of_unbroken (h : r.unbroken true = true) :
    (∀ parent, r.visited parent = r.routes parent) ∧ r.later = [] := by
  induction r with
  | node head children ih =>
    rw [unbroken] at h
    split at h
    · next hqualifies =>
      rw [areUnbroken_iff] at h
      constructor
      · intro parent
        rw [visited_node, routes_node, if_pos hqualifies]
        exact congrArg _ (List.flatMap_congr fun c hc => (ih c hc (h c hc)).1 _)
      · rw [later_node, List.flatMap_eq_nil_iff]
        intro c hc
        rw [(ih c hc (h c hc)).2, if_pos hqualifies, List.nil_append]
    · have hnone : (node head children).routes "" = [] := by simpa using h
      refine ⟨fun parent => ?_, later_of_routes_eq_nil hnone⟩
      have hparent := routes_eq_nil hnone parent
      rw [hparent, visited_of_routes_eq_nil hparent]

/-- **Visits give the routes of an unbroken tree**, in order. -/
theorem visits_of_unbroken (h : r.unbroken false = true) :
    r.visited "" ++ r.later = r.routes "" := by
  induction r with
  | node head children ih =>
    by_cases hqualifies : head.qualifies = true
    · have htrue : (node head children).unbroken true = true := by
        rw [unbroken, if_pos hqualifies] at h ⊢
        exact h
      obtain ⟨hvisited, hlater⟩ := visited_of_unbroken htrue
      rw [hvisited, hlater, List.append_nil]
    · rw [unbroken, if_neg hqualifies] at h
      have hchildren := areUnbroken_iff.1 h
      rw [visited_node, later_node, routes_node, if_neg hqualifies, List.nil_append,
        declared_of_not_qualifies hqualifies, inside_of_not_qualifies hqualifies, List.nil_append]
      refine List.flatMap_congr fun c hc => ?_
      rw [if_neg hqualifies, ih c hc (hchildren c hc)]

end RouteTree

/-! ### Elements -/

namespace Markup

/-- The routes of the elements that stand in a node, given what is around it. -/
def routesIn (file : String) (above : List Node) (n : Node) : List RouteDecl :=
  ((n.sites above).filter (isElement ·.node)).filterMap (route? file)

variable {file : String} {n : Node} {above : List Node}

theorem routesIn_eq (file : String) (above : List Node) (n : Node) : routesIn file above n =
    (if isElement n then (route? file ⟨n, above⟩).toList else []) ++
      n.children.flatMap (routesIn file (n :: above)) := by
  have hchildren : ((n.children.flatMap (Node.sites (n :: above))).filter
      (isElement ·.node)).filterMap (route? file) =
        n.children.flatMap (routesIn file (n :: above)) := by
    rw [List.filter_flatMap, List.filterMap_flatMap]
    rfl
  rw [routesIn, Node.sites_eq_cons, List.filter_cons]
  split
  · rw [List.filterMap_cons, hchildren]
    cases route? file ⟨n, above⟩ <;> rfl
  · exact hchildren

/-- Only the path around an element counts for its route. -/
theorem route?_congr {other : List Node} (h : parentPath above = parentPath other) :
    route? file ⟨n, above⟩ = route? file ⟨n, other⟩ := by
  rw [route?, route?, h]

theorem routesIn_congr (n : Node) {above other : List Node}
    (h : parentPath above = parentPath other) : routesIn file above n = routesIn file other n := by
  rw [routesIn_eq, routesIn_eq, route?_congr h]
  refine congrArg _ (List.flatMap_congr fun c hc => routesIn_congr c ?_)
  rw [parentPath_cons, parentPath_cons, h]
termination_by sizeOf n
decreasing_by exact Node.sizeOf_lt_of_mem hc

theorem attributes_of_not_marked (h : ¬ isMarked n = true) (helement : isElement n = true) :
    attributes n = [] := by
  simp only [isMarked, isElement, Bool.and_eq_true, Bool.not_eq_true', not_and,
    Bool.not_eq_false, List.isEmpty_iff] at h helement
  exact h helement.2

theorem parentPath_of_not_marked (h : ¬ isMarked n = true) :
    parentPath (n :: above) = parentPath above := by
  have hinside : pathInside? n = none := by
    unfold pathInside?
    split
    · next hkind =>
      have hattributes : attributes n = [] := by simpa [isMarked, hkind] using h
      rw [hattributes]
      rfl
    · rfl
  rw [parentPath_cons, hinside]
  rfl

/-- All routes stand in elements with attributes. -/
theorem routesIn_outermost (file : String) (above : List Node) (n : Node) :
    routesIn file above n = (n.outermost isMarked).flatMap (routesIn file above) := by
  rw [Node.outermost_eq]
  split
  · rw [List.flatMap_singleton]
  · next hmarked =>
    have hself : (if isElement n then (route? file ⟨n, above⟩).toList else []) = [] := by
      split
      · next helement =>
        rw [route?, attributes_of_not_marked hmarked helement]
        rfl
      · rfl
    rw [routesIn_eq, hself, List.nil_append, List.flatMap_assoc]
    refine List.flatMap_congr fun c hc => ?_
    rw [routesIn_congr c (parentPath_of_not_marked hmarked)]
    exact routesIn_outermost file above c
termination_by sizeOf n
decreasing_by exact Node.sizeOf_lt_of_mem hc

/-- **An element that writes a tree gives its routes.** -/
theorem map_routesIn (file : String) {r : RouteTree} (hr : r.isElement n = true)
    (above : List Node) : (routesIn file above n).map RouteDecl.pair =
      r.routes (parentPath above) := by
  induction r generalizing n above with
  | node head children ih =>
    simp only [RouteTree.isElement, Bool.and_eq_true] at hr
    obtain ⟨⟨⟨⟨hnamed, hmarked⟩, hfits⟩, hpaired⟩, hchildren⟩ := hr
    have helement : isElement n = true := by
      simp only [isElement, isMarked, Bool.and_eq_true] at hmarked ⊢
      exact ⟨hnamed, hmarked.1⟩
    have hself : ((route? file ⟨n, above⟩).toList).map RouteDecl.pair =
        head.declared (parentPath above) := by
      simp only [route?, RouteHead.ownPath?_of_fitsElement hfits,
        RouteHead.elementComponent?_of_fitsElement hfits, RouteHead.declared]
      cases head.ownPath? <;> rfl
    rw [routesIn_eq, if_pos helement, List.map_append, hself, RouteTree.routes_node]
    congr 1
    -- the elements inside write the children
    have hinside : n.children.flatMap (routesIn file (n :: above)) =
        (n.children.flatMap (Node.outermost isMarked)).flatMap (routesIn file (n :: above)) := by
      rw [List.flatMap_assoc]
      exact List.flatMap_congr fun c _ => routesIn_outermost file _ c
    rw [hinside, List.map_flatMap]
    refine flatMap_eq_of_forall₂ (RouteTree.areElements_iff.1 hchildren) fun c hc m _ hm => ?_
    have hkind : n.kind = "jsx_element" := by
      rcases Bool.or_eq_true_iff.1 hpaired with hkind | hempty
      · exact beq_iff_eq.1 hkind
      · rw [List.isEmpty_iff.1 hempty] at hc
        cases hc
    have hpath : parentPath (n :: above) = head.inside (parentPath above) := by
      rw [parentPath_cons, pathInside?, if_pos hkind, RouteHead.ownPath?_of_fitsElement hfits]
      rfl
    rw [ih c hc hm, hpath]

/-- **Elements that write trees give the routes of the trees.** -/
theorem map_routes (file : String) (root : Node) (d : Dialect) {rs : List RouteTree}
    (hrs : RouteTree.areElements rs (root.outermost isMarked) = true) :
    (routes file ⟨root, d, index root⟩).map RouteDecl.pair = RouteTree.routesAll "" rs := by
  have hroutes : routes file ⟨root, d, index root⟩ = routesIn file [] root :=
    routes_eq_filterMap file root d
  rw [hroutes, routesIn_outermost, List.map_flatMap, RouteTree.routesAll_eq_flatMap]
  exact flatMap_eq_of_forall₂ (RouteTree.areElements_iff.1 hrs)
    fun r _ n _ hr => map_routesIn file hr []

end Markup

/-! ### Objects -/

namespace Objects

variable {file : String} {root o : Node} {head : RouteHead} {children : List RouteTree}

/-- What the visit of an object gives that writes a tree. -/
theorem map_visit (file : String) {r : RouteTree} (hr : r.isObject o = true) (parent : String) :
    (visit file parent o).1.map RouteDecl.pair = r.visited parent := by
  induction r generalizing o parent with
  | node head children ih =>
    obtain ⟨-, hfits, -, hchildren⟩ := RouteTree.isObject_iff.1 hr
    have hown := RouteHead.ownPath?_of_fitsObject hfits
    have hself : (declared file parent o).map RouteDecl.pair = head.declared parent := by
      rw [declared, hown, RouteHead.objectComponent?_of_fitsObject hfits, RouteHead.declared]
      cases head.ownPath? <;> rfl
    have hpath : fullPath parent o = head.inside parent := by
      rw [fullPath, hown, RouteHead.inside]
    rw [visit_eq, List.map_append, hself, kids, RouteHead.isRouteObject_of_fitsObject hfits, hpath,
      RouteTree.visited_node]
    split
    · rw [List.map_flatMap]
      exact congrArg _ (flatMap_eq_of_forall₂ hchildren fun c hc m _ hm => ih c hc hm _)
    · next hqualifies =>
      rw [RouteTree.declared_of_not_qualifies hqualifies]
      rfl

/-- The objects right inside of an object that writes a tree are those of its array. -/
theorem childObjects_eq (h : root.Distinct) (ho : root.Below o)
    (hr : (RouteTree.node head children).isObject o = true) :
    childObjects o = o.children.flatMap (Node.outermost isObject) := by
  obtain ⟨-, -, hids, -⟩ := RouteTree.isObject_iff.1 hr
  refine h.eq_of_ids (fun k hk => ?_) (fun k hk => ?_) hids
  · exact ho.trans (below_of_mem_childObjects hk)
  · obtain ⟨c, hc, hk⟩ := List.mem_flatMap.1 hk
    exact ho.trans ((Node.below_of_mem hc).trans (Node.of_mem_outermost hk).2)

/-- The objects that stand in one that writes a tree: itself, and those in its child objects. -/
theorem filter_preorder_eq (h : root.Distinct) (ho : root.Below o)
    (hr : (RouteTree.node head children).isObject o = true) :
    o.preorder.filter isObject =
      o :: (childObjects o).flatMap fun k => k.preorder.filter isObject := by
  have hobject := (RouteTree.isObject_iff.1 hr).1
  rw [childObjects_eq h ho hr, Node.preorder_eq_cons, List.filter_cons_of_pos hobject,
    List.filter_flatMap, List.flatMap_assoc]
  exact congrArg _ (List.flatMap_congr fun c _ => Node.filter_preorder isObject c)

/-- The visits that begin at some objects. -/
def visitsFrom (file : String) (root : Node) (objects : List Node) : List (String × String) :=
  (objects.filter (!isChild (root.preorder.filter isObject) ·)).flatMap fun o =>
    (visit file "" o).1.map RouteDecl.pair

theorem visitsFrom_cons (file : String) (root o : Node) (objects : List Node) :
    visitsFrom file root (o :: objects) =
      (if isChild (root.preorder.filter isObject) o then []
        else (visit file "" o).1.map RouteDecl.pair) ++ visitsFrom file root objects := by
  rw [visitsFrom, List.filter_cons]
  cases isChild (root.preorder.filter isObject) o <;> rfl

theorem visitsFrom_flatMap (file : String) (root : Node) (ns : List Node)
    (f : Node → List Node) :
    visitsFrom file root (ns.flatMap f) = ns.flatMap fun n => visitsFrom file root (f n) := by
  rw [visitsFrom, List.filter_flatMap, List.flatMap_assoc]
  rfl

/-- The visits that begin at an object that writes a tree, and below it. -/
theorem visitsFrom_of_isObject (h : root.Distinct) (file : String) {r : RouteTree}
    (hr : r.isObject o = true) (ho : root.Below o) :
    visitsFrom file root (o.preorder.filter isObject) =
      (if isChild (root.preorder.filter isObject) o then [] else r.visited "") ++ r.later := by
  induction r generalizing o with
  | node head children ih =>
    obtain ⟨hobject, hfits, -, hchildren⟩ := RouteTree.isObject_iff.1 hr
    have hmem := List.mem_filter.2 ⟨Node.mem_preorder_iff.2 ho, hobject⟩
    rw [filter_preorder_eq h ho hr, visitsFrom_cons, map_visit file hr, visitsFrom_flatMap,
      RouteTree.later_node]
    congr 1
    refine flatMap_eq_of_forall₂ hchildren fun c hc k hk hck => ?_
    rw [ih c hc hck (ho.trans (below_of_mem_childObjects hk)), isChild_eq h hmem hk,
      RouteHead.isRouteObject_of_fitsObject hfits]

/-- An outermost object is nobody's child. -/
theorem isChild_of_mem_outermost (h : root.Distinct) (ho : o ∈ root.outermost isObject) :
    isChild (root.preorder.filter isObject) o = false := by
  obtain ⟨hobject, hbelow⟩ := Node.of_mem_outermost ho
  have hnothing : ∀ a ∈ ([] : List Node), isObject a = false := by simp
  obtain ⟨enclosing, hsite, hnone⟩ := Node.exists_site_of_mem_outermost ho hnothing
  have hmem := List.mem_filter.2 ⟨Node.mem_preorder_iff.2 hbelow, hobject⟩
  rw [Bool.eq_false_iff, Ne, (listing_of_distinct h).isChild_iff hmem]
  rintro ⟨p, hp, hkids⟩
  obtain ⟨hpobject, above, hpSite⟩ := (mem_objects_iff rfl).1 hp
  obtain ⟨list, pair, hsite', -⟩ :=
    mem_sites_of_mem_childObjects hpSite (mem_kids_iff.1 hkids).2
  have hplace : enclosing = list :: pair :: p :: above :=
    congrArg Site.enclosing (h.site_eq hsite hsite' rfl)
  have hpnone := hnone p (by simp [hplace])
  rw [hpobject] at hpnone
  cases hpnone

/-- **Objects that write trees give what the visits of the trees give.** -/
theorem map_routes (file : String) (root : Node) (d : Dialect) (h : root.Distinct)
    {rs : List RouteTree} (hrs : RouteTree.areObjects rs (root.outermost isObject) = true) :
    (routes file ⟨root, d, index root⟩).map RouteDecl.pair = RouteTree.visits false rs := by
  have hvisits : (routes file ⟨root, d, index root⟩).map RouteDecl.pair =
      visitsFrom file root (root.preorder.filter isObject) := by
    rw [routes, nodes_object, visitAll_eq_flatMap (listing_of_distinct h), List.map_flatMap]
    rfl
  have hobjects := Node.filter_preorder isObject root
  rw [hvisits, congrArg (visitsFrom file root) hobjects, visitsFrom_flatMap,
    RouteTree.visits_eq_flatMap]
  refine flatMap_eq_of_forall₂ (RouteTree.areObjects_iff.1 hrs) fun r _ o ho hr => ?_
  rw [visitsFrom_of_isObject h file hr (Node.of_mem_outermost ho).2,
    isChild_of_mem_outermost h ho]

end Objects

/-! ### Both -/

/-- **Elements and objects that write the same trees give the same routes in the same order**,
the routes of the trees, where no layout that is not taken for a route comes between a route
object and a route.  Wherever such layouts stand, objects give what the visits of the trees
give. -/
theorem pairs_of_written (file : String) (rs : List RouteTree) (m o : Node) (d d' : Dialect)
    (hm : RouteTree.areElements rs (m.outermost isMarked) = true)
    (ho : RouteTree.areObjects rs (o.outermost Objects.isObject) = true) (hdistinct : o.Distinct) :
    (Markup.routes file ⟨m, d, index m⟩).map RouteDecl.pair = RouteTree.routesAll "" rs ∧
      (Objects.routes file ⟨o, d', index o⟩).map RouteDecl.pair = RouteTree.visits false rs ∧
      (RouteTree.areUnbroken false rs = true →
        (Objects.routes file ⟨o, d', index o⟩).map RouteDecl.pair =
          (Markup.routes file ⟨m, d, index m⟩).map RouteDecl.pair) := by
  have helements := Markup.map_routes file m d hm
  have hobjects := Objects.map_routes file o d' hdistinct ho
  refine ⟨helements, hobjects, fun hunbroken => ?_⟩
  rw [hobjects, helements, RouteTree.visits_eq_flatMap, RouteTree.routesAll_eq_flatMap]
  exact List.flatMap_congr fun r hr =>
    RouteTree.visits_of_unbroken (RouteTree.areUnbroken_iff.1 hunbroken r hr)

/-- A route, in it a layout with an index, its component under the key `Component`. -/
def layoutTree : RouteTree :=
  .node ⟨.path "/p", .component, "P"⟩
    [.node ⟨.layout, .element, "L"⟩ [.node ⟨.index, .capital, "A"⟩ []]]

/-- The tree, written with elements. -/
def layoutElements : Node :=
  (parseAs .javascript
    ("r=<R path='/p' component=\x7bP\x7d><R element=\x7b<L/>\x7d>" ++
      "<R index Component=\x7bA\x7d/></R></R>")).root

/-- The tree, written with objects. -/
def layoutObjects : Node :=
  (parseAs .javascript
    ("r=\x7bpath:'/p',component:P,children:[" ++
      "\x7belement:<L/>,children:[\x7bindex:true,Component:A\x7d]\x7d]\x7d")).root

theorem pairs_of_written_layoutTree :
    (RouteTree.areElements [layoutTree] (layoutElements.outermost isMarked) = true ∧
      RouteTree.areObjects [layoutTree] (layoutObjects.outermost Objects.isObject) = true ∧
      layoutObjects.Distinct ∧ RouteTree.areUnbroken false [layoutTree] = true) ∧
    (Markup.routes "r.js" ⟨layoutElements, .javascript, index layoutElements⟩).map
      RouteDecl.pair = [("/p", "P"), ("/p/(index)", "A")] ∧
    (Objects.routes "r.js" ⟨layoutObjects, .javascript, index layoutObjects⟩).map
      RouteDecl.pair = [("/p", "P"), ("/p/(index)", "A")] := by
  have hm : RouteTree.areElements [layoutTree] (layoutElements.outermost isMarked) = true := by
    decide +kernel
  obtain ⟨ho, hdistinct⟩ :
      RouteTree.areObjects [layoutTree] (layoutObjects.outermost Objects.isObject) = true ∧
        layoutObjects.Distinct := by
    decide +kernel
  have hunbroken : RouteTree.areUnbroken false [layoutTree] = true := by decide
  have hroutes : RouteTree.routesAll "" [layoutTree] = [("/p", "P"), ("/p/(index)", "A")] := by
    decide +kernel
  obtain ⟨helements, -, hobjects⟩ := pairs_of_written "r.js" [layoutTree] layoutElements
    layoutObjects .javascript .javascript hm ho hdistinct
  refine ⟨⟨hm, ho, hdistinct, hunbroken⟩, ?_, ?_⟩
  · rw [helements, hroutes]
  · rw [hobjects hunbroken, helements, hroutes]

/-! ### A layout that is not taken for a route -/

/-- A route, in it a layout with its component under the key `Component`, in it a route. -/
def brokenTree : RouteTree :=
  .node ⟨.path "/p", .component, "P"⟩
    [.node ⟨.layout, .capital, "L"⟩ [.node ⟨.path "a", .component, "A"⟩ []]]

/-- The tree, written with elements. -/
def brokenElements : Node :=
  (parseAs .javascript
    ("r=<R path='/p' component=\x7bP\x7d><R Component=\x7bL\x7d>" ++
      "<R path='a' component=\x7bA\x7d/></R></R>")).root

/-- The tree, written with objects. -/
def brokenObjects : Node :=
  (parseAs .javascript
    ("r=\x7bpath:'/p',component:P,children:[" ++
      "\x7bComponent:L,children:[\x7bpath:'a',component:A\x7d]\x7d]\x7d")).root

/-- **The innermost route loses the path around it** where it is written with objects. -/
theorem pairs_brokenTree :
    RouteTree.areElements [brokenTree] (brokenElements.outermost isMarked) = true ∧
    RouteTree.areObjects [brokenTree] (brokenObjects.outermost Objects.isObject) = true ∧
    brokenObjects.Distinct ∧
    (Markup.routes "r.js" ⟨brokenElements, .javascript, index brokenElements⟩).map
      RouteDecl.pair = [("/p", "P"), ("/p/a", "A")] ∧
    (Objects.routes "r.js" ⟨brokenObjects, .javascript, index brokenObjects⟩).map
      RouteDecl.pair = [("/p", "P"), ("a", "A")] := by
  have hm : RouteTree.areElements [brokenTree] (brokenElements.outermost isMarked) = true := by
    decide +kernel
  obtain ⟨ho, hdistinct⟩ :
      RouteTree.areObjects [brokenTree] (brokenObjects.outermost Objects.isObject) = true ∧
        brokenObjects.Distinct := by
    decide +kernel
  have hroutes : RouteTree.routesAll "" [brokenTree] = [("/p", "P"), ("/p/a", "A")] ∧
      RouteTree.visits false [brokenTree] = [("/p", "P"), ("a", "A")] := by
    decide +kernel
  refine ⟨hm, ho, hdistinct, ?_, ?_⟩
  · rw [Markup.map_routes "r.js" brokenElements .javascript hm, hroutes.1]
  · rw [Objects.map_routes "r.js" brokenObjects .javascript hdistinct ho, hroutes.2]

end RouteImpact.Route
