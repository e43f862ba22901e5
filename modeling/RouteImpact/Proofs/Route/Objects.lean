import Mathlib.Data.List.Perm.Basic
import RouteImpact.Proofs.Syntax.Order

namespace RouteImpact.Route.Objects

open Syntax Source
open Relation (TransGen ReflTransGen)

/-!
# Routes of objects

Objects are visited in document order, but one that was met as the child of another is not
visited again.  So each object is visited once, from the outermost route object that it can be
reached from, and declares its route with its full path.

* `kids`, `visit_eq` — where a visit goes on, and what it gives;
* `Listing` — lists of objects in which children come after their parents;
  `visitAll_eq_flatMap` — the visits begin at the objects that are nobody's child;
* `Listing.perm` — together they declare what each object declares;
* `listing_of_distinct` — the objects of a tree are such a list; `parentPath`, `routes_perm` —
  hence each of its objects declares its route once.
-/

/-! ### One visit -/

/-- The objects that the visit of an object goes on to. -/
def kids (o : Node) : List Node := if isRouteObject o then childObjects o else []

theorem isRouteObject_of_ownPath? {o : Node} {path : String} (h : ownPath? o = some path) :
    isRouteObject o = true := by
  rw [isRouteObject, List.any_eq_true]
  unfold ownPath? at h
  cases hpath : value? o "path" with
  | some value => exact ⟨"path", by decide, by rw [hpath]; rfl⟩
  | none =>
    cases hindex : value? o "index" with
    | some value => exact ⟨"index", by decide, by rw [hindex]; rfl⟩
    | none => simp [hpath, hindex] at h

/-- What is no route object declares nothing. -/
theorem declared_of_not {o : Node} (h : ¬ isRouteObject o = true) (file parent : String) :
    declared file parent o = [] := by
  unfold declared
  cases hown : ownPath? o with
  | none => rfl
  | some own => exact absurd (isRouteObject_of_ownPath? hown) h

/-- A visit gives what the object declares, and what the visits of its children give. -/
theorem visit_eq (file parent : String) (o : Node) :
    visit file parent o =
      (declared file parent o ++ (kids o).flatMap fun k => (visit file (fullPath parent o) k).1,
        (kids o).flatMap fun k => k.id :: (visit file (fullPath parent o) k).2) := by
  rw [visit, kids]
  split
  · simp only [List.flatMap_map, List.flatMap_subtype, List.unattach_attach]
  · next h => simp [declared_of_not h]

/-- An object below another one, by way of route objects and their children. -/
def Meets (o k : Node) : Prop := TransGen (fun a b => b ∈ kids a) o k

theorem meets_iff {o x : Node} : Meets o x ↔ ∃ k ∈ kids o, x = k ∨ Meets k x := by
  rw [Meets, TransGen.head'_iff]
  refine exists_congr fun k => and_congr_right fun _ => ?_
  exact Relation.reflTransGen_iff_eq_or_transGen

theorem sizeOf_lt_of_mem_kids {o k : Node} (h : k ∈ kids o) : sizeOf k < sizeOf o := by
  unfold kids at h
  split at h
  · exact sizeOf_childObjects_lt h
  · cases h

theorem sizeOf_lt_of_meets {o k : Node} (h : Meets o k) : sizeOf k < sizeOf o := by
  induction h with
  | single hk => exact sizeOf_lt_of_mem_kids hk
  | tail _ hk ih => exact Nat.lt_trans (sizeOf_lt_of_mem_kids hk) ih

/-- A visit notes the numbers of the objects that it meets. -/
theorem mem_visit_iff {file parent : String} {x : Nat} (o : Node) :
    x ∈ (visit file parent o).2 ↔ ∃ k, Meets o k ∧ k.id = x := by
  rw [visit_eq]
  simp only [List.mem_flatMap, List.mem_cons]
  constructor
  · rintro ⟨k, hk, rfl | hx⟩
    · exact ⟨k, meets_iff.2 ⟨k, hk, Or.inl rfl⟩, rfl⟩
    · obtain ⟨y, hy, rfl⟩ := (mem_visit_iff k).1 hx
      exact ⟨y, meets_iff.2 ⟨k, hk, Or.inr hy⟩, rfl⟩
  · rintro ⟨y, hmeets, rfl⟩
    obtain ⟨k, hk, rfl | hy⟩ := meets_iff.1 hmeets
    · exact ⟨y, hk, Or.inl rfl⟩
    · exact ⟨k, hk, Or.inr ((mem_visit_iff k).2 ⟨y, hy, rfl⟩)⟩
termination_by sizeOf o
decreasing_by all_goals exact sizeOf_lt_of_mem_kids hk

/-! ### Lists of objects -/

/-- A list of objects in which the children of each come after it, and have no other
parent. -/
structure Listing (objects : List Node) : Prop where
  ids : (objects.map (·.id)).Nodup
  after : ∀ p ∈ objects, ∀ k ∈ kids p, [p, k].Sublist objects
  one_parent : ∀ p ∈ objects, ∀ q ∈ objects, ∀ k, k ∈ kids p → k ∈ kids q → p = q
  kids_nodup : ∀ p ∈ objects, (kids p).Nodup

/-- Whether an object is the child of one of the objects. -/
def isChild (objects : List Node) (o : Node) : Bool :=
  (objects.flatMap kids).any (·.id == o.id)

namespace Listing

variable {o : Node} {objects : List Node}

theorem mem_of_mem_kids (h : Listing objects) {p k : Node} (hp : p ∈ objects)
    (hk : k ∈ kids p) : k ∈ objects :=
  (h.after p hp k hk).subset (by simp)

theorem mem_of_meets (h : Listing objects) {p k : Node} (hp : p ∈ objects) (hk : Meets p k) :
    k ∈ objects := by
  induction hk with
  | single hk => exact h.mem_of_mem_kids hp hk
  | tail _ hk ih => exact h.mem_of_mem_kids ih hk

theorem eq_of_id (h : Listing objects) {p q : Node} (hp : p ∈ objects) (hq : q ∈ objects)
    (hid : p.id = q.id) : p = q :=
  List.inj_on_of_nodup_map h.ids hp hq hid

theorem isChild_iff (h : Listing objects) (ho : o ∈ objects) :
    isChild objects o = true ↔ ∃ p ∈ objects, o ∈ kids p := by
  simp only [isChild, List.any_eq_true, List.mem_flatMap, beq_iff_eq]
  constructor
  · rintro ⟨k, ⟨p, hp, hk⟩, hid⟩
    rw [← h.eq_of_id (h.mem_of_mem_kids hp hk) ho hid]
    exact ⟨p, hp, hk⟩
  · rintro ⟨p, hp, hk⟩
    exact ⟨o, ⟨p, hp, hk⟩, rfl⟩

theorem notMem (h : Listing (o :: objects)) : o ∉ objects :=
  (List.nodup_cons.1 (List.Nodup.of_map _ h.ids)).1

/-- The children of the first object are among the others. -/
theorem mem_tail_of_head (h : Listing (o :: objects)) {k : Node} (hk : k ∈ kids o) :
    k ∈ objects := by
  have hpair := h.after o List.mem_cons_self k hk
  exact List.singleton_sublist.1 (List.cons_sublist_cons.1 hpair)

theorem tail (h : Listing (o :: objects)) : Listing objects where
  ids := (List.nodup_cons.1 h.ids).2
  after p hp k hk := by
    rcases List.cons_sublist_cons'.1 (h.after p (List.mem_cons_of_mem _ hp) k hk) with
      hpair | ⟨rfl, -⟩
    · exact hpair
    · exact absurd hp h.notMem
  one_parent p hp q hq k :=
    h.one_parent p (List.mem_cons_of_mem _ hp) q (List.mem_cons_of_mem _ hq) k
  kids_nodup p hp := h.kids_nodup p (List.mem_cons_of_mem _ hp)

/-- The first object is nobody's child. -/
theorem isChild_head (h : Listing (o :: objects)) : isChild (o :: objects) o = false := by
  rw [Bool.eq_false_iff, Ne, h.isChild_iff List.mem_cons_self]
  rintro ⟨p, hp, hk⟩
  rcases List.mem_cons.1 hp with rfl | hp
  · exact h.notMem (h.mem_tail_of_head hk)
  · exact h.notMem (h.tail.mem_of_mem_kids hp hk)

/-- Of the others, those are children that are children of the first or of another. -/
theorem isChild_cons (h : Listing (o :: objects)) {x : Node} (hx : x ∈ objects) :
    isChild (o :: objects) x = true ↔ x ∈ kids o ∨ isChild objects x = true := by
  rw [h.isChild_iff (List.mem_cons_of_mem _ hx), h.tail.isChild_iff hx]
  simp only [List.mem_cons, or_and_right, exists_or, exists_eq_left]

/-- A visit of the first object meets its children, and of the others only children of
others. -/
theorem met_iff (h : Listing (o :: objects)) {x : Node} (hx : x ∈ objects)
    (hchild : ¬ isChild objects x = true) (file parent : String) :
    x.id ∈ (visit file parent o).2 ↔ x ∈ kids o := by
  have hmem : ∀ {k : Node}, Meets o k → k ∈ o :: objects :=
    h.mem_of_meets List.mem_cons_self
  rw [mem_visit_iff]
  constructor
  · rintro ⟨y, hy, hid⟩
    rw [h.eq_of_id (hmem hy) (List.mem_cons_of_mem _ hx) hid, Meets, TransGen.tail'_iff] at hy
    obtain ⟨q, hq, hk⟩ := hy
    rcases Relation.reflTransGen_iff_eq_or_transGen.1 hq with rfl | hq
    · exact hk
    · have hne : q ≠ o := by
        rintro rfl
        exact Nat.lt_irrefl _ (sizeOf_lt_of_meets hq)
      have hqmem : q ∈ objects := (List.mem_cons.1 (hmem hq)).resolve_left hne
      exact absurd ((h.tail.isChild_iff hx).2 ⟨q, hqmem, hk⟩) hchild
  · intro hk
    exact ⟨x, TransGen.single hk, rfl⟩

end Listing

/-! ### All visits -/

/-- Visiting the objects of a list, where the numbers of some are noted, and with each of them
those of its children: the visits begin at the others that are nobody's child. -/
theorem visitAll_of_noted {objects : List Node} (h : Listing objects) (file : String)
    {noted : List Nat}
    (hnoted : ∀ p ∈ objects, p.id ∈ noted → ∀ k ∈ kids p, k.id ∈ noted) :
    visitAll file objects noted =
      (objects.filter fun o => !isChild objects o && !noted.contains o.id).flatMap fun o =>
        (visit file "" o).1 := by
  induction objects generalizing noted with
  | nil => rfl
  | cons o objects ih =>
    have hrest : ∀ {x : Node}, x ∈ objects → x ∈ o :: objects := List.mem_cons_of_mem _
    rw [visitAll]
    by_cases hmet : o.id ∈ noted
    · -- passed over; its children are noted, too
      rw [if_pos (by simpa using hmet), ih h.tail fun p hp => hnoted p (hrest hp)]
      rw [List.filter_cons_of_neg (by simp [hmet])]
      congr 1
      refine List.filter_congr fun x hx => ?_
      rw [Bool.eq_iff_iff]
      simp only [Bool.and_eq_true, Bool.not_eq_true', ← Bool.not_eq_true, h.isChild_cons hx,
        List.contains_iff_mem, not_or]
      have hkid : x.id ∉ noted → x ∉ kids o := fun hx hk =>
        hx (hnoted o List.mem_cons_self hmet x hk)
      tauto
    · rw [if_neg (by simpa using hmet)]
      rw [List.filter_cons_of_pos (by simp [h.isChild_head, hmet]), List.flatMap_cons]
      -- what the visit notes is closed under children, as numbers belong to one object
      have hmore : ∀ p ∈ objects, p.id ∈ (visit file "" o).2 ++ noted →
          ∀ k ∈ kids p, k.id ∈ (visit file "" o).2 ++ noted := by
        intro p hp hid k hk
        rw [List.mem_append] at hid ⊢
        refine hid.imp (fun hid => ?_) fun hid => hnoted p (hrest hp) hid k hk
        obtain ⟨q, hq, hqid⟩ := (mem_visit_iff o).1 hid
        have hqp : q = p := h.eq_of_id (h.mem_of_meets List.mem_cons_self hq) (hrest hp) hqid
        rw [hqp] at hq
        exact (mem_visit_iff o).2 ⟨k, TransGen.tail hq hk, rfl⟩
      dsimp only
      rw [ih h.tail hmore]
      congr 2
      refine List.filter_congr fun x hx => ?_
      rw [Bool.eq_iff_iff]
      simp only [Bool.and_eq_true, Bool.not_eq_true', ← Bool.not_eq_true, h.isChild_cons hx,
        List.contains_iff_mem, List.mem_append, not_or]
      have hmet := fun hchild => h.met_iff hx hchild file ""
      tauto

/-- **Visits begin at the objects that are nobody's child**, in the order of the list. -/
theorem visitAll_eq_flatMap {objects : List Node} (h : Listing objects) (file : String) :
    visitAll file objects [] =
      (objects.filter (!isChild objects ·)).flatMap fun o => (visit file "" o).1 := by
  rw [visitAll_of_noted h file (by simp)]
  simp

/-- The children of the first object, and the others that are nobody's child. -/
theorem Listing.perm_kids {o : Node} {objects : List Node} (h : Listing (o :: objects)) :
    (kids o ++ objects.filter (!isChild (o :: objects) ·)).Perm
      (objects.filter (!isChild objects ·)) := by
  have hnodup : objects.Nodup := List.Nodup.of_map _ h.tail.ids
  rw [List.perm_ext_iff_of_nodup]
  · intro x
    simp only [List.mem_append, List.mem_filter, Bool.not_eq_true', ← Bool.not_eq_true]
    constructor
    · rintro (hk | ⟨hx, hchild⟩)
      · -- a child of the first object has no other parent
        have hx := h.mem_tail_of_head hk
        refine ⟨hx, fun hchild => ?_⟩
        obtain ⟨p, hp, hkp⟩ := (h.tail.isChild_iff hx).1 hchild
        have hpo := h.one_parent p (List.mem_cons_of_mem _ hp) o List.mem_cons_self x hkp hk
        exact h.notMem (hpo ▸ hp)
      · rw [h.isChild_cons hx, not_or] at hchild
        exact ⟨hx, hchild.2⟩
    · rintro ⟨hx, hchild⟩
      rw [or_iff_not_imp_left]
      intro hk
      rw [h.isChild_cons hx, not_or]
      exact ⟨hx, hk, hchild⟩
  · refine List.Nodup.append (h.kids_nodup o List.mem_cons_self) (hnodup.filter _) ?_
    intro x hk hx
    have hmem := List.mem_filter.1 hx
    have hchild := (h.isChild_cons hmem.1).2 (Or.inl hk)
    simp [hchild] at hmem
  · exact hnodup.filter _

/-- **All visits together declare what each object declares**, given the full path around
each. -/
theorem Listing.perm {objects : List Node} (h : Listing objects) (file : String)
    {around : Node → String}
    (haround : ∀ p ∈ objects, ∀ k ∈ kids p, around k = fullPath (around p) p) :
    ((objects.filter (!isChild objects ·)).flatMap fun o => (visit file (around o) o).1).Perm
      (objects.flatMap fun o => declared file (around o) o) := by
  induction objects with
  | nil => exact List.Perm.refl _
  | cons o objects ih =>
    have hrest := ih h.tail fun p hp => haround p (List.mem_cons_of_mem _ hp)
    -- the first object begins a visit, and its children would begin one without it
    have hkids : (kids o).flatMap (fun k => (visit file (fullPath (around o) o) k).1) =
        (kids o).flatMap fun k => (visit file (around k) k).1 :=
      List.flatMap_congr fun k hk => by rw [haround o List.mem_cons_self k hk]
    rw [List.filter_cons_of_pos (by simp [h.isChild_head]), List.flatMap_cons,
      List.flatMap_cons, visit_eq, hkids, List.append_assoc, ← List.flatMap_append]
    exact List.Perm.append_left _ ((h.perm_kids.flatMap fun _ _ => List.Perm.refl _).trans hrest)

/-! ### The objects of a tree -/

/-- Whether a node is an object. -/
def isObject (n : Node) : Bool := n.named && n.kind == "object"

/-- The objects of a tree, in document order. -/
def objectSites (root : Node) : List Site := (root.sites []).filter (isObject ·.node)

/-- Whether a node is the array that a route object keeps its children in. -/
def holdsChildren (p list : Node) : Bool :=
  isObject p && isRouteObject p && list.kind == "array" &&
    (value? p "children").any (·.id == list.id)

/-- The path around what is enclosed by nodes, the nearest first: the full path of the route
object whose children the nearest one holds, if it holds any. -/
def parentPath : List Node → String
  | list :: _ :: p :: above =>
    if holdsChildren p list then fullPath (parentPath above) p else ""
  | _ => ""

variable {root p k : Node} {above : List Node}

theorem exists_pair_of_value? {value : Node} {key : String} (h : value? p key = some value) :
    ∃ pair ∈ p.children, value ∈ pair.children := by
  obtain ⟨⟨name, v⟩, hfind, rfl⟩ := Option.map_eq_some_iff.1 h
  obtain ⟨pair, hpair, hkey⟩ := List.mem_filterMap.1 (List.mem_of_find?_eq_some hfind)
  refine ⟨pair, (List.mem_filter.1 hpair).1, ?_⟩
  unfold pair? at hkey
  split at hkey
  · cases hkey
  · split at hkey
    · next hvalue =>
      cases hkey
      exact List.mem_of_find?_eq_some hvalue
    · cases hkey

theorem mem_childObjects_iff : k ∈ childObjects p ↔ ∃ list, value? p "children" = some list ∧
    list.kind = "array" ∧ k ∈ list.children ∧ isObject k = true := by
  unfold childObjects
  cases value? p "children" with
  | none => simp
  | some list =>
    by_cases harray : list.kind = "array"
    · simp [harray, Node.namedChildren, isObject, and_comm]
    · simp [harray]

theorem exists_below_of_mem_childObjects (hk : k ∈ childObjects p) :
    ∃ pair ∈ p.children, pair.Below k := by
  obtain ⟨list, hvalue, -, hmem, -⟩ := mem_childObjects_iff.1 hk
  obtain ⟨pair, hpair, hlist⟩ := exists_pair_of_value? hvalue
  exact ⟨pair, hpair, (Node.below_of_mem hlist).trans (Node.below_of_mem hmem)⟩

theorem below_of_mem_childObjects (hk : k ∈ childObjects p) : p.Below k := by
  obtain ⟨pair, hpair, hbelow⟩ := exists_below_of_mem_childObjects hk
  exact (Node.below_of_mem hpair).trans hbelow

theorem isObject_of_mem_childObjects (hk : k ∈ childObjects p) : isObject k = true := by
  obtain ⟨-, -, -, -, hobject⟩ := mem_childObjects_iff.1 hk
  exact hobject

theorem mem_kids_iff : k ∈ kids p ↔ isRouteObject p = true ∧ k ∈ childObjects p := by
  unfold kids
  split
  · next hroute => simp [hroute]
  · next hroute => simp [hroute]

/-- The objects in the array of child routes stand where the array is. -/
theorem mem_sites_of_mem_childObjects (hp : (⟨p, above⟩ : Site) ∈ root.sites [])
    (hk : k ∈ childObjects p) :
    ∃ list pair, (⟨k, list :: pair :: p :: above⟩ : Site) ∈ root.sites [] ∧
      value? p "children" = some list := by
  obtain ⟨list, hvalue, -, hmem, -⟩ := mem_childObjects_iff.1 hk
  obtain ⟨pair, hpair, hlist⟩ := exists_pair_of_value? hvalue
  have hpairSite := Node.mem_sites_of_child hp hpair
  have hlistSite := Node.mem_sites_of_child hpairSite hlist
  exact ⟨list, pair, Node.mem_sites_of_child hlistSite hmem, hvalue⟩

theorem map_objectSites (root : Node) :
    (objectSites root).map (·.node) = root.preorder.filter isObject :=
  Node.map_filter_sites root isObject

/-- The objects that a tree's index holds. -/
theorem nodes_object (root : Node) (d : Dialect) :
    (⟨root, d, index root⟩ : Tree).nodes ["object"] = root.preorder.filter isObject := by
  rw [Tree.nodes, Tree.sites, ofKinds_index root (by decide), ← map_objectSites, objectSites]
  congr 2
  funext site
  simp [isObject, Bool.beq_eq_decide_eq]

theorem mem_objects_iff {objects : List Node} (h : objects = root.preorder.filter isObject) :
    p ∈ objects ↔ isObject p = true ∧ ∃ above, (⟨p, above⟩ : Site) ∈ root.sites [] := by
  rw [h, List.mem_filter, and_comm, ← Node.map_sites root [], List.mem_map]
  refine and_congr_right fun _ => ⟨?_, ?_⟩
  · rintro ⟨site, hsite, rfl⟩
    exact ⟨site.enclosing, hsite⟩
  · rintro ⟨above, hsite⟩
    exact ⟨_, hsite, rfl⟩

/-- The array of one object only holds an object: that stands in one place, which names the
parent. -/
theorem eq_of_mem_childObjects (h : root.Distinct) {q : Node}
    (hp : p ∈ root.preorder.filter isObject) (hq : q ∈ root.preorder.filter isObject)
    (hkp : k ∈ childObjects p) (hkq : k ∈ childObjects q) : p = q := by
  obtain ⟨-, above, hpSite⟩ := (mem_objects_iff rfl).1 hp
  obtain ⟨-, above', hqSite⟩ := (mem_objects_iff rfl).1 hq
  obtain ⟨list, pair, hkSite, -⟩ := mem_sites_of_mem_childObjects hpSite hkp
  obtain ⟨list', pair', hkSite', -⟩ := mem_sites_of_mem_childObjects hqSite hkq
  have hplace := congrArg Site.enclosing (h.site_eq hkSite hkSite' rfl)
  simp only [List.cons.injEq] at hplace
  exact hplace.2.2.1

/-- **The objects of a tree** are a list in which children come after their one parent. -/
theorem listing_of_distinct (h : root.Distinct) : Listing (root.preorder.filter isObject) where
  ids := List.Nodup.sublist (List.filter_sublist.map _) h
  after p hp k hk := by
    have hobject := (List.mem_filter.1 hp).2
    have hbelow := Node.mem_preorder_iff.1 (List.mem_filter.1 hp).1
    have hchild := (mem_kids_iff.1 hk).2
    have hkobject := isObject_of_mem_childObjects hchild
    obtain ⟨pair, hpair, hpairk⟩ := exists_below_of_mem_childObjects hchild
    have hpk : [p, k].Sublist p.preorder := Node.pair_sublist hpair hpairk
    simpa [hobject, hkobject] using
      (hpk.trans (Node.preorder_sublist hbelow)).filter isObject
  one_parent p hp q hq k hkp hkq :=
    eq_of_mem_childObjects h hp hq (mem_kids_iff.1 hkp).2 (mem_kids_iff.1 hkq).2
  kids_nodup p hp := by
    have hbelow := Node.mem_preorder_iff.1 (List.mem_filter.1 hp).1
    have hdistinct : ∀ {n : Node}, p.Below n → n.children.Nodup := fun hn =>
      List.Nodup.sublist (Node.children_sublist _)
        (List.Nodup.of_map _ (h.of_below (hbelow.trans hn)))
    unfold kids childObjects
    split
    · split
      · next list hvalue =>
        obtain ⟨pair, hpair, hlist⟩ := exists_pair_of_value? hvalue
        have hlist := hdistinct ((Node.below_of_mem hpair).trans (Node.below_of_mem hlist))
        split
        · exact (hlist.filter _).filter _
        · exact List.nodup_nil
      · exact List.nodup_nil
    · exact List.nodup_nil

/-- An object in the array of another one is its child if that is a route object: it has no other
parent. -/
theorem isChild_eq (h : root.Distinct) (hp : p ∈ root.preorder.filter isObject)
    (hk : k ∈ childObjects p) :
    isChild (root.preorder.filter isObject) k = isRouteObject p := by
  have hroot := Node.mem_preorder_iff.1 (List.mem_filter.1 hp).1
  have hbelow := hroot.trans (below_of_mem_childObjects hk)
  have hkmem : k ∈ root.preorder.filter isObject :=
    List.mem_filter.2 ⟨Node.mem_preorder_iff.2 hbelow, isObject_of_mem_childObjects hk⟩
  rw [Bool.eq_iff_iff, (listing_of_distinct h).isChild_iff hkmem]
  constructor
  · rintro ⟨q, hq, hkq⟩
    obtain ⟨hroute, hchild⟩ := mem_kids_iff.1 hkq
    rwa [eq_of_mem_childObjects h hp hq hk hchild]
  · intro hroute
    exact ⟨p, hp, mem_kids_iff.2 ⟨hroute, hk⟩⟩

/-! ### Full paths -/

/-- The path around a child is the full path of its parent. -/
theorem parentPath_of_mem_kids (h : root.Distinct) (hobject : isObject p = true)
    (hp : (⟨p, above⟩ : Site) ∈ root.sites []) (hk : k ∈ kids p) {around : List Node}
    (hsite : (⟨k, around⟩ : Site) ∈ root.sites []) :
    parentPath around = fullPath (parentPath above) p := by
  obtain ⟨hroute, hchild⟩ := mem_kids_iff.1 hk
  obtain ⟨list, hvalue, harray, -, -⟩ := mem_childObjects_iff.1 hchild
  obtain ⟨list', pair, hkSite, hvalue'⟩ := mem_sites_of_mem_childObjects hp hchild
  cases hvalue.symm.trans hvalue'
  have hplace : around = list :: pair :: p :: above :=
    congrArg Site.enclosing (h.site_eq hsite hkSite rfl)
  rw [hplace, parentPath, if_pos (by simp [holdsChildren, hobject, hroute, harray, hvalue])]

/-- There is no path around an object that is nobody's child. -/
theorem parentPath_of_not_child (h : root.Distinct) {site : Site} (hsite : site ∈ root.sites [])
    (hobject : isObject site.node = true)
    (htop : ∀ p above, (⟨p, above⟩ : Site) ∈ root.sites [] → isObject p = true →
      site.node ∉ kids p) : parentPath site.enclosing = "" := by
  unfold parentPath
  split
  · next list pair p above henclosing =>
    refine if_neg fun hholds => ?_
    obtain ⟨hlistSite, hmem⟩ := Node.mem_sites_of_enclosing hsite henclosing
    obtain ⟨hpairSite, hlist⟩ := Node.mem_sites_of_enclosing hlistSite rfl
    obtain ⟨hpSite, hpair⟩ := Node.mem_sites_of_enclosing hpairSite rfl
    simp only [holdsChildren, Bool.and_eq_true, Option.any_eq_true, beq_iff_eq] at hholds
    obtain ⟨⟨⟨hpobject, hroute⟩, harray⟩, value, hvalue, hid⟩ := hholds
    -- the array is the value of the children, as they have one number
    obtain ⟨pair', hpair', hvalueMem⟩ := exists_pair_of_value? hvalue
    have hvalueSite := Node.mem_sites_of_child (Node.mem_sites_of_child hpSite hpair') hvalueMem
    have heq : value = list := congrArg Site.node (h.site_eq hvalueSite hlistSite hid)
    exact htop p above hpSite hpobject
      (mem_kids_iff.2 ⟨hroute, mem_childObjects_iff.2 ⟨list, heq ▸ hvalue, harray, hmem, hobject⟩⟩)
  · rfl

/-- Whether an object declares a route: a path, or else an index that is true. -/
def declares (o : Node) : Bool :=
  (value? o "path").isSome || (value? o "index").any (·.text == "true")

theorem declared_eq (file parent : String) (o : Node) :
    declared file parent o = if declares o then
      [{ path := fullPath parent o
         component := (objectComponent? o).getD unknownComponent
         declaringFile := file
         line := o.line
         recognizer := "object" }]
    else [] := by
  unfold declared fullPath declares ownPath?
  cases value? o "path" with
  | some value => simp
  | none =>
    cases value? o "index" with
    | none => simp
    | some value => by_cases h : value.text = "true" <;> simp [h]

/-- The path around the node of a tree, found by its number. -/
def pathAround (root : Node) (n : Node) : String :=
  ((root.sites []).find? (·.node.id == n.id)).elim "" (parentPath ·.enclosing)

theorem pathAround_eq (h : root.Distinct) {site : Site} (hsite : site ∈ root.sites []) :
    pathAround root site.node = parentPath site.enclosing := by
  rw [pathAround]
  cases hfind : (root.sites []).find? (·.node.id == site.node.id) with
  | none => simpa using List.find?_eq_none.1 hfind site hsite
  | some found =>
    have hid : found.node.id = site.node.id := by simpa using List.find?_some hfind
    rw [h.site_eq (List.mem_of_find?_eq_some hfind) hsite hid]
    rfl

/-- The route of an object, with its full path. -/
def routeAt (file : String) (site : Site) : RouteDecl where
  path := fullPath (parentPath site.enclosing) site.node
  component := (objectComponent? site.node).getD unknownComponent
  declaringFile := file
  line := site.node.line
  recognizer := "object"

/-- **Every object that declares a route gives it once**, with its full path, and no other node
gives any. -/
theorem routes_perm (file : String) (root : Node) (d : Dialect) (h : root.Distinct) :
    (routes file ⟨root, d, index root⟩).Perm
      (((objectSites root).filter (declares ·.node)).map (routeAt file)) := by
  have hlisting := listing_of_distinct h
  have haround : ∀ p ∈ root.preorder.filter isObject, ∀ k ∈ kids p,
      pathAround root k = fullPath (pathAround root p) p := by
    intro p hp k hk
    obtain ⟨hobject, above, hpSite⟩ := (mem_objects_iff rfl).1 hp
    obtain ⟨list, pair, hkSite, -⟩ :=
      mem_sites_of_mem_childObjects hpSite (mem_kids_iff.1 hk).2
    rw [pathAround_eq h hkSite, pathAround_eq h hpSite]
    exact parentPath_of_mem_kids h hobject hpSite hk hkSite
  -- where a visit begins there is nothing around
  have htop : ∀ o ∈ (root.preorder.filter isObject).filter
      (!isChild (root.preorder.filter isObject) ·),
      (visit file "" o).1 = (visit file (pathAround root o) o).1 := by
    intro o ho
    obtain ⟨hmem, hchild⟩ := List.mem_filter.1 ho
    obtain ⟨hobject, above, hsite⟩ := (mem_objects_iff rfl).1 hmem
    rw [pathAround_eq h hsite, parentPath_of_not_child h hsite hobject]
    intro p above' hpSite hpobject hk
    have hp := (mem_objects_iff rfl).2 ⟨hpobject, above', hpSite⟩
    simp [(hlisting.isChild_iff hmem).2 ⟨p, hp, hk⟩] at hchild
  have hdeclared : (root.preorder.filter isObject).flatMap
      (fun o => declared file (pathAround root o) o) =
      ((objectSites root).filter (declares ·.node)).map (routeAt file) := by
    rw [← map_objectSites, List.flatMap_map, ← List.filterMap_eq_map, List.filterMap_filter,
      List.filterMap_eq_flatMap_toList]
    refine List.flatMap_congr fun site hsite => ?_
    rw [pathAround_eq h (List.mem_filter.1 hsite).1, declared_eq]
    split
    · rfl
    · rfl
  rw [routes, nodes_object, visitAll_eq_flatMap hlisting, List.flatMap_congr htop, ← hdeclared]
  exact hlisting.perm file haround

/-! ### Objects in and out of children -/

/-- A route with a child, and an object that is no child. -/
def nestedText : String :=
  "r=\x7bpath:\"/\",children:[\x7bpath:\"c\"\x7d],x:\x7bpath:\"e\"\x7d\x7d"

/-- Its tree. -/
def nestedRoot : Node := (parseAs .javascript nestedText).root

theorem routes_perm_nestedRoot : nestedRoot.Distinct ∧
    ((routes "r.js" ⟨nestedRoot, .javascript, index nestedRoot⟩).map (·.path)).Perm
      ["/", "/c", "e"] := by
  obtain ⟨hdistinct, hpaths⟩ : nestedRoot.Distinct ∧
      (((objectSites nestedRoot).filter (declares ·.node)).map (routeAt "r.js")).map (·.path) =
        ["/", "/c", "e"] := by
    decide +kernel
  exact ⟨hdistinct, hpaths ▸ (routes_perm "r.js" nestedRoot .javascript hdistinct).map (·.path)⟩

end RouteImpact.Route.Objects
