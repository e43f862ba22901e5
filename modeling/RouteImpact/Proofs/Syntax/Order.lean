import Mathlib.Data.List.Flatten
import Mathlib.Data.List.Nodup
import RouteImpact.Proofs.Syntax.Shape

namespace RouteImpact.Syntax

/-!
# The order of a tree

In document order a node stands before everything below it, and the nodes of a smaller tree
stand in the order of the larger one.  Where the numbers of nodes are distinct, a node stands in
one place only, so that what encloses it is determined by its number.

* `Node.map_sites` — the listing of places lists the nodes in document order;
* `Node.pair_sublist` — a node comes before what stands below it;
* `Site.exists_of_enclosing`, `Site.mem_all_of_child` — the places of parents and of children;
* `Node.Distinct.site_eq` — one place for each number;
* `Node.outermost` — the nodes of a sort that stand in no other one, and
  `Node.filter_preorder` that all nodes of the sort stand in these.
-/

namespace Node

theorem preorderAll_eq_flatMap (ns : List Node) : preorderAll ns = ns.flatMap preorder := by
  induction ns with
  | nil => rfl
  | cons n ns ih => rw [preorderAll, ih, List.flatMap_cons]

theorem preorder_eq_cons (n : Node) : n.preorder = n :: n.children.flatMap preorder := by
  obtain ⟨kind, named, field?, id, line, text, children⟩ := n
  rw [preorder, preorderAll_eq_flatMap]

theorem sites_eq_cons (n : Node) (above : List Node) :
    n.sites above = ⟨n, above⟩ :: n.children.flatMap (sites (n :: above)) := by
  obtain ⟨kind, named, field?, id, line, text, children⟩ := n
  rw [sites, sitesAll_eq_flatMap]

/-- The places of a tree hold its nodes in document order. -/
theorem map_sites (n : Node) (above : List Node) :
    (n.sites above).map (·.node) = n.preorder := by
  rw [sites_eq_cons, preorder_eq_cons, List.map_cons, List.map_flatMap]
  refine congrArg _ (List.flatMap_congr fun c hc => ?_)
  exact map_sites c (n :: above)
termination_by sizeOf n
decreasing_by exact Node.sizeOf_lt_of_mem hc

/-- The nodes of the places that pass a test, in document order as well. -/
theorem map_filter_sites (root : Node) (p : Node → Bool) :
    ((root.sites []).filter (p ·.node)).map (·.node) = root.preorder.filter p := by
  rw [← map_sites root [], List.filter_map]
  rfl

/-! ### Smaller trees -/

theorem flatMap_preorder_sublist {n c : Node} (h : c ∈ n.children) :
    c.preorder.Sublist (n.children.flatMap preorder) := by
  have hsingle : [c].Sublist n.children := List.singleton_sublist.2 h
  simpa using hsingle.flatMap preorder

/-- The nodes of a smaller tree stand in the order of the larger one. -/
theorem preorder_sublist {n c : Node} (h : n.Below c) : c.preorder.Sublist n.preorder := by
  induction h using Relation.ReflTransGen.head_induction_on with
  | refl => exact List.Sublist.refl _
  | @head a b hchild _ ih =>
    rw [preorder_eq_cons a]
    exact (ih.trans (flatMap_preorder_sublist hchild)).cons _

theorem mem_preorder_self (n : Node) : n ∈ n.preorder := by
  rw [preorder_eq_cons]
  exact List.mem_cons_self

theorem mem_preorder_iff {n c : Node} : c ∈ n.preorder ↔ n.Below c := by
  constructor
  · intro h
    rw [← map_sites n []] at h
    obtain ⟨site, hsite, rfl⟩ := List.mem_map.1 h
    exact below_of_mem_sites n hsite
  · intro h
    exact (preorder_sublist h).subset (mem_preorder_self c)

/-- A node comes before what stands below one of its children. -/
theorem pair_sublist {n c x : Node} (hc : c ∈ n.children) (hx : c.Below x) :
    [n, x].Sublist n.preorder := by
  rw [preorder_eq_cons]
  have hmem : x ∈ n.children.flatMap preorder :=
    (flatMap_preorder_sublist hc).subset (mem_preorder_iff.2 hx)
  exact (List.singleton_sublist.2 hmem).cons_cons n

/-- The children of a node stand in document order. -/
theorem children_sublist (n : Node) : n.children.Sublist n.preorder := by
  have hself : ∀ ns : List Node, ns.Sublist (ns.flatMap preorder) := by
    intro ns
    induction ns with
    | nil => exact List.Sublist.refl _
    | cons c ns ih =>
      rw [List.flatMap_cons, preorder_eq_cons, List.cons_append]
      exact (ih.trans (List.sublist_append_right _ _)).cons_cons c
  rw [preorder_eq_cons]
  exact (hself n.children).cons n

end Node

/-! ### Places -/

/-- Below a place that is listed everything is listed. -/
theorem Site.mem_all_of_child {site : Site} (x : Site) (hx : x ∈ site.all) {c : Node}
    (hc : c ∈ x.node.children) : (⟨c, x.node :: x.enclosing⟩ : Site) ∈ site.all := by
  have hmem : (⟨c, x.node :: x.enclosing⟩ : Site) ∈ x.children :=
    List.mem_map.2 ⟨c, hc, rfl⟩
  obtain rfl | ⟨s, hs, hx⟩ := Site.mem_all_iff.1 hx
  · exact Site.mem_all_iff.2 (Or.inr ⟨_, hmem, Site.mem_all_iff.2 (Or.inl rfl)⟩)
  · obtain ⟨a, ha, rfl⟩ := List.mem_map.1 hs
    exact Site.mem_all_iff.2 (Or.inr ⟨_, hs, mem_all_of_child x hx hc⟩)
termination_by sizeOf site.node
decreasing_by exact Node.sizeOf_lt_of_mem ha

/-- A place that is listed is the first one, or the parent's place is listed as well. -/
theorem Site.of_mem_all {site : Site} (x : Site) (hx : x ∈ site.all) :
    x = site ∨ ∃ p above, x.enclosing = p :: above ∧ (⟨p, above⟩ : Site) ∈ site.all ∧
      x.node ∈ p.children := by
  obtain rfl | ⟨s, hs, hx⟩ := Site.mem_all_iff.1 hx
  · exact Or.inl rfl
  · refine Or.inr ?_
    obtain ⟨a, ha, rfl⟩ := List.mem_map.1 hs
    obtain rfl | ⟨p, above, hp, hmem, hchild⟩ := of_mem_all x hx
    · exact ⟨site.node, site.enclosing, rfl, Site.mem_all_iff.2 (Or.inl rfl), ha⟩
    · exact ⟨p, above, hp, Site.mem_all_iff.2 (Or.inr ⟨_, hs, hmem⟩), hchild⟩
termination_by sizeOf site.node
decreasing_by exact Node.sizeOf_lt_of_mem ha

namespace Node

/-- The places of the parent, in a whole tree. -/
theorem mem_sites_of_enclosing {root : Node} {x : Site} (hx : x ∈ root.sites []) {p : Node}
    {above : List Node} (hp : x.enclosing = p :: above) :
    (⟨p, above⟩ : Site) ∈ root.sites [] ∧ x.node ∈ p.children := by
  have hall : x ∈ Site.all ⟨root, []⟩ := hx
  obtain rfl | ⟨q, rest, hq, hmem, hchild⟩ := Site.of_mem_all x hall
  · cases hp
  · rw [hp] at hq
    cases hq
    exact ⟨hmem, hchild⟩

theorem mem_sites_of_child {root : Node} {x : Site} (hx : x ∈ root.sites []) {c : Node}
    (hc : c ∈ x.node.children) : (⟨c, x.node :: x.enclosing⟩ : Site) ∈ root.sites [] := by
  have hall : x ∈ Site.all ⟨root, []⟩ := hx
  exact Site.mem_all_of_child x hall hc

/-! ### Numbers -/

/-- The numbers of the nodes of a tree are distinct. -/
def Distinct (root : Node) : Prop := (root.preorder.map (·.id)).Nodup

instance (root : Node) : Decidable root.Distinct :=
  inferInstanceAs (Decidable (root.preorder.map (·.id)).Nodup)

variable {root : Node}

/-- A number belongs to one place. -/
theorem Distinct.site_eq (h : root.Distinct) {x y : Site} (hx : x ∈ root.sites [])
    (hy : y ∈ root.sites []) (hid : x.node.id = y.node.id) : x = y := by
  have hnodup : ((root.sites []).map fun s => s.node.id).Nodup := by
    have hids : (root.sites []).map (fun s => s.node.id) = root.preorder.map (·.id) := by
      rw [← map_sites root [], List.map_map]
      rfl
    rw [hids]
    exact h
  exact List.inj_on_of_nodup_map hnodup hx hy hid

/-- A smaller tree has distinct numbers, too. -/
theorem Distinct.of_below (h : root.Distinct) {n : Node} (hn : root.Below n) : n.Distinct :=
  List.Nodup.sublist ((preorder_sublist hn).map _) h

/-- Lists of nodes of a tree are the same if their numbers are. -/
theorem Distinct.eq_of_ids (h : root.Distinct) {ns ms : List Node}
    (hns : ∀ n ∈ ns, root.Below n) (hms : ∀ n ∈ ms, root.Below n)
    (hids : ns.map (·.id) = ms.map (·.id)) : ns = ms := by
  induction ns generalizing ms with
  | nil => exact (List.map_eq_nil_iff.1 hids.symm).symm
  | cons n ns ih =>
    cases ms with
    | nil => simp at hids
    | cons m ms =>
      rw [List.forall_mem_cons] at hns hms
      rw [List.map_cons, List.map_cons, List.cons.injEq] at hids
      have hnm : n = m := List.inj_on_of_nodup_map h (mem_preorder_iff.2 hns.1)
        (mem_preorder_iff.2 hms.1) hids.1
      rw [hnm, ih hns.2 hms.2 hids.2]

/-! ### Outermost nodes -/

mutual

/-- The nodes that pass a test and stand in no other node that does. -/
def outermost (p : Node → Bool) : Node → List Node
  | ⟨kind, named, field?, id, line, text, children⟩ =>
    if p ⟨kind, named, field?, id, line, text, children⟩ then
      [⟨kind, named, field?, id, line, text, children⟩]
    else outermostAll p children

/-- The outermost nodes of each node of a list, one after the other. -/
def outermostAll (p : Node → Bool) : List Node → List Node
  | [] => []
  | n :: rest => n.outermost p ++ outermostAll p rest

end

variable (p : Node → Bool)

theorem outermostAll_eq_flatMap (ns : List Node) :
    outermostAll p ns = ns.flatMap (outermost p) := by
  induction ns with
  | nil => rfl
  | cons n ns ih => rw [outermostAll, ih, List.flatMap_cons]

theorem outermost_eq (n : Node) :
    n.outermost p = if p n then [n] else n.children.flatMap (outermost p) := by
  obtain ⟨kind, named, field?, id, line, text, children⟩ := n
  rw [outermost, outermostAll_eq_flatMap]

/-- All nodes that pass a test stand in an outermost one. -/
theorem filter_preorder (n : Node) :
    n.preorder.filter p = (n.outermost p).flatMap fun m => m.preorder.filter p := by
  rw [outermost_eq]
  split
  · rw [List.flatMap_singleton]
  · next hn =>
    rw [preorder_eq_cons, List.filter_cons_of_neg hn, List.filter_flatMap, List.flatMap_assoc]
    exact List.flatMap_congr fun c hc => filter_preorder c
termination_by sizeOf n
decreasing_by exact Node.sizeOf_lt_of_mem hc

variable {p}

theorem of_mem_outermost {n m : Node} (h : m ∈ n.outermost p) : p m = true ∧ n.Below m := by
  rw [outermost_eq] at h
  split at h
  · next hn =>
    rw [List.mem_singleton.1 h]
    exact ⟨hn, Below.refl n⟩
  · obtain ⟨c, hc, hm⟩ := List.mem_flatMap.1 h
    obtain ⟨hpm, hbelow⟩ := of_mem_outermost hm
    exact ⟨hpm, (below_of_mem hc).trans hbelow⟩
termination_by sizeOf n
decreasing_by exact Node.sizeOf_lt_of_mem hc

/-- Nothing around an outermost node passes the test. -/
theorem exists_site_of_mem_outermost {n m : Node} (h : m ∈ n.outermost p) {above : List Node}
    (habove : ∀ a ∈ above, p a = false) :
    ∃ enclosing, (⟨m, enclosing⟩ : Site) ∈ n.sites above ∧ ∀ a ∈ enclosing, p a = false := by
  rw [outermost_eq] at h
  rw [sites_eq_cons]
  split at h
  · rw [List.mem_singleton.1 h]
    exact ⟨above, List.mem_cons_self, habove⟩
  · next hn =>
    obtain ⟨c, hc, hm⟩ := List.mem_flatMap.1 h
    have hnext : ∀ a ∈ n :: above, p a = false :=
      List.forall_mem_cons.2 ⟨Bool.eq_false_iff.2 hn, habove⟩
    obtain ⟨enclosing, hsite, henclosing⟩ := exists_site_of_mem_outermost hm hnext
    exact ⟨enclosing, List.mem_cons_of_mem _ (List.mem_flatMap.2 ⟨c, hc, hsite⟩), henclosing⟩
termination_by sizeOf n
decreasing_by exact Node.sizeOf_lt_of_mem hc

end Node

end RouteImpact.Syntax
