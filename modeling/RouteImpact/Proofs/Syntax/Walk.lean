import Mathlib.Data.List.Sort
import Mathlib.Logic.Function.Iterate
import RouteImpact.Proofs.Syntax.Order

namespace RouteImpact.Syntax

/-!
# The walk over a tree

A loop over a stack files the nodes of a tree.  It takes one round for each node, so it comes to
an end, and what is left to file after a round is what is left of the listing.  In the end each
named node stands once under the key for all of them, in document order.

* `Node.at?`, `Node.addresses` — the way to a node, and that the listing goes through the
  addresses of a tree in ascending order;
* `Node.InDocumentOrder` — document order without the listing, and `Node.inDocumentOrder_iff` that
  the listing has it;
* `Walk.round`, `Walk.pending_round` — one round of the loop takes one site off what is pending;
* `Walk.stack_iterate_eq_nil_iff`, `Walk.table_iterate` — when the loop ends, and with which table;
* `index_in_document_order` — what the index of a tree lists.
-/

namespace Node

/-! ### Addresses -/

/-- The node at an address, which says by number to which child to go, from the root on. -/
def at? (n : Node) : List Nat → Option Node
  | [] => some n
  | i :: address => n.children[i]?.bind fun c => c.at? address

mutual

/-- The addresses of the nodes of a tree, as `preorder` lists the nodes. -/
def addresses : Node → List (List Nat)
  | ⟨_, _, _, _, _, _, children⟩ => [] :: addressesFrom 0 children

/-- The addresses of children, of which the first has the given number. -/
def addressesFrom (i : Nat) : List Node → List (List Nat)
  | [] => []
  | n :: rest => n.addresses.map (i :: ·) ++ addressesFrom (i + 1) rest

end

theorem addressesFrom_eq_flatMap (i : Nat) (ns : List Node) :
    addressesFrom i ns = (ns.zipIdx i).flatMap fun c => c.1.addresses.map (c.2 :: ·) := by
  induction ns generalizing i with
  | nil => rfl
  | cons n ns ih => rw [addressesFrom, ih, List.zipIdx_cons, List.flatMap_cons]

theorem addresses_eq_cons (n : Node) :
    n.addresses = [] :: n.children.zipIdx.flatMap fun c => c.1.addresses.map (c.2 :: ·) := by
  obtain ⟨kind, named, field?, id, line, text, children⟩ := n
  rw [addresses, addressesFrom_eq_flatMap]

theorem at?_cons {n c : Node} {i : Nat} (h : (c, i) ∈ n.children.zipIdx) (address : List Nat) :
    n.at? (i :: address) = c.at? address := by
  rw [at?, List.mem_zipIdx_iff_getElem?.1 h, Option.bind_some]

theorem mem_of_mem_zipIdx {n : Node} {c : Node × Nat} (h : c ∈ n.children.zipIdx) :
    c.1 ∈ n.children :=
  List.mem_of_getElem? (List.mem_zipIdx_iff_getElem?.1 h)

/-- At the addresses stand the nodes of the listing. -/
theorem map_at?_addresses (n : Node) : n.addresses.map n.at? = n.preorder.map some := by
  have hchildren : n.children.flatMap preorder =
      n.children.zipIdx.flatMap fun c => c.1.preorder := by
    conv_lhs => rw [← List.zipIdx_map_fst 0 n.children, List.flatMap_map]
  rw [addresses_eq_cons, preorder_eq_cons, hchildren, List.map_cons, List.map_cons,
    List.map_flatMap, List.map_flatMap]
  refine congrArg _ (List.flatMap_congr fun c hc => ?_)
  calc (c.1.addresses.map (c.2 :: ·)).map n.at?
      = c.1.addresses.map c.1.at? := by
        rw [List.map_map]
        exact List.map_congr_left fun address _ => at?_cons hc address
    _ = c.1.preorder.map some := map_at?_addresses c.1
termination_by sizeOf n
decreasing_by exact Node.sizeOf_lt_of_mem (mem_of_mem_zipIdx hc)

theorem mem_addresses_iff {n : Node} {address : List Nat} :
    address ∈ n.addresses ↔ ∃ c, n.at? address = some c := by
  induction address generalizing n with
  | nil =>
    rw [addresses_eq_cons]
    exact iff_of_true List.mem_cons_self ⟨n, rfl⟩
  | cons i address ih =>
    rw [addresses_eq_cons]
    simp only [List.mem_cons, reduceCtorEq, false_or, List.mem_flatMap, List.mem_map,
      List.cons.injEq]
    constructor
    · rintro ⟨c, hc, rest, hrest, rfl, rfl⟩
      obtain ⟨m, hm⟩ := ih.1 hrest
      exact ⟨m, (at?_cons hc rest).trans hm⟩
    · rintro ⟨m, hm⟩
      obtain ⟨c, hc, hat⟩ := Option.bind_eq_some_iff.1 hm
      exact ⟨(c, i), List.mem_zipIdx_iff_getElem?.2 hc, address, ih.2 ⟨m, hat⟩, rfl, rfl⟩

/-- The listing goes through the addresses in ascending order. -/
theorem pairwise_addresses (n : Node) : n.addresses.Pairwise (· < ·) := by
  rw [addresses_eq_cons, List.pairwise_cons, List.pairwise_flatMap]
  refine ⟨?_, ?_, ?_⟩
  · -- the root comes before what is below it
    intro address h
    obtain ⟨c, -, h⟩ := List.mem_flatMap.1 h
    obtain ⟨rest, -, rfl⟩ := List.mem_map.1 h
    exact List.nil_lt_cons _ _
  · -- below one child
    intro c hc
    have hbelow : c.1.addresses.Pairwise (· < ·) := pairwise_addresses c.1
    exact List.pairwise_map.2 (hbelow.imp List.cons_lt_cons_self.2)
  · -- below two children
    have hnumbers : n.children.zipIdx.Pairwise fun c d => c.2 < d.2 := by
      refine List.pairwise_map.1 ?_
      rw [List.zipIdx_map_snd]
      exact List.pairwise_lt_range'
    refine hnumbers.imp fun hlt a ha b hb => ?_
    obtain ⟨a, -, rfl⟩ := List.mem_map.1 ha
    obtain ⟨b, -, rfl⟩ := List.mem_map.1 hb
    exact List.cons_lt_cons_iff.2 (Or.inl hlt)
termination_by sizeOf n
decreasing_by exact Node.sizeOf_lt_of_mem (mem_of_mem_zipIdx hc)

/-! ### Document order -/

/-- A list holds the nodes of a tree that pass a test in document order: it goes through their
addresses, each of them once, in ascending order.  An address comes before all that go on from
it, and those that go on to a child come before those that go on to a later one. -/
def InDocumentOrder (root : Node) (p : Node → Bool) (ns : List Node) : Prop :=
  ∃ addresses : List (List Nat), addresses.Pairwise (· < ·) ∧
    (∀ address, address ∈ addresses ↔ ∃ n, root.at? address = some n ∧ p n = true) ∧
    addresses.map root.at? = ns.map some

theorem inDocumentOrder_filter (root : Node) (p : Node → Bool) :
    root.InDocumentOrder p (root.preorder.filter p) := by
  refine ⟨root.addresses.filter fun address => (root.at? address).any p,
    (pairwise_addresses root).filter _, ?_, ?_⟩
  · intro address
    rw [List.mem_filter, mem_addresses_iff]
    constructor
    · rintro ⟨⟨n, hn⟩, hp⟩
      rw [hn] at hp
      exact ⟨n, hn, hp⟩
    · rintro ⟨n, hn, hp⟩
      rw [hn]
      exact ⟨⟨n, rfl⟩, hp⟩
  · calc (root.addresses.filter fun address => (root.at? address).any p).map root.at?
        = (root.addresses.map root.at?).filter (·.any p) := by rw [List.filter_map]; rfl
      _ = (root.preorder.filter p).map some := by
        rw [map_at?_addresses, List.filter_map]
        rfl

/-- Document order is the order of the listing. -/
theorem inDocumentOrder_iff {root : Node} {p : Node → Bool} {ns : List Node} :
    root.InDocumentOrder p ns ↔ ns = root.preorder.filter p := by
  constructor
  · rintro ⟨addresses, hascend, hmem, hat⟩
    obtain ⟨others, hascend', hmem', hat'⟩ := inDocumentOrder_filter root p
    -- one ascending list of these addresses exists
    have haddresses : addresses = others :=
      hascend.eq_of_mem_iff hascend' fun address => (hmem address).trans (hmem' address).symm
    rw [haddresses, hat'] at hat
    exact (List.map_injective_iff.2 (fun _ _ => Option.some.inj) hat).symm
  · rintro rfl
    exact inDocumentOrder_filter root p

end Node

/-! ### Rounds -/

/-- Puts sites on a stack, one after the other. -/
def pushAll (stack sites : List Site) : List Site :=
  sites.foldl (fun stack site => site :: stack) stack

/-- What is pushed last stands on top. -/
theorem pushAll_reverse (stack sites : List Site) :
    pushAll stack sites.reverse = sites ++ stack := by
  rw [pushAll, List.foldl_reverse, List.foldr_cons_eq_append']

/-- Where the loop is: its stack, the top first, and what it has filed. -/
structure Walk where
  stack : List Site
  table : KindTable

namespace Walk

/-- At first the root is on the stack and nothing is filed. -/
def start (root : Node) : Walk := ⟨[⟨root, []⟩], {}⟩

/-- One round of the loop, if there is something on the stack: the top is taken off and filed, and
its children are pushed, the last one first. -/
def round (w : Walk) : Walk :=
  match w.stack with
  | [] => w
  | site :: rest => ⟨pushAll rest site.children.reverse, fileSite w.table site⟩

theorem round_cons (site : Site) (rest : List Site) (table : KindTable) :
    round ⟨site :: rest, table⟩ = ⟨site.children ++ rest, fileSite table site⟩ := by
  rw [← pushAll_reverse, round]

/-- What is left to file, in the order of filing. -/
def pending (w : Walk) : List Site := w.stack.flatMap Site.all

theorem pending_start (root : Node) : (start root).pending = root.sites [] := by
  rw [pending, start, List.flatMap_singleton, Site.all]

theorem pending_eq_nil_iff {w : Walk} : w.pending = [] ↔ w.stack = [] := by
  unfold pending
  cases w.stack with
  | nil => simp
  | cons site rest => simp [Site.all_eq_cons]

/-- A round takes the first site off what is pending. -/
theorem pending_round (w : Walk) : w.round.pending = w.pending.tail := by
  obtain ⟨stack, table⟩ := w
  cases stack with
  | nil => rfl
  | cons site rest =>
    rw [round_cons, pending, pending, List.flatMap_append, List.flatMap_cons, Site.all_eq_cons,
      List.cons_append, List.tail_cons]

theorem pending_iterate (w : Walk) (k : Nat) : (round^[k] w).pending = w.pending.drop k := by
  induction k with
  | zero => rfl
  | succ k ih => rw [Function.iterate_succ_apply', pending_round, ih, List.tail_drop]

/-- The loop ends when it has taken a round for each site. -/
theorem stack_iterate_eq_nil_iff (w : Walk) (k : Nat) :
    (round^[k] w).stack = [] ↔ w.pending.length ≤ k := by
  rw [← pending_eq_nil_iff, pending_iterate, List.drop_eq_nil_iff]

/-- A round leaves what the loop comes to as it is. -/
theorem indexLoop_round (w : Walk) :
    indexLoop w.round.stack w.round.table = indexLoop w.stack w.table := by
  obtain ⟨stack, table⟩ := w
  cases stack with
  | nil => rfl
  | cons site rest => rw [round_cons, indexLoop]

theorem indexLoop_iterate (w : Walk) (k : Nat) :
    indexLoop (round^[k] w).stack (round^[k] w).table = indexLoop w.stack w.table := by
  induction k with
  | zero => rfl
  | succ k ih => rw [Function.iterate_succ_apply', indexLoop_round, ih]

theorem table_iterate {w : Walk} {k : Nat} (h : w.pending.length ≤ k) :
    (round^[k] w).table = indexLoop w.stack w.table := by
  have hend : (round^[k] w).stack = [] := (stack_iterate_eq_nil_iff w k).2 h
  rw [← indexLoop_iterate w k, hend, indexLoop]

end Walk

/-! ### What the index lists -/

theorem length_sites (root : Node) : (root.sites []).length = root.preorder.length := by
  rw [← Node.map_sites root [], List.length_map]

/-- If the key for all nodes is no node's kind, the named nodes stand under it. -/
theorem filed_index_everyKind {root : Node}
    (hkinds : ∀ n ∈ root.preorder, n.named = true → n.kind ≠ everyKind) :
    filed (index root) everyKind = (root.sites []).filter (·.node.named) := by
  have hnone : ∀ s ∈ root.sites [], s.node.named = true → s.node.kind = everyKind →
      true = false := by
    intro s hs hnamed hkind
    have hmem : s.node ∈ root.preorder :=
      Node.mem_preorder_iff.2 (Node.below_of_mem_sites root hs)
    exact absurd hkind (hkinds s.node hmem hnamed)
  simpa using filter_filed_index root (p := fun _ => true) hnone

/-- **The index of a tree lists its named nodes in document order**, if the key for all nodes is
the kind of none of them.  The loop ends after one round for each node, punctuation included.  It
has then listed each named node once, and the nodes of some kinds, looked up or picked, are the
part of this list that is of the kinds. -/
theorem index_in_document_order (root : Node)
    (hkinds : ∀ n ∈ root.preorder, n.named = true → n.kind ≠ everyKind) :
    (∀ k, (Walk.round^[k] (Walk.start root)).stack = [] ↔ root.preorder.length ≤ k) ∧
      (Walk.round^[root.preorder.length] (Walk.start root)).table = index root ∧
      (filed (index root) everyKind).map (·.node) = root.preorder.filter (·.named) ∧
      root.InDocumentOrder (·.named) ((filed (index root) everyKind).map (·.node)) ∧
      ∀ kinds : List String, everyKind ∉ kinds →
        ofKinds (index root) kinds =
            (filed (index root) everyKind).filter (kinds.contains ·.node.kind) ∧
          (ofKinds (index root) kinds).map (·.node) =
            (root.preorder.filter (·.named)).filter (kinds.contains ·.kind) := by
  have hrounds : (Walk.start root).pending.length = root.preorder.length := by
    rw [Walk.pending_start, length_sites]
  have hlisted : filed (index root) everyKind = (root.sites []).filter (·.node.named) :=
    filed_index_everyKind hkinds
  have hnodes : (filed (index root) everyKind).map (·.node) = root.preorder.filter (·.named) := by
    rw [hlisted, Node.map_filter_sites root (·.named)]
  refine ⟨?_, ?_, hnodes, Node.inDocumentOrder_iff.2 hnodes, ?_⟩
  · intro k
    rw [Walk.stack_iterate_eq_nil_iff, hrounds]
  · exact Walk.table_iterate (Nat.le_of_eq hrounds)
  · intro kinds h
    have hpicked : ofKinds (index root) kinds =
        (filed (index root) everyKind).filter (kinds.contains ·.node.kind) := by
      rw [ofKinds_index root h, hlisted, List.filter_filter]
      simp only [Bool.and_comm]
    refine ⟨hpicked, ?_⟩
    rw [hpicked, ← hnodes, List.filter_map]
    rfl

/-- A node that stands in two places of a tree, once below punctuation. -/
def sharedName : Node := ⟨"identifier", true, none, 1, 1, "a", []⟩

/-- A tree whose punctuation is spelled like the key for all nodes and has nodes below it. -/
def starredTree : Node :=
  ⟨"expression", true, none, 0, 1, "*a2a",
    [⟨"*", false, none, 2, 1, "*a2", [sharedName, ⟨"number", true, none, 3, 1, "2", []⟩]⟩,
      sharedName]⟩

theorem index_in_document_order_starredTree :
    (∀ n ∈ starredTree.preorder, n.named = true → n.kind ≠ everyKind) ∧
      (Walk.round^[4] (Walk.start starredTree)).stack ≠ [] ∧
      (Walk.round^[5] (Walk.start starredTree)).stack = [] ∧
      (filed (index starredTree) everyKind).map (·.node.text) = ["*a2a", "a", "2", "a"] ∧
      (ofKinds (index starredTree) ["identifier"]).map (·.node.id) = [1, 1] ∧
      (ofKinds (index starredTree) ["number", "identifier"]).map (·.node.text) =
        ["a", "2", "a"] := by
  have hkinds : ∀ n ∈ starredTree.preorder, n.named = true → n.kind ≠ everyKind := by decide
  obtain ⟨hrounds, -, hnodes, -, hpicked⟩ := index_in_document_order starredTree hkinds
  have htexts := congrArg (List.map (·.text)) hnodes
  have hone := congrArg (List.map (·.id)) (hpicked ["identifier"] (by decide)).2
  have htwo := congrArg (List.map (·.text)) (hpicked ["number", "identifier"] (by decide)).2
  rw [List.map_map] at htexts hone htwo
  refine ⟨hkinds, ?_, (hrounds 5).2 (by decide), htexts.trans (by decide), hone.trans (by decide),
    htwo.trans (by decide)⟩
  exact fun h => absurd ((hrounds 4).1 h) (by decide)

end RouteImpact.Syntax
