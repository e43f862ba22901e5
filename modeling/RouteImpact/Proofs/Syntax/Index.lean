import Mathlib.Data.List.Basic
import RouteImpact.Fact.Extractor

namespace RouteImpact.Syntax

/-!
# The index of a tree finds what the tree holds

Filing the nodes of a tree by kind, with an explicit stack, and asking for kinds gives the
same as listing all nodes and picking those of the kinds.

* `indexLoop_eq_foldl` — the stack takes the nodes in the order of the plain listing;
* `filed_foldl` — what filing the nodes of a list adds under a key, and `filed_index` for a
  whole tree;
* `ofKinds_index` — hence the answers of the index, for all kinds but the key under which
  every node is filed;
* `Source.Tree.sites_of_parse` — the same for parsed texts.
-/

/-! ### Listing -/

theorem Node.sitesAll_eq_flatMap (above : List Node) (ns : List Node) :
    Node.sitesAll above ns = ns.flatMap (Node.sites above) := by
  induction ns with
  | nil => simp [Node.sitesAll]
  | cons n ns ih => simp [Node.sitesAll, ih]

/-- The sites of a site and of everything below it. -/
def Site.all (site : Site) : List Site := site.node.sites site.enclosing

theorem Site.all_eq_cons (site : Site) : site.all = site :: site.children.flatMap Site.all := by
  obtain ⟨⟨kind, named, field?, id, line, text, children⟩, above⟩ := site
  rw [Site.all, Node.sites, Node.sitesAll_eq_flatMap, Site.children, List.flatMap_map]
  rfl

/-- The loop files what is on the stack and below, in the order of the listing. -/
theorem indexLoop_eq_foldl (stack : List Site) (table : KindTable) :
    indexLoop stack table = (stack.flatMap Site.all).foldl fileSite table := by
  fun_induction indexLoop stack table with
  | case1 table => rfl
  | case2 site rest table ih =>
    -- the children of a site come before the rest of the stack, as in the listing
    rw [ih, List.flatMap_append, List.flatMap_cons, Site.all_eq_cons, List.cons_append,
      List.foldl_cons]

theorem index_eq_foldl (root : Node) : index root = (root.sites []).foldl fileSite {} := by
  rw [index, indexLoop_eq_foldl, List.flatMap_singleton, Site.all]

/-! ### Filing -/

/-- What filing a site adds under a key.  A named node is filed under its kind and under the
key for all nodes, so one whose kind is that key is filed there twice. -/
def Site.entries (key : String) (site : Site) : List Site :=
  if site.node.named then
    (if site.node.kind = key then [site] else []) ++ if everyKind = key then [site] else []
  else []

theorem filed_file (table : KindTable) (k : String) (site : Site) (key : String) :
    filed (file table k site) key =
      filed table key ++ if k = key then [site] else [] := by
  unfold filed file
  rw [Std.TreeMap.getD_insert]
  by_cases h : k = key
  · simp [h]
  · simp [h]

theorem filed_fileSite (table : KindTable) (site : Site) (key : String) :
    filed (fileSite table site) key = filed table key ++ site.entries key := by
  unfold fileSite Site.entries
  split
  · rw [filed_file, filed_file, List.append_assoc]
  · rw [List.append_nil]

theorem filed_foldl (sites : List Site) (table : KindTable) (key : String) :
    filed (sites.foldl fileSite table) key =
      filed table key ++ sites.flatMap (Site.entries key) := by
  induction sites generalizing table with
  | nil => rw [List.foldl_nil, List.flatMap_nil, List.append_nil]
  | cons site sites ih =>
    rw [List.foldl_cons, ih, filed_fileSite, List.flatMap_cons, List.append_assoc]

/-- **What the index of a tree holds under a key**, whatever the kinds of its nodes are. -/
theorem filed_index (root : Node) (key : String) :
    filed (index root) key = (root.sites []).flatMap (Site.entries key) := by
  have hempty : filed ({} : KindTable) key = [] := by simp [filed]
  rw [index_eq_foldl, filed_foldl, hempty, List.nil_append]

/-- A named node whose kind is the key for all nodes is filed twice. -/
example : (filed (index ⟨everyKind, true, none, 0, 1, "", []⟩) everyKind).map (·.node.id) =
    [0, 0] := by
  rw [filed_index]
  rfl

theorem flatMap_eq_filter {sites : List Site} {f : Site → List Site} {p : Site → Bool}
    (h : ∀ s ∈ sites, f s = [s].filter p) : sites.flatMap f = sites.filter p := by
  rw [List.flatMap_congr h, ← List.filter_flatMap, List.flatMap_singleton']

/-- Under a kind stand the named nodes of the kind. -/
theorem filed_index_kind (root : Node) {kind : String} (h : kind ≠ everyKind) :
    filed (index root) kind =
      (root.sites []).filter fun s => s.node.named && s.node.kind == kind := by
  rw [filed_index]
  refine flatMap_eq_filter fun s _ => ?_
  rw [Site.entries, if_neg (Ne.symm h), List.append_nil]
  by_cases hk : s.node.kind = kind <;> cases hn : s.node.named <;> simp [hn, hk]

/-- Under the key for all nodes stand the named nodes.  One whose kind is this key stands there
twice; a test that no such node passes does not show it. -/
theorem filter_filed_index (root : Node) {p : Site → Bool}
    (hp : ∀ s ∈ root.sites [], s.node.named = true → s.node.kind = everyKind → p s = false) :
    (filed (index root) everyKind).filter p =
      (root.sites []).filter fun s => s.node.named && p s := by
  rw [filed_index, List.filter_flatMap]
  refine flatMap_eq_filter fun s hs => ?_
  rw [Site.entries, if_pos rfl]
  cases hn : s.node.named with
  | false => simp [hn]
  | true =>
    by_cases hk : s.node.kind = everyKind
    · simp [hk, hp s hs hn hk]
    · cases hps : p s <;> simp [hn, hk, hps]

/-- **The index answers with the named nodes of the kinds asked for, in document order.** -/
theorem ofKinds_index (root : Node) {kinds : List String} (h : everyKind ∉ kinds) :
    ofKinds (index root) kinds =
      (root.sites []).filter fun s => s.node.named && kinds.contains s.node.kind := by
  unfold ofKinds
  split
  · -- one kind has a list of its own
    next kind =>
    have hkind : kind ≠ everyKind := fun hk => h (List.mem_singleton.2 hk.symm)
    rw [filed_index_kind root hkind]
    congr 1
    funext s
    by_cases hk : s.node.kind = kind <;> simp [hk]
  · -- several kinds are picked from the list of all nodes
    refine filter_filed_index root fun s _ _ hs => ?_
    rw [hs]
    simpa using h

end RouteImpact.Syntax

namespace RouteImpact.Source

open Syntax

/-! ### Parsed texts -/

theorem table_parseWithFallback (d : Dialect) (text : String) :
    (parseWithFallback d text).table = index (parseWithFallback d text).root := by
  unfold parseWithFallback
  dsimp only
  split
  · rfl
  · split <;> rfl

theorem table_of_parse {text ending : String} {t : Tree} (h : parse text ending = .ok t) :
    t.table = index t.root := by
  unfold parse at h
  dsimp only at h
  split at h
  · cases h
  · cases h
  · next d _ =>
    split at h
    · cases h
    · cases h
      exact table_parseWithFallback d text

/-- The sites of the given kinds of a parsed text, by plain recursion. -/
theorem Tree.sites_of_parse {text ending : String} {t : Tree} (h : parse text ending = .ok t)
    {kinds : List String} (hkinds : everyKind ∉ kinds) :
    t.sites kinds =
      (t.root.sites []).filter fun s => s.node.named && kinds.contains s.node.kind := by
  rw [Tree.sites, table_of_parse h, ofKinds_index _ hkinds]

end RouteImpact.Source
