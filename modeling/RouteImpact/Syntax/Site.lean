import Std.Data.TreeMap
import RouteImpact.Data.Total
import RouteImpact.Syntax.Node

namespace RouteImpact.Syntax

/-!
# Finding nodes by kind

A `Site` is a node together with the nodes around it.  `Node.sites` lists the
sites of a tree in document order by plain recursion; `index` visits the same
sites once, with an explicit stack, and files them by kind.  `ofKinds` answers
"all nodes of these kinds" from the index: a single kind is looked up, several
kinds are filtered out of the list of all named nodes, which is filed under a key
of its own.
-/

/-- A node and the nodes that enclose it, the nearest first. -/
structure Site where
  node : Node
  enclosing : List Node
deriving Repr, Inhabited

theorem Node.sizeOf_lt_of_mem {c n : Node} (h : c ∈ n.children) : sizeOf c < sizeOf n := by
  cases n with
  | mk kind named field? id line text children =>
    have := List.sizeOf_lt_of_mem h
    simp only [mk.sizeOf_spec]
    simp only at this
    omega

theorem Node.sizeOf_lt_of_mem_named {c n : Node} (h : c ∈ n.namedChildren) :
    sizeOf c < sizeOf n :=
  Node.sizeOf_lt_of_mem (List.mem_filter.1 h).1

mutual

/-- The sites of a node and of everything below it, in document order. -/
def Node.sites (above : List Node) : Node → List Site
  | ⟨kind, named, field?, id, line, text, children⟩ =>
    let n : Node := ⟨kind, named, field?, id, line, text, children⟩
    ⟨n, above⟩ :: Node.sitesAll (n :: above) children

/-- The sites of each node of a list, one after the other. -/
def Node.sitesAll (above : List Node) : List Node → List Site
  | [] => []
  | n :: rest => Node.sites above n ++ Node.sitesAll above rest

end

/-- The named nodes by kind, each list with the last node first. -/
abbrev KindTable := Std.TreeMap String (List Site)

/-- The key under which all named nodes are filed. -/
def everyKind : String := "*"

/-- Files a site under a key. -/
def file (table : KindTable) (key : String) (site : Site) : KindTable :=
  table.insert key (site :: table.getD key [])

/-- Files a site under its kind and under the key for all of them; punctuation is
not filed. -/
def fileSite (table : KindTable) (site : Site) : KindTable :=
  if site.node.named then file (file table site.node.kind site) everyKind site else table

/-- The sites of a site's children. -/
def Site.children (site : Site) : List Site :=
  site.node.children.map (⟨·, site.node :: site.enclosing⟩)

theorem total_sizeOf_le (ns : List Node) : total (ns.map fun n => sizeOf n) ≤ sizeOf ns := by
  induction ns with
  | nil => simp
  | cons n ns ih => simp only [List.map_cons, total_cons, List.cons.sizeOf_spec]; omega

/-- Putting the children of a site in its place makes a stack smaller. -/
theorem total_sizeOf_children_lt (site : Site) (rest : List Site) :
    total ((site.children ++ rest).map fun s => sizeOf s.node) <
      total ((site :: rest).map fun s => sizeOf s.node) := by
  obtain ⟨⟨kind, named, field?, id, line, text, children⟩, above⟩ := site
  have h := total_sizeOf_le children
  simp only [Site.children, List.map_append, List.map_map, total_append, List.map_cons,
    total_cons, Function.comp_def, Node.mk.sizeOf_spec]
  omega

/-- Files the sites on the stack and everything below them. -/
def indexLoop : List Site → KindTable → KindTable
  | [], table => table
  | site :: rest, table => indexLoop (site.children ++ rest) (fileSite table site)
termination_by stack => total (stack.map fun s => sizeOf s.node)
decreasing_by exact total_sizeOf_children_lt site rest

/-- The named nodes of a tree, filed by kind. -/
def index (root : Node) : KindTable := indexLoop [⟨root, []⟩] {}

/-- The sites filed under a key, in document order. -/
def filed (table : KindTable) (key : String) : List Site := (table.getD key []).reverse

/-- The named nodes of the given kinds, in document order. -/
def ofKinds (table : KindTable) (kinds : List String) : List Site :=
  match kinds with
  | [kind] => filed table kind
  | _ => (filed table everyKind).filter (kinds.contains ·.node.kind)

end RouteImpact.Syntax
