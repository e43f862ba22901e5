import RouteImpact.Data.NameSet
import RouteImpact.Data.OrderedMap
import RouteImpact.Data.Total
import RouteImpact.Fact.Basic
import RouteImpact.Path.Lexical

namespace RouteImpact

/-!
# The import graph

Files and who imports whom, in both directions.  Forward edges are those of a
file's latest fact; a reverse edge is added beside every forward edge, so that
the importers of a file are found without a search.

* `ImportGraph.upsert` replaces the fact and the forward edges of one file;
* `ImportGraph.load` makes a graph of nodes and facts that were kept elsewhere;
* `ImportGraph.fault?` looks for a forward edge without its reverse edge.

A reverse edge that has lost its forward edge stays unless the graph prunes: it
can only widen the set of files that a change reaches.
-/

/-- The place of a file in the graph. -/
structure GraphNode where
  importedBy : NameSet := NameSet.empty
  imports : NameSet := NameSet.empty
  isRouteFile : Bool := false
  isEntryPoint : Bool := false
deriving Repr, DecidableEq, Inhabited

/-- Files, their edges and what is known about them. -/
structure ImportGraph where
  nodes : OrderedMap GraphNode := OrderedMap.empty
  facts : OrderedMap FileFact := OrderedMap.empty
  /-- Whether a reverse edge goes away with its forward edge. -/
  prune : Bool := false
deriving Repr, Inhabited

namespace ImportGraph

/-- The node of a file, if the file was ever mentioned. -/
def node? (g : ImportGraph) (file : String) : Option GraphNode := g.nodes.get? file

/-- The latest fact of a file. -/
def fact? (g : ImportGraph) (file : String) : Option FileFact := g.facts.get? file

/-- The files that import a file. -/
def importersOf (g : ImportGraph) (file : String) : NameSet :=
  (g.node? file).elim NameSet.empty (·.importedBy)

/-! ### Changes -/

/-- Changes the node of a file, starting from an empty one when there is none. -/
def update (nodes : OrderedMap GraphNode) (file : String) (f : GraphNode → GraphNode) :
    OrderedMap GraphNode :=
  nodes.set file (f ((nodes.get? file).getD {}))

/-- Gives a file a node. -/
def ensure (g : ImportGraph) (file : String) : ImportGraph :=
  { g with nodes := update g.nodes file id }

/-- Adds an importer to a file. -/
def addImporter (importer : String) (nodes : OrderedMap GraphNode) (file : String) :
    OrderedMap GraphNode :=
  update nodes file fun n => { n with importedBy := n.importedBy.insert importer }

/-- Takes an importer off a file that has a node. -/
def dropImporter (importer : String) (nodes : OrderedMap GraphNode) (file : String) :
    OrderedMap GraphNode :=
  match nodes.get? file with
  | some n => nodes.set file { n with importedBy := n.importedBy.erase importer }
  | none => nodes

/-- The files that a fact makes a file import.  A file does not import itself. -/
def targets (file : String) (fact : FileFact) : NameSet :=
  NameSet.ofList (fact.resolvedImports.filter (· != file))

/-- Replaces the fact and the forward edges of a file. -/
def upsert (g : ImportGraph) (file : String) (fact : FileFact) : ImportGraph :=
  let old := (g.node? file).getD {}
  let new := targets file fact
  let own := update g.nodes file fun n =>
    { n with imports := new, isRouteFile := !fact.routes.isEmpty }
  let added := new.toList.foldl (addImporter file) own
  let dropped := if g.prune then (old.imports.sdiff new).toList else []
  { g with
    nodes := dropped.foldl (dropImporter file) added
    facts := g.facts.set file fact }

/-- The reverse edges of one node's forward edges. -/
def addReverse (nodes : OrderedMap GraphNode) (entry : String × GraphNode) :
    OrderedMap GraphNode :=
  entry.2.imports.toList.foldl (addImporter entry.1) nodes

/-- Replaces everything by nodes and facts that were kept elsewhere.  Of two nodes
of one file the later counts, but the forward edges of both leave reverse edges;
a file that is only mentioned gets a node. -/
def load (g : ImportGraph) (nodes : List (String × GraphNode)) (facts : List FileFact) :
    ImportGraph :=
  { g with
    nodes := nodes.foldl addReverse (OrderedMap.ofList nodes)
    facts := OrderedMap.ofList (facts.map fun f => (f.path, f)) }

/-- The graph without files. -/
def clear (g : ImportGraph) : ImportGraph :=
  { g with nodes := OrderedMap.empty, facts := OrderedMap.empty }

/-! ### Queries -/

/-- The files that declare a route, in order. -/
def routeFiles (g : ImportGraph) : List String :=
  Text.sort ((g.nodes.entries.filter (·.2.isRouteFile)).map (·.1))

/-- The names of files at which a program starts. -/
def entryStems : List String := ["index", "main", "App"]

/-- Whether a file that nothing imports is one at which a program starts. -/
def isEntry (file : String) (n : GraphNode) : Bool :=
  n.importedBy.isEmpty && entryStems.contains (Path.splitExtension (Path.baseName file)).1

/-- Marks the files at which a program starts. -/
def markEntryPoints (g : ImportGraph) : ImportGraph :=
  { g with nodes := g.nodes.mapValues fun file n => { n with isEntryPoint := isEntry file n } }

/-- The files that are marked as such, in order. -/
def entryPoints (g : ImportGraph) : List String :=
  Text.sort ((g.nodes.entries.filter (·.2.isEntryPoint)).map (·.1))

/-- How many files the graph knows. -/
def size (g : ImportGraph) : Nat := g.nodes.size

/-- How many forward edges there are. -/
def edgeCount (g : ImportGraph) : Nat := total (g.nodes.values.map (·.imports.size))

/-! ### Consistency -/

/-- A forward edge that lacks its reverse edge. -/
inductive EdgeFault where
  | noNode (file target : String)
  | noImporter (file target : String)
deriving Repr, DecidableEq

/-- The wording of a fault. -/
def EdgeFault.message : EdgeFault → String
  | .noNode file target => file ++ " imports " ++ target ++ ", which has no node"
  | .noImporter file target => file ++ " imports " ++ target ++ " but is missing from its importers"

/-- What is wrong with the edge from `file` to `target`, if anything. -/
def edgeFault? (g : ImportGraph) (file target : String) : Option EdgeFault :=
  match g.node? target with
  | none => some (.noNode file target)
  | some n => if file ∈ n.importedBy then none else some (.noImporter file target)

/-- The first forward edge that lacks its reverse edge. -/
def fault? (g : ImportGraph) : Option EdgeFault :=
  g.nodes.entries.findSome? fun (file, n) => n.imports.toList.findSome? (g.edgeFault? file)

end ImportGraph

end RouteImpact
