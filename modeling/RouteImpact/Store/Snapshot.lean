import RouteImpact.Graph.Document
import RouteImpact.Project.Failure
import RouteImpact.Store.Basic

namespace RouteImpact.Snapshot

/-!
# The persisted graph of a project

A project's graph is kept in a store under one key.  A store that refuses, bytes
that cannot be read and a graph of another version all count as if nothing had
been kept; only a number out of range and a file named by a list or a record end the
loading.
-/

/-- The last part of the key. -/
def fileName : String := "import-graph.json"

/-- The name of a project: that of its directory. -/
def projectName (root : String) : String :=
  let name := Path.lastName (Path.resolve "/" root)
  if name = "" then "root" else name

/-- The key of a project's graph. -/
def key (space root : String) : String :=
  Text.stripBoth (· == '/') space ++ "/" ++ projectName root ++ "/" ++ fileName

/-- The bytes that are kept of a graph. -/
def payload (now : Moment) (g : ImportGraph) : ByteArray := (Document.encode now g).toUTF8

/-- Hands bytes to the store; tells whether it took them. -/
def put (h : Host) (key : String) (bytes : ByteArray) : Bool × Host :=
  match h.upload key bytes with
  | (.ok _, h) => (true, h)
  | (.error _, h) => (false, h)

/-- Keeps a graph; tells whether the store took it. -/
def save (h : Host) (key : String) (now : Moment) (g : ImportGraph) : Bool × Host :=
  put h key (payload now g)

/-- What was kept and can be read. -/
inductive Kept where
  | graph (g : ImportGraph)
  /-- A graph in which something other than a text stands for a text. -/
  | untyped

/-- What was kept, if it can be read. -/
def load (h : Host) (key : String) (prune : Bool) : Except Failure (Option Kept) :=
  match h.download key with
  | .error _ => .ok none
  | .ok bytes =>
    match Document.decodeBytes prune bytes with
    | .ok g => .ok (some (.graph g))
    | .error .untyped => .ok (some .untyped)
    | .error .outOfRange => .error .outOfRange
    | .error .compoundName => .error .compoundName
    | .error _ => .ok none

/-- Removes the kept graph, if the store lets it. -/
def delete (h : Host) (key : String) : Host := (h.delete key).2

end RouteImpact.Snapshot
