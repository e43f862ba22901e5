import RouteImpact.Graph.Basic
import RouteImpact.Json.Reader
import RouteImpact.Json.Writer

namespace RouteImpact.Document

open Number (Binary64)

/-!
# The persisted form of a graph

A graph is kept as one data value: a version, the moment of writing, the nodes
and the facts, both in order of their files.  `encode` writes it and `decode`
reads it.

Reading is lenient about the shape of a value where it has a natural meaning: any
sequence can stand for a list of names (a text for its characters, a record for
its field names), every value counts as true or false, and numbers may be written
as texts.  What has no such meaning is a `DecodeError`.

Where a text is asked for, any value is let through while the document is read,
so that what is wrong further on is found first; only a document that was read to
its end is looked at for its names.  The readers of parts therefore return an
`Option`, which is empty when a text is missing.
-/

/-- The version that is written, and the only one that is read. -/
def formatVersion : String := "1.0"

/-! ### Writing -/

/-- Names as a list of texts. -/
def names (xs : List String) : Json := .list (xs.map .text)

/-- The record of a node. -/
def ofNode (file : String) (n : GraphNode) : Json :=
  .record [
    ("file", .text file),
    ("importedBy", names n.importedBy.toList),
    ("imports", names n.imports.toList),
    ("isRouteFile", .bool n.isRouteFile),
    ("isEntryPoint", .bool n.isEntryPoint)]

/-- The record of an import. -/
def ofEdge (e : ImportEdge) : Json :=
  .record [
    ("source", e.source.elim .null .text),
    ("line", .int e.line),
    ("specifier", .text e.specifier),
    ("kind", .text e.kind)]

/-- The record of a route. -/
def ofRoute (r : RouteDecl) : Json :=
  .record [
    ("path", .text r.path),
    ("component", .text r.component),
    ("declaringFile", .text r.declaringFile),
    ("line", .int r.line),
    ("recognizer", .text r.recognizer)]

/-- The record of a fact. -/
def ofFact (f : FileFact) : Json :=
  .record [
    ("path", .text f.path),
    ("imports", .list (f.imports.map ofEdge)),
    ("exports", names f.exports),
    ("routes", .list (f.routes.map ofRoute)),
    ("contentHash", .text f.contentHash),
    ("lastSeenAt", .float f.lastSeenAt)]

/-- The nodes of a graph, in order of their files. -/
def sortedNodes (g : ImportGraph) : List (String × GraphNode) :=
  g.nodes.entries.mergeSort fun a b => Text.le a.1 b.1

/-- The facts of a graph, in order of their files. -/
def sortedFacts (g : ImportGraph) : List FileFact :=
  g.facts.values.mergeSort fun a b => Text.le a.path b.path

/-- The data value of a graph. -/
def ofGraph (now : Moment) (g : ImportGraph) : Json :=
  .record [
    ("version", .text formatVersion),
    ("timestamp", .int now.milliseconds),
    ("graph", .list ((sortedNodes g).map fun (file, n) => ofNode file n)),
    ("fileCache", .list ((sortedFacts g).map ofFact))]

/-- The persisted text of a graph. -/
def encode (now : Moment) (g : ImportGraph) : String := (ofGraph now g).compact

/-! ### Reading -/

/-- Why a part of a document has no meaning. -/
inductive Malformed where
  /-- A field that every record has is missing. -/
  | missingField
  /-- Something that is no record is asked for a field. -/
  | notRecord
  /-- A value of another kind is needed. -/
  | wrongKind
deriving Repr, DecidableEq

/-- Why a document cannot be read. -/
inductive DecodeError where
  | notUnicode
  | notJson
  | tooManyDigits
  | notRecord
  | version (given : Json)
  | malformed (cause : Malformed)
  /-- A text that writes no number stands for one. -/
  | notNumber
  /-- A number too large for its place. -/
  | outOfRange
  /-- A list or a record stands for the name of a file. -/
  | compoundName
  /-- The document can be read, but another value stands for a text. -/
  | untyped
deriving Repr

/-- What a reader of parts of a document returns. -/
abbrev Decoded (α : Type) := Except DecodeError α

/-- The elements of a value that can be gone through. -/
def items : Json → Decoded (List Json)
  | .list xs => .ok xs
  | .text s => .ok (s.toList.map fun c => .text (String.singleton c))
  | .record fs => .ok (fs.map fun (name, _) => .text name)
  | _ => .error (.malformed .wrongKind)

/-- The text that a value is. -/
def text? : Json → Option String
  | .text s => some s
  | _ => none

/-- The text that a value is, or nothing at all. -/
def textOrNull? : Json → Option (Option String)
  | .null => some none
  | v => some <$> text? v

/-- Whether a value is made of others. -/
def isCompound : Json → Bool
  | .list _ => true
  | .record _ => true
  | _ => false

/-- A value that can name something. -/
def simple (v : Json) : Decoded Json :=
  if isCompound v then .error (.malformed .wrongKind) else .ok v

/-- The elements of a value that is gone through as a set. -/
def members (v : Json) : Decoded (List Json) := do (← items v).mapM simple

/-- A whole number: fractions are cut off, truth values count as one and zero, and
texts are read. -/
def integer : Json → Decoded Int
  | .int n => .ok n
  | .bool b => .ok (if b then 1 else 0)
  | .text s => (Number.integer? s).elim (.error .notNumber) .ok
  | .float .undefined => .error .notNumber
  | .float x => x.truncate?.elim (.error .outOfRange) .ok
  | _ => .error (.malformed .wrongKind)

/-- A moment: any number, or a text that writes one. -/
def moment : Json → Decoded Moment
  | .float x => .ok x
  | .int n => (Binary64.ofInt? n).elim (.error .outOfRange) .ok
  | .bool b => .ok (Binary64.ofDecimal false (if b then 1 else 0) 0)
  | .text s => (Binary64.ofText? s).elim (.error .notNumber) .ok
  | _ => .error (.malformed .wrongKind)

/-- A field that every record has. -/
def required (v : Json) (name : String) : Decoded Json :=
  match v with
  | .record fs => ((Json.field? fs name).elim (.error (.malformed .missingField)) .ok)
  | _ => .error (.malformed .wrongKind)

/-- A field that a record may lack. -/
def optional (v : Json) (name : String) (default : Json) : Decoded Json :=
  match v with
  | .record fs => .ok ((Json.field? fs name).getD default)
  | _ => .error (.malformed .notRecord)

/-- Reads a node and the value that names its file. -/
def toNode (v : Json) : Decoded (Json × Option GraphNode) := do
  let file ← required v "file"
  let importedBy ← optional v "importedBy" (.list []) >>= members
  let imports ← optional v "imports" (.list []) >>= members
  let isRouteFile ← optional v "isRouteFile" (.bool false)
  let isEntryPoint ← optional v "isEntryPoint" (.bool false)
  return (file, do
    let importedBy ← importedBy.mapM text?
    let imports ← imports.mapM text?
    return {
      importedBy := NameSet.ofList importedBy
      imports := NameSet.ofList imports
      isRouteFile := isRouteFile.truth
      isEntryPoint := isEntryPoint.truth })

/-- Reads an import. -/
def toEdge (v : Json) : Decoded (Option ImportEdge) := do
  let source ← optional v "source" .null
  let line ← optional v "line" (.int 0) >>= integer
  let specifier ← optional v "specifier" (.text "")
  let kind ← optional v "kind" (.text "static")
  return do
    return {
      source := ← textOrNull? source
      line
      specifier := ← text? specifier
      kind := ← text? kind }

/-- Reads a route that a file declares. -/
def toRoute (file : Json) (v : Json) : Decoded (Option RouteDecl) := do
  let path ← required v "path"
  let component ← optional v "component" (.text unknownComponent)
  let declaringFile ← optional v "declaringFile" file
  let line ← optional v "line" (.int 0) >>= integer
  let recognizer ← optional v "recognizer" (.text "")
  return do
    return {
      path := ← text? path
      component := ← text? component
      declaringFile := ← text? declaringFile
      line
      recognizer := ← text? recognizer }

/-- Reads a fact.  Facts are filed under their paths as soon as they are read. -/
def toFact (v : Json) : Decoded (Option FileFact) := do
  let path ← required v "path"
  let imports ← (← optional v "imports" (.list []) >>= items).mapM toEdge
  let exports ← optional v "exports" (.list []) >>= items
  let routes ← (← optional v "routes" (.list []) >>= items).mapM (toRoute path)
  let contentHash ← optional v "contentHash" (.text "")
  let lastSeenAt ← optional v "lastSeenAt" (.float Binary64.zero) >>= moment
  let path ← simple path
  return do
    return {
      path := ← text? path
      imports := ← imports.mapM id
      exports := ← exports.mapM text?
      routes := ← routes.mapM id
      contentHash := ← text? contentHash
      lastSeenAt }

/-- Whether a value is the version that can be read. -/
def isCurrent : Json → Bool
  | .text s => s == formatVersion
  | _ => false

/-- The node of a file that is named by a text. -/
def named (entry : Json × Option GraphNode) : Option (String × GraphNode) := do
  return (← text? entry.1, ← entry.2)

/-- The graph of nodes and facts that were read.  A file may be named by any value that is
not made of others, but only texts name the files of a graph. -/
def assemble (prune : Bool) (nodes : List (Json × Option GraphNode))
    (facts : List (Option FileFact)) : Decoded ImportGraph :=
  if nodes.any (isCompound ·.1) then .error .compoundName
  else
    match nodes.mapM named, facts.mapM id with
    | some nodes, some facts => .ok (({ prune } : ImportGraph).load nodes facts)
    | _, _ => .error .untyped

/-- Reads the graph of a data value. -/
def toGraph (prune : Bool) (v : Json) : Decoded ImportGraph := do
  match v with
  | .record _ => pure ()
  | _ => throw .notRecord
  let version := (v.get? "version").getD .null
  if !isCurrent version then throw (.version version)
  let nodes ← (← optional v "graph" (.list []) >>= items).mapM toNode
  let facts ← (← optional v "fileCache" (.list []) >>= items).mapM toFact
  assemble prune nodes facts

/-- Reads the graph of a persisted text. -/
def decode (prune : Bool) (s : String) : Decoded ImportGraph :=
  match Json.parse s with
  | .error .notJson => .error .notJson
  | .error .tooManyDigits => .error .tooManyDigits
  | .ok v => toGraph prune v

/-- Reads the graph of persisted bytes. -/
def decodeBytes (prune : Bool) (bytes : ByteArray) : Decoded ImportGraph :=
  match String.fromUTF8? bytes with
  | some s => decode prune s
  | none => .error .notUnicode

end RouteImpact.Document
