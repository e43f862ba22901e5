import RouteImpact.Digest.Md5
import RouteImpact.Fact.Resolver
import RouteImpact.Route.Recognizer

namespace RouteImpact

open Syntax Source RouteImpact.Fact

/-!
# Extracting facts

Turns the text of a file into its `FileFact`.  A text that is binary or too large
yields an empty fact; one without a tree yields only the routes that its path
declares.  An import that cannot be resolved ends the extraction.
-/

/-- How facts are extracted in one project. -/
structure Extractor where
  resolver : Resolver
  recognizers : List Route.Recognizer := Route.defaultRecognizers
  framework : String := "unknown"
  maxFileSize : Int := 1024 * 1024

namespace Extractor

/-! ### Imports -/

/-- The specifier that a statement or call imports, and how. -/
def importOf? (n : Node) : Option (String × String) :=
  if n.kind = "call_expression" then
    match dynamicSpecifier? n with
    | some specifier => some (specifier, "dynamic")
    | none => (requireSpecifier? n).map (·, "static")
  else ((n.child? "source").bind (·.stringValue?)).map (·, "static")

/-- The nodes of a tree that may import. -/
def importNodes (t : Tree) : List Node :=
  t.nodes ["import_statement", "export_statement", "call_expression"]

/-- The specifiers that a tree imports, in document order. -/
def specifiers (t : Tree) : List String :=
  (importNodes t).filterMap fun n => (importOf? n).map (·.1)

/-- The imports of a tree, in document order. -/
def imports (r : Resolver) (file : String) (t : Tree) : List ImportEdge :=
  (importNodes t).filterMap fun n =>
    (importOf? n).map fun (specifier, kind) =>
      { source := r.source? file specifier, line := n.line, specifier, kind }

/-! ### Exports -/

/-- Declarations that carry their name in a field. -/
def namedDeclarations : List String :=
  ["function_declaration", "generator_function_declaration", "class_declaration",
   "abstract_class_declaration", "interface_declaration", "type_alias_declaration",
   "enum_declaration"]

/-- The text of a node that may be missing. -/
def textOf (n : Option Node) : String := n.elim "" (·.text)

/-- The names that a declaration declares. -/
def declaredNames (declaration : Node) : List String :=
  if declaration.kind = "lexical_declaration" ∨ declaration.kind = "variable_declaration" then
    (declaration.namedChildren.filter (·.kind = "variable_declarator")).map fun d =>
      textOf (d.child? "name")
  else if namedDeclarations.contains declaration.kind then [textOf (declaration.child? "name")]
  else []

/-- The names in an export clause. -/
def clauseNames (clause : Node) : List String :=
  (clause.namedChildren.filter (·.kind = "export_specifier")).map fun s =>
    textOf ((s.child? "alias").or (s.child? "name"))

/-- The names that an export statement exports. -/
def statementExports (statement : Node) : List String :=
  if statement.children.any (·.kind = "default") then ["default"]
  else
    match statement.child? "declaration" with
    | some declaration => declaredNames declaration
    | none =>
      (statement.namedChildren.filter (·.kind = "export_clause")).flatMap clauseNames

/-- The exported names of a tree, in document order. -/
def exports (t : Tree) : List String :=
  ((t.nodes ["export_statement"]).flatMap statementExports).filter (· != "")

/-! ### Facts -/

/-- Whether a text is not analysed at all. -/
def isSkippable (x : Extractor) (content : String) : Bool :=
  isBinary content || x.maxFileSize < (content.utf8ByteSize : Int)

/-- The tree of a file, if it has one. -/
def parse (file content : String) : Option Tree :=
  (Source.parse content (Path.splitExtension file).2).toOption

/-- The routes of a file. -/
def routes (x : Extractor) (file : String) (t : Option Tree) : List RouteDecl :=
  Route.recognizeAll x.recognizers { file, tree := t, framework := x.framework }

/-- The fact of a file with the given content, as far as its imports can be resolved. -/
def factOf (x : Extractor) (now : Moment) (file content : String) : FileFact :=
  if x.isSkippable content then FileFact.none file now
  else
    let t := parse file content
    { path := file
      imports := t.elim [] (imports x.resolver file)
      exports := t.elim [] exports
      routes := x.routes file t
      contentHash := Digest.contentHash content
      lastSeenAt := now }

/-- The specifiers that are resolved for a file with the given content. -/
def specifiersOf (x : Extractor) (file content : String) : List String :=
  if x.isSkippable content then [] else (parse file content).elim [] specifiers

/-- Extracts the fact of a file with the given content. -/
def extract (x : Extractor) (now : Moment) (file content : String) : Except Failure FileFact :=
  match x.resolver.resolveEach file (x.specifiersOf file content) with
  | .error e => .error e
  | .ok () => .ok (x.factOf now file content)

end Extractor

end RouteImpact
