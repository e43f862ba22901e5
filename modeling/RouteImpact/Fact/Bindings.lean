import RouteImpact.Fact.Extractor

namespace RouteImpact

open Syntax Source RouteImpact.Fact

/-!
# Names bound by imports

Every local name that a file's imports introduce, with the module it comes from.
Static imports come first; a name that is bound again to a module loaded at run
time keeps its place and takes the later meaning.
-/

/-- What a local name means. -/
structure ImportBinding where
  localName : String
  specifier : String
  resolvedPath : Option String
  importType : String
  importedName : String
  line : Nat
deriving Repr, DecidableEq

/-- The bindings of a file, by local name. -/
abbrev ImportMap := OrderedMap ImportBinding

namespace ImportMap

/-- The names that one part of an import clause binds: the local name, how it is
bound, and the name it has in the module. -/
def clauseParts (part : Node) : List (String × String × String) :=
  if part.kind = "identifier" then [(part.text, "default", "default")]
  else if part.kind = "namespace_import" then
    (part.namedChildren.filter (·.kind = "identifier")).map fun n => (n.text, "namespace", "*")
  else if part.kind = "named_imports" then
    (part.namedChildren.filter (·.kind = "import_specifier")).map fun s =>
      let imported := Extractor.textOf (s.child? "name")
      ((s.child? "alias").elim imported (·.text), "named", imported)
  else []

/-- The specifier of an import statement. -/
def specifier? (statement : Node) : Option String :=
  (statement.child? "source").bind (·.stringValue?)

/-- The bindings of an import statement. -/
def ofStatement (resolve : String → Option String) (statement : Node) : List ImportBinding :=
  match specifier? statement with
  | none => []
  | some specifier =>
    let clauses := statement.namedChildren.filter (·.kind = "import_clause")
    let parts := clauses.flatMap (·.namedChildren.flatMap clauseParts)
    parts.map fun (localName, importType, importedName) =>
      { localName, specifier, resolvedPath := resolve specifier, importType, importedName,
        line := statement.line }

/-- The binding of a module loaded at run time. -/
def ofLazy (resolve : String → Option String) (b : LazyBinding) : ImportBinding :=
  { localName := b.localName, specifier := b.specifier, resolvedPath := resolve b.specifier,
    importType := b.kind.name, importedName := if b.kind = .lazy then "default" else "*",
    line := b.line }

/-- The bindings of a tree in the order in which they are made. -/
def bindings (r : Resolver) (file : String) (t : Tree) : List ImportBinding :=
  (t.nodes ["import_statement"]).flatMap (ofStatement (r.source? file)) ++
    (lazyBindings t).map (ofLazy (r.source? file))

/-- The specifiers that are resolved for the bindings of a tree. -/
def specifiers (t : Tree) : List String :=
  (t.nodes ["import_statement"]).filterMap specifier? ++ (lazyBindings t).map (·.specifier)

/-- The bindings of a tree, by local name, as far as they can be resolved. -/
def collect (r : Resolver) (file : String) (t : Tree) : ImportMap :=
  OrderedMap.ofList ((bindings r file t).map fun b => (b.localName, b))

/-- Makes the map of a tree. -/
def make (r : Resolver) (file : String) (t : Tree) : Except Failure ImportMap :=
  match r.resolveEach file (specifiers t) with
  | .error e => .error e
  | .ok () => .ok (collect r file t)

end ImportMap

end RouteImpact
