namespace RouteImpact.Syntax

/-!
# Syntax trees

A parsed source file is a `Node`: a kind, the text it spans, the line it starts
on, and its children in source order.  Kinds are plain strings, because queries
name the kinds they look for.  Punctuation and keywords are *anonymous* nodes
whose kind is their own spelling; comments are ordinary named nodes and stand
wherever they were written, so "the first named child" may be a comment.

* `Node.child?` : the child that carries a field name.
* `Node.preorder` : every node below a node, parents before children.
* `Node.stringValue?` : the text a string literal denotes.
-/

/-- A node of a syntax tree.  `id` tells two nodes of one tree apart, `line`
counts from one. -/
structure Node where
  kind : String
  named : Bool
  field? : Option String
  id : Nat
  line : Nat
  text : String
  children : List Node
deriving Repr, Inhabited

namespace Node

/-- The children that are not punctuation or keywords. -/
def namedChildren (n : Node) : List Node :=
  n.children.filter (·.named)

/-- The first child that carries the field `name`. -/
def child? (n : Node) (name : String) : Option Node :=
  n.children.find? (·.field? == some name)

/-- The same node, carrying the field `name` unless it already carries one.
Comments never carry a field. -/
def withField (name : String) (n : Node) : Node :=
  if n.field?.isNone && n.kind != "comment" then { n with field? := some name } else n

mutual

/-- A node and everything below it, parents before children and children from
left to right. -/
def preorder : Node → List Node
  | ⟨kind, named, field?, id, line, text, children⟩ =>
    ⟨kind, named, field?, id, line, text, children⟩ :: preorderAll children

/-- `preorder` of each node of a list, one after the other. -/
def preorderAll : List Node → List Node
  | [] => []
  | n :: rest => preorder n ++ preorderAll rest

end

/-- The text between the quotes of a string literal whose quotes match, else the
whole text. -/
private def unquoted (text : String) : String :=
  match text.toList with
  | q :: rest =>
    if (q = '\'' ∨ q = '"') ∧ rest.getLast? = some q then String.ofList rest.dropLast else text
  | [] => text

/-- The literal value of a string, or of a template without substitutions.
Nothing is decoded: escape sequences stay as they are written.  A string that
has fragments denotes their concatenation, which leaves out character
references; one without fragments denotes the text between its quotes. -/
def stringValue? (n : Node) : Option String :=
  if n.kind = "string" then
    let fragments := n.children.filter fun c =>
      c.kind = "string_fragment" ∨ c.kind = "escape_sequence"
    if fragments.isEmpty then some (unquoted n.text)
    else some (String.join (fragments.map (·.text)))
  else if n.kind = "template_string" then
    if n.children.any (·.kind = "template_substitution") then none
    else some (String.ofList ((n.text.toList.drop 1).dropLast))
  else none

end Node

end RouteImpact.Syntax
