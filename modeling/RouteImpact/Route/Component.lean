import RouteImpact.Fact.Loading
import RouteImpact.Path.Lexical

namespace RouteImpact.Route

open Syntax RouteImpact.Fact

/-!
# Components of routes

The name of the component that a route renders, read off the value it is given:
an element, a name, a call, or a function that loads a module.
-/

/-- A text that is not empty. -/
def nonEmpty? (s : String) : Option String := if s = "" then none else some s

/-- The name of an element's tag. -/
def elementName? (n : Node) : Option String :=
  if n.kind = "jsx_self_closing_element" then
    nonEmpty? ((n.child? "name").elim "" (·.text))
  else if n.kind = "jsx_element" then
    let tag := (n.child? "open_tag").or (n.namedChildren.find? (·.kind = "jsx_opening_element"))
    tag.bind fun tag => nonEmpty? ((tag.child? "name").elim "" (·.text))
  else none

/-- The name of the file that a specifier names, without its ending. -/
def specifierStem (specifier : String) : String :=
  let stem := Path.baseName (Text.stripEnd (· == '/') specifier)
  let name := (Path.splitExtension stem).1
  if name = "" then specifier else name

/-- Takes the braces away from around an embedded expression; an empty one is
nothing. -/
def unbrace (n : Node) : Option Node := unwrapKinds ["jsx_expression"] n

/-- The component named by an expression without braces around it. -/
def componentOf? (n : Node) : Option String :=
  if n.kind = "jsx_self_closing_element" ∨ n.kind = "jsx_element" then elementName? n
  else if n.kind = "identifier" ∨ n.kind = "member_expression" then some n.text
  else if n.kind = "arrow_function" then
    ((loaderSpecifier? n).bind nonEmpty?).map specifierStem
  else if n.kind = "call_expression" then
    match ((lazySpecifier? n).bind nonEmpty?).or ((dynamicSpecifier? n).bind nonEmpty?) with
    | some specifier => some (specifierStem specifier)
    | none =>
      (n.child? "function").bind fun callee =>
        if callee.kind = "identifier" ∨ callee.kind = "member_expression" then some callee.text
        else none
  else none

/-- The component named by the value of a route. -/
def component? (n : Node) : Option String := (unbrace n).bind componentOf?

/-- The value of a literal, or else the text of an expression. -/
def literalOrText (n : Node) : String :=
  match unbrace n with
  | none => ""
  | some n => n.stringValue?.getD n.text

/-- The keys under which a route names its component, in order. -/
def componentKeys : List String := ["element", "component", "Component"]

end RouteImpact.Route
