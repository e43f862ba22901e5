import RouteImpact.Fact.Basic
import RouteImpact.Route.Address
import RouteImpact.Route.Component

namespace RouteImpact.Route.Markup

open Syntax Source

/-!
# Routes written as elements

An element with a `path` attribute, or with a bare or true `index`, declares a
route: `<Route path="/about" element={<About />} />`.  Its path is joined onto the
paths of the paired elements around it.
-/

/-- The tag that carries an element's attributes. -/
def tag? (element : Node) : Option Node :=
  if element.kind = "jsx_self_closing_element" then some element
  else element.namedChildren.find? (·.kind = "jsx_opening_element")

/-- The attribute that a node of a tag declares: its name and its value, if it has
one. -/
def attribute? (n : Node) : Option (String × Option Node) :=
  if n.kind ≠ "jsx_attribute" then none
  else
    match n.namedChildren with
    | [] => none
    | [name] => some (name.text, none)
    | name :: rest => some (name.text, rest.getLast?)

/-- The attributes of an element, in order. -/
def attributes (element : Node) : List (String × Option Node) :=
  match tag? element with
  | some tag => tag.namedChildren.filterMap attribute?
  | none => []

/-- The first attribute of a name. -/
def find? (attrs : List (String × Option Node)) (name : String) : Option (Option Node) :=
  (attrs.find? (·.1 == name)).map (·.2)

/-- The path that an element itself declares. -/
def ownPath? (attrs : List (String × Option Node)) : Option String :=
  match find? attrs "path" with
  | some value => some (value.elim "" literalOrText)
  | none =>
    match find? attrs "index" with
    | some none => some indexRoute
    | some (some value) => if literalOrText value = "true" then some indexRoute else none
    | none => none

/-- The own paths of the enclosing elements, nearest first, up to the nearest
absolute one. -/
def enclosingPaths : List Node → List String
  | [] => []
  | n :: rest =>
    if n.kind = "jsx_element" then
      match ownPath? (attributes n) with
      | some own => if Text.startsWith own "/" then [own] else own :: enclosingPaths rest
      | none => enclosingPaths rest
    else enclosingPaths rest

/-- The path of the routes around an element. -/
def parentPath (enclosing : List Node) : String :=
  (enclosingPaths enclosing).foldr (fun own route => join route own) ""

/-- The component that an attribute of an element names. -/
def attributeComponent? (attrs : List (String × Option Node)) : Option String :=
  componentKeys.findSome? fun key =>
    match find? attrs key with
    | some (some value) => (component? value).bind nonEmpty?
    | _ => none

/-- The component of a route: named by an attribute, or the first element inside
that is not a route. -/
def elementComponent? (element : Node) (attrs : List (String × Option Node)) : Option String :=
  match attributeComponent? attrs with
  | some name => some name
  | none =>
    if element.kind ≠ "jsx_element" then none
    else
      let rendered := element.namedChildren.find? fun c =>
        (c.kind = "jsx_element" ∨ c.kind = "jsx_self_closing_element") ∧
          (ownPath? (attributes c)).isNone
      rendered.bind elementName?

/-- The route that an element declares. -/
def route? (file : String) (site : Site) : Option RouteDecl :=
  let attrs := attributes site.node
  (ownPath? attrs).map fun own =>
    { path := join (parentPath site.enclosing) own
      component := (elementComponent? site.node attrs).getD unknownComponent
      declaringFile := file
      line := site.node.line
      recognizer := "jsx" }

/-- The routes that the elements of a tree declare, in document order. -/
def routes (file : String) (t : Tree) : List RouteDecl :=
  (t.sites ["jsx_element", "jsx_self_closing_element"]).filterMap (route? file)

end RouteImpact.Route.Markup
