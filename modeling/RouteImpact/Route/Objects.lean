import RouteImpact.Fact.Basic
import RouteImpact.Route.Address
import RouteImpact.Route.Component

namespace RouteImpact.Route.Objects

open Syntax Source

/-!
# Routes written as objects

An object with a `path`, or with `index: true`, declares a route:
`{ path: "/about", element: <About /> }`.  The objects in its `children` array
declare routes below it; each object is visited once, from the outermost route
object around it.
-/

/-- The key and the value of a pair. -/
def pair? (n : Node) : Option (String × Node) :=
  if n.kind ≠ "pair" then none
  else
    match n.child? "key", n.child? "value" with
    | some key, some value => some (key.stringValue?.getD key.text, value)
    | _, _ => none

/-- The pairs of an object, in order. -/
def pairs (object : Node) : List (String × Node) := object.namedChildren.filterMap pair?

/-- The value of the first pair with a key. -/
def value? (object : Node) (key : String) : Option Node :=
  ((pairs object).find? (·.1 == key)).map (·.2)

/-- The keys that make an object a route object. -/
def routeKeys : List String := ["path", "index", "element", "component"]

/-- Whether an object has one of the keys of a route. -/
def isRouteObject (object : Node) : Bool :=
  routeKeys.any fun key => (value? object key).isSome

/-- The path that an object itself declares. -/
def ownPath? (object : Node) : Option String :=
  match value? object "path" with
  | some value => some (literalOrText value)
  | none =>
    match value? object "index" with
    | some value => if value.text = "true" then some indexRoute else none
    | none => none

/-- The component that an object names. -/
def objectComponent? (object : Node) : Option String :=
  componentKeys.findSome? fun key =>
    (value? object key).bind fun value => (component? value).bind nonEmpty?

/-- The objects in the array of child routes. -/
def childObjects (object : Node) : List Node :=
  match value? object "children" with
  | some list => if list.kind = "array" then list.namedChildren.filter (·.kind = "object") else []
  | none => []

theorem sizeOf_value_lt {object value : Node} {key : String} (h : value? object key = some value) :
    sizeOf value < sizeOf object := by
  simp only [value?, Option.map_eq_some_iff] at h
  obtain ⟨⟨k, v⟩, hfind, rfl⟩ := h
  have hmem := List.mem_of_find?_eq_some hfind
  simp only [pairs, List.mem_filterMap] at hmem
  obtain ⟨p, hp, hpair⟩ := hmem
  have hlt := Node.sizeOf_lt_of_mem_named hp
  have hv : v ∈ p.children := by
    unfold pair? at hpair
    split at hpair
    · exact absurd hpair (by simp)
    · split at hpair
      · rename_i hval
        simp only [Option.some.injEq, Prod.mk.injEq] at hpair
        exact hpair.2 ▸ List.mem_of_find?_eq_some hval
      · exact absurd hpair (by simp)
  have := Node.sizeOf_lt_of_mem hv
  simp only
  omega

theorem sizeOf_childObjects_lt {object child : Node} (h : child ∈ childObjects object) :
    sizeOf child < sizeOf object := by
  unfold childObjects at h
  split at h
  · rename_i list hlist
    split at h
    · have h1 := sizeOf_value_lt hlist
      have h2 := Node.sizeOf_lt_of_mem_named (List.mem_filter.1 h).1
      omega
    · simp at h
  · simp at h

/-- The full path of an object inside a route. -/
def fullPath (parent : String) (object : Node) : String :=
  (ownPath? object).elim parent (join parent)

/-- The route that an object declares, given the path around it. -/
def declared (file parent : String) (object : Node) : List RouteDecl :=
  match ownPath? object with
  | none => []
  | some own =>
    [{ path := join parent own
       component := (objectComponent? object).getD unknownComponent
       declaringFile := file
       line := object.line
       recognizer := "object" }]

/-- The routes of an object and of its child routes, and the numbers of the child
objects met on the way. -/
def visit (file parent : String) (object : Node) : List RouteDecl × List Nat :=
  if isRouteObject object then
    let below := (childObjects object).attach.map fun ⟨child, _h⟩ =>
      let (routes, nested) := visit file (fullPath parent object) child
      (routes, child.id :: nested)
    (declared file parent object ++ below.flatMap (·.1), below.flatMap (·.2))
  else ([], [])
termination_by sizeOf object
decreasing_by exact sizeOf_childObjects_lt _h

/-- Visits objects in order, but none that was met as a child of another. -/
def visitAll (file : String) : List Node → List Nat → List RouteDecl
  | [], _ => []
  | object :: rest, nested =>
    if nested.contains object.id then visitAll file rest nested
    else
      let (routes, more) := visit file "" object
      routes ++ visitAll file rest (more ++ nested)

/-- The routes that the objects of a tree declare. -/
def routes (file : String) (t : Tree) : List RouteDecl := visitAll file (t.nodes ["object"]) []

end RouteImpact.Route.Objects
