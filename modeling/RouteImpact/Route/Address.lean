import RouteImpact.Text.Basic

namespace RouteImpact.Route

/-!
# Route addresses

How the paths of nested routes are joined, and how the names of directories and
files become parts of a route: a name in brackets is a parameter, and one that
starts with three points matches any number of parts.
-/

/-- Joins a nested route onto the route around it.  An absolute route stands for
itself, and an empty one adds nothing. -/
def join (parent child : String) : String :=
  if parent = "" ∨ Text.startsWith child "/" then child
  else if child = "" then parent
  else Text.stripEnd (· == '/') parent ++ "/" ++ child

/-- Reads `opening`, one or more characters other than a closing bracket, and
`closing`; gives the characters between and the rest. -/
def bracketed? (opening closing cs : List Char) : Option (List Char × List Char) :=
  if opening.isPrefixOf cs then
    let (inner, rest) := (cs.drop opening.length).span (· != ']')
    if inner ≠ [] ∧ closing.isPrefixOf rest then some (inner, rest.drop closing.length) else none
  else none

/-- Replaces every bracketed run, from left to right, by its image; `fuel` is the
length of the text. -/
def replaceLoop (opening closing : List Char) (image : List Char → List Char) :
    Nat → List Char → List Char
  | 0, cs => cs
  | _ + 1, [] => []
  | fuel + 1, c :: cs =>
    match bracketed? opening closing (c :: cs) with
    | some (inner, rest) => image inner ++ replaceLoop opening closing image fuel rest
    | none => c :: replaceLoop opening closing image fuel cs

/-- Replaces every bracketed run by its image. -/
def replace (opening closing : List Char) (image : List Char → List Char) (cs : List Char) :
    List Char :=
  replaceLoop opening closing image cs.length cs

/-- Turns bracketed names into parameters: first the ones that match any number
of parts, so that the plain rule never sees them. -/
def withParameters (route : String) : String :=
  let any (_ : List Char) : List Char := ['*']
  let named (inner : List Char) : List Char := ':' :: inner
  let cs := replace ['[', '[', '.', '.', '.'] [']', ']'] any route.toList
  let cs := replace ['[', '.', '.', '.'] [']'] any cs
  let cs := replace ['[', '['] [']', ']'] named cs
  String.ofList (replace ['['] [']'] named cs)

/-- What follows the first component `marker` that is not the last one. -/
def afterMarker? (marker : String) : List String → Option (List String)
  | [] => none
  | [_] => none
  | part :: rest => if part = marker then some rest else afterMarker? marker rest

/-- Groups in parentheses and slots with an at sign add nothing to a route. -/
def isInvisible (segment : String) : Bool :=
  (Text.startsWith segment "(" && Text.endsWith segment ")") || Text.startsWith segment "@"

/-- The route of a list of directory names. -/
def ofSegments (segments : List String) : String :=
  withParameters ("/" ++ Text.join "/" segments)

end RouteImpact.Route
