import RouteImpact.Path.Lexical
import RouteImpact.Text.Lowercase

namespace RouteImpact.Route

/-!
# Roles of route files

A file that declares routes is a test, a file made for that purpose, or a
component that happens to declare some.  Its path tells which.
-/

/-- What a route file is for. -/
inductive Role where
  | test
  | primary
  | component
deriving Repr, DecidableEq

/-- The word for a role. -/
def Role.name : Role → String
  | .test => "test"
  | .primary => "primary"
  | .component => "component-with-routes"

/-- Directories that hold tests. -/
def testDirectories : List String :=
  ["test", "tests", "__tests__", "__mocks__", "spec", "specs", "e2e"]

/-- Words in the names of files and directories that are made to declare routes. -/
def routerWords : List String := ["router", "routes", "routing"]

/-- The role of a file that declares routes. -/
def Role.ofPath (file : String) : Role :=
  let path := Text.lower file
  let name := Path.lastName path
  let above := (Path.parts path).dropLast
  let stem := Text.before '.' name
  if above.any (testDirectories.contains ·) ∨ Text.contains name ".test." ∨
      Text.contains name ".spec." then .test
  else if routerWords.any (Text.contains stem ·) ∨ stem = "app" then .primary
  else if above.any (routerWords.contains ·) then .primary
  else .component

end RouteImpact.Route
