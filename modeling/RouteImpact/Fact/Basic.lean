import RouteImpact.Number.Binary64
import RouteImpact.Text.Basic

namespace RouteImpact

open Number (Binary64)

/-!
# Facts about files

What is known about one version of a source file: what it imports, which names it
exports and which routes it declares.  A fact is replaced as a whole when the
file's content changes.
-/

/-- One import.  `source` is the file it resolves to; an external package has
none. -/
structure ImportEdge where
  source : Option String
  line : Int
  specifier : String := ""
  kind : String := "static"
deriving Repr, DecidableEq, Inhabited

/-- The path of a route that has none of its own. -/
def indexRoute : String := "(index)"

/-- The component of a route that names none. -/
def unknownComponent : String := "unknown"

/-- A route that a file declares. -/
structure RouteDecl where
  path : String
  component : String
  declaringFile : String
  line : Int
  recognizer : String := ""
deriving Repr, DecidableEq, Inhabited

/-- A moment, in seconds. -/
abbrev Moment := Binary64

/-- What is known about a file. -/
structure FileFact where
  path : String
  imports : List ImportEdge := []
  exports : List String := []
  routes : List RouteDecl := []
  contentHash : String := ""
  lastSeenAt : Moment
deriving Repr, DecidableEq, Inhabited

namespace FileFact

/-- The files that are imported, in order and without repetitions. -/
def resolvedImports (f : FileFact) : List String :=
  Text.distinct (f.imports.filterMap (·.source))

/-- The paths of the declared routes. -/
def routePaths (f : FileFact) : List String := f.routes.map (·.path)

/-- The fact of a file that was skipped or could not be read. -/
def none (path : String) (now : Moment) : FileFact := { path, lastSeenAt := now }

end FileFact

end RouteImpact
