import RouteImpact.Disk.Basic
import RouteImpact.Json.Reader
import RouteImpact.Project.Failure

namespace RouteImpact.Project

/-!
# The framework of a project

The routing framework is known by the packages that the project's manifest asks
for.
-/

/-- The framework of a project that names none. -/
def unknownFramework : String := "unknown"

/-- Frameworks and their packages; the first with a package in use counts. -/
def frameworkPackages : List (String × List String) :=
  [("react-router", ["react-router", "react-router-dom"]),
   ("nextjs", ["next"]),
   ("vuejs", ["vue", "vue-router", "nuxt"]),
   ("sveltekit", ["@sveltejs/kit"])]

/-- The names of the fields of a record. -/
def fieldNames : Json → List String
  | .record fields => fields.map (·.1)
  | _ => []

/-- The packages that a manifest asks for. -/
def packages (manifest : Json) : List String :=
  ["dependencies", "devDependencies"].flatMap fun part =>
    ((manifest.get? part).map fieldNames).getD []

/-- The framework that a manifest asks for. -/
def frameworkOf (manifest : Json) : String :=
  let used := packages manifest
  ((frameworkPackages.find? fun (_, names) => names.any (used.contains ·)).map (·.1)).getD
    unknownFramework

/-- The framework of a project; unknown when its manifest cannot be read. -/
def detectFramework (d : Disk) (root : String) : Except Failure String :=
  match d.text? (Path.append root "package.json") with
  | none => .ok unknownFramework
  | some text =>
    match Json.parse text with
    | .error .tooManyDigits => .error .tooManyDigits
    | .error .notJson => .ok unknownFramework
    | .ok manifest => .ok (frameworkOf manifest)

end RouteImpact.Project
