import RouteImpact.Analysis.Query
import RouteImpact.Tool.Diff

namespace RouteImpact.Tool

/-!
# Answers in words

The questions of `RouteImpact.Analysis.Query` with answers written out for
readers.
-/

/-- Lines as one text. -/
def block (lines : List String) : String := Text.join "\n" lines

/-- A list on one line. -/
def listed (xs : List String) : String := Text.join ", " xs

/-- What is said when no file is named. -/
def noFiles : String := "No files given."

/-- The routes that the given files affect. -/
def affectedReport (paths : List String) (found : OrderedMap (List String)) : String :=
  if found.size = 0 then
    "No routes affected by " ++ toString paths.length ++ " changed file(s)."
  else
    let all := Text.sortedSet found.values.flatten
    block (
      ("Affected routes (" ++ toString all.length ++ "):") :: all.map ("  " ++ ·) ++ "" ::
        paths.filterMap fun path =>
          (found.get? path).map fun routes => path ++ " -> " ++ listed routes)

/-- Tells which routes changes to files affect. -/
def detectRoutes (s : Session) (paths : List String) (precise : Bool) : Outcome String :=
  if paths.isEmpty then (.ok noFiles, s)
  else Outcome.map (affectedReport paths) (s.detectRoutes paths precise)

/-- What is said about one file. -/
def infoLines (path : String) (info : RouteInfo) : List String :=
  path :: (info.role.elim [] fun role => ["  Declares routes (" ++ role.name ++ ")"]) ++
    ["  Routes: " ++ if info.routes.isEmpty then "(none)" else listed info.routes]

/-- Tells what files have to do with routes. -/
def routeInfo (s : Session) (paths : List String) : Outcome String :=
  if paths.isEmpty then (.ok noFiles, s)
  else
    Outcome.map
      (fun found => block (paths.flatMap fun path => infoLines path ((found.get? path).getD {})))
      (s.routeInfo paths)

/-- The routes that render a component. -/
def servingReport (path : String) (found : List ServingRoute) : String :=
  if found.isEmpty then "No route renders " ++ path ++ "."
  else
    block (
      ("Routes serving " ++ path ++ " (" ++ toString found.length ++ "):") ::
        found.map fun r =>
          "  " ++ r.routePath ++ "  " ++ r.component ++ "  -- " ++ r.routeFile ++ ":" ++
            toString r.line)

/-- Tells which routes render a component. -/
def routesServing (s : Session) (path : String) : Outcome String :=
  if path = "" then (.ok "No component file given.", s)
  else Outcome.map (servingReport path) (s.routesServing path)

/-- Tells the size of the graph. -/
def metrics (s : Session) : Outcome String :=
  Outcome.map
    (fun m => block [
      "Import graph for " ++ Path.lastName s.root,
      "  Files:         " ++ toString m.totalFiles,
      "  Route files:   " ++ toString m.routeFiles,
      "  Entry points:  " ++ toString m.entryPoints,
      "  Import edges:  " ++ toString m.importEdges])
    s.metrics

/-- Tells which routes the files of a diff affect. -/
def detectChanges (s : Session) (diff : String) : Outcome String :=
  match Diff.files diff with
  | [] => (.ok "Could not find any changed files in the diff.", s)
  | files => detectRoutes s (files.filter (Text.strip · != "")) false

end RouteImpact.Tool
