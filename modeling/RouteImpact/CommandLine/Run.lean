import RouteImpact.Analysis.Query
import RouteImpact.Analysis.Watch
import RouteImpact.CommandLine.Arguments
import RouteImpact.CommandLine.Table

namespace RouteImpact.CommandLine

open Settings (Config ConfigError)

/-!
# Running a command line

A run is a function of the arguments, the environment, the standard input and the
disk; it gives what is printed, the exit code and the disk after it.
-/

/-- What a run depends on. -/
structure Surroundings where
  /-- The current directory, as an absolute path. -/
  directory : String
  environment : OrderedMap String := OrderedMap.empty
  input : String := ""
  disk : Disk
  now : Moment
  /-- How long a build takes, as it is shown. -/
  duration : String := "0.00s"

/-- What reaches a watching run: a change to the disk and the paths it names, or
the end. -/
inductive WatchEvent where
  | batch (edit : Disk → Disk) (changed : List String)
  | interrupt

/-- What a run leaves. -/
structure Reply where
  exitCode : Nat := 0
  output : String := ""
  disk : Disk

/-- The version of the program. -/
def programVersion : String := "0.3.0"

/-- Lines, each with its end. -/
def printed (lines : List String) : String := String.join (lines.map (· ++ "\n"))

/-! ### Settings -/

/-- The aliases of several lists, later ones over earlier ones. -/
def aliasOptions : List String → Settings.Aliases → Except ConfigError Settings.Aliases
  | [], aliases => .ok aliases
  | entry :: rest, aliases =>
    match Settings.parseAliasList entry with
    | .error e => .error e
    | .ok more => aliasOptions rest (aliases.merge more)

/-- The settings of the environment with those of the command line over them. -/
def configOf (environment : OrderedMap String) (aliases : List String) (depth : Option Int)
    (exhaustive prune : Bool) : Except ConfigError Config := do
  let config ← Config.ofEnvironment environment
  let config ←
    if aliases.isEmpty then pure config
    else do
      let extra ← aliasOptions aliases OrderedMap.empty
      Config.checked { config with aliases := config.aliases.merge extra }
  let config ←
    if exhaustive then Config.checked { config with earlyStopDepth := none }
    else
      match depth with
      | some d => Config.checked { config with earlyStopDepth := some d }
      | none => pure config
  if prune then Config.checked { config with pruneStaleEdges := true } else pure config

/-! ### Values -/

/-- The size of a graph as a data value. -/
def metricsFields (m : GraphMetrics) : List (String × Json) :=
  [("total_files", .int m.totalFiles), ("route_files", .int m.routeFiles),
   ("entry_points", .int m.entryPoints), ("import_edges", .int m.importEdges)]

/-- What a file has to do with routes, as a data value. -/
def infoValue (info : RouteInfo) : Json :=
  .record [("routes", .list (info.routes.map .text)), ("is_route_definer", .bool info.isRouteDefiner),
    ("route_file_type", info.role.elim .null fun role => .text role.name)]

/-- A route that renders a component, as a data value. -/
def servingValue (r : ServingRoute) : Json :=
  .record [("route_path", .text r.routePath), ("component", .text r.component),
    ("route_file", .text r.routeFile), ("line", .int r.line)]

/-- A map of data values as a record. -/
def recordOf {α : Type} (m : OrderedMap α) (value : α → Json) : Json :=
  .record (m.entries.map fun (k, v) => (k, value v))

/-- The form of a value that is printed. -/
def valueText (v : Json) : String := printed [v.pretty]

/-- The lines on the size of a graph. -/
def metricsLines (m : GraphMetrics) : List String :=
  ["  Files:          " ++ toString m.totalFiles,
   "  Route files:    " ++ toString m.routeFiles,
   "  Entry points:   " ++ toString m.entryPoints,
   "  Import edges:   " ++ toString m.importEdges]

/-! ### Commands -/

/-- The end of a run with an error message. -/
def refuse (w : Surroundings) (message : String) : Reply :=
  { exitCode := 1, output := printed ["Error: " ++ message], disk := w.disk }

/-- The end of a run that a `Failure` ends, after what was printed before. -/
def failed (s : Session) (output : String) : Reply :=
  { exitCode := 1, output, disk := s.disk }

/-- Prints what an operation gives. -/
def reply {α : Type} (r : Outcome α) (output : α → String) : Reply :=
  match r with
  | (.ok a, s) => { output := output a, disk := s.disk }
  | (.error _, s) => failed s ""

/-- A session on a directory, or the end of a run that cannot have one. -/
def openSession (w : Surroundings) (root : String) (config : Config) : Except Reply Session :=
  let store := Store.directory (Session.cacheDirectory root config)
  match Session.start root config ⟨store, w.disk⟩ w.now with
  | .error _ => .error { exitCode := 1, disk := w.disk }
  | .ok s => .ok s

/-- Whether a path is a directory, if that can be told. -/
def isDirectory (d : Disk) (p : String) : Except Disk.Fault Bool :=
  match d.find (Path.components p) with
  | .ok (_, .directory) => .ok true
  | .error .nameTooLong => .error .nameTooLong
  | _ => .ok false

/-- Goes on with the project's directory when it is one. -/
def inDirectory (w : Surroundings) (repo : String) (f : String → Except Reply Session) :
    Except Reply Session :=
  let root := Path.resolve w.directory repo
  match isDirectory w.disk root with
  | .error _ => .error { exitCode := 1, disk := w.disk }
  | .ok false => .error (refuse w (root ++ " is not a directory."))
  | .ok true => f root

/-- Checks the settings and then the project's directory. -/
def configFirst (w : Surroundings) (repo : String) (config : Except ConfigError Config) :
    Except Reply Session :=
  match config with
  | .error e => .error (refuse w e.message)
  | .ok config => inDirectory w repo fun root => openSession w root config

/-- Checks the project's directory and then the settings, which are those of the
environment. -/
def directoryFirst (w : Surroundings) (repo : String) : Except Reply Session :=
  inDirectory w repo fun root =>
    match Config.ofEnvironment w.environment with
    | .error e => .error (refuse w e.message)
    | .ok config => openSession w root config

/-- Builds or loads the graph and shows its size. -/
def runAnalyze (w : Surroundings) (force json : Bool) (s : Session) : Reply :=
  let opening := if json then "" else printed ["Analysing " ++ s.root, ""]
  match (s.setUp force).andThen fun _ s => s.metrics with
  | (.error _, s) => failed s opening
  | (.ok m, s) =>
    if json then
      { output := valueText (.record (("framework", .text s.framework) :: metricsFields m))
        disk := s.disk }
    else
      let source := if s.lastBuild.isSome then "rebuilt" else "loaded from cache"
      { output := opening ++ printed (
          ["", "Import graph " ++ source ++ ".", "  Framework:      " ++ s.framework] ++
          metricsLines m ++
          if s.lastBuild.isSome then ["  Duration:       " ++ w.duration] else [])
        disk := s.disk }

/-- The lines on the routes that files affect. -/
def affectedLines (files : List String) (found : OrderedMap (List String)) : List String :=
  if found.size = 0 then ["No routes affected."]
  else
    files.flatMap fun path =>
      match found.get? path with
      | some routes => path :: routes.map ("  " ++ ·)
      | none => []

/-- Shows the routes that files affect and persists the graph. -/
def runRoutes (files : List String) (precise json : Bool) (s : Session) : Reply :=
  let answered := (s.detectRoutes files precise).andThen fun found s => (.ok found, s.persist.2)
  reply answered fun found =>
    if json then valueText (recordOf found fun routes => .list (routes.map .text))
    else printed (affectedLines files found)

/-- The table on files and routes. -/
def infoTable (found : OrderedMap RouteInfo) : Table where
  title := "Route info"
  heading := ["File", "Declares routes", "Type", "Routes"]
  rows := found.entries.map fun (path, info) =>
    [path, if info.isRouteDefiner then "yes" else "no", info.role.elim "-" (·.name),
      if info.routes.isEmpty then "-" else Text.join ", " info.routes]

/-- Shows what files have to do with routes. -/
def runInfo (files : List String) (json : Bool) (s : Session) : Reply :=
  reply (s.routeInfo files) fun found =>
    if json then valueText (recordOf found infoValue) else printed (infoTable found).lines

/-- Shows the routes that render a component. -/
def runServing (component : String) (json : Bool) (s : Session) : Reply :=
  reply (s.routesServing component) fun found =>
    if json then valueText (.list (found.map servingValue))
    else if found.isEmpty then printed ["No route renders " ++ component ++ "."]
    else
      printed (found.map fun r =>
        "  " ++ r.routePath ++ "  " ++ r.component ++ "  " ++ r.routeFile ++ ":" ++
          toString r.line)

/-- Shows the size of the graph. -/
def runMetrics (json : Bool) (s : Session) : Reply :=
  reply s.metrics fun m =>
    if json then valueText (.record (metricsFields m))
    else printed (("Import graph for " ++ s.root) :: metricsLines m)

/-- What is said about a question of yes or no, given the lines of the input: the
dialogue, and the answer if there is one. -/
def confirm (question : String) : List String → String × Option Bool
  | [] => (question ++ " [y/N]: ", none)
  | line :: rest =>
    let answer := Text.strip (Text.lower line)
    let shown := question ++ " [y/N]: " ++ line ++ "\n"
    if answer = "y" ∨ answer = "yes" then (shown, some true)
    else if answer = "n" ∨ answer = "no" ∨ answer = "" then (shown, some false)
    else
      let (more, decided) := confirm question rest
      (shown ++ "Error: invalid input\n" ++ more, decided)

/-- The lines of an input, without what ends them. -/
def inputLines (input : String) : List String :=
  let lines := (Text.split '\n' input).map (Text.stripEnd (· == '\r'))
  if lines.getLast? = some "" then lines.dropLast else lines

/-- Removes the persisted graph, after asking unless `force` is set. -/
def runClean (w : Surroundings) (force : Bool) (s : Session) : Reply :=
  let directory := Session.cacheDirectory s.root s.config
  match s.disk.holds directory with
  | .error _ => failed s ""
  | .ok false => refuse w ("No cache found at " ++ directory ++ ". Nothing to clean.")
  | .ok true =>
    let (shown, decided) :=
      if force then ("", some true)
      else confirm ("Delete cached graph at " ++ directory ++ "?") (inputLines w.input)
    match decided with
    | none => { exitCode := 1, output := shown, disk := s.disk }
    | some false => { output := shown ++ printed ["Aborted."], disk := s.disk }
    | some true =>
      { output := shown ++ printed ["Deleted " ++ s.key], disk := s.clearCache.disk }

/-- Takes in events until they end; tells whether an interrupt ended them. -/
def watchEvents (patterns : List String) : List WatchEvent → Session → Outcome Bool
  | [], s => (.ok false, s)
  | .interrupt :: _, s => (.ok true, s)
  | .batch edit changed :: rest, s =>
    let s := { s with host := { s.host with disk := edit s.disk } }
    (s.watchBatch patterns changed).andThen fun _ s => watchEvents patterns rest s

/-- The line that a watching run begins with. -/
def watchOpening (s : Session) : String :=
  printed ["Watching " ++ s.root ++ " for changes (Ctrl+C to stop)"]

/-- Keeps the graph up to date while events come. -/
def runWatch (events : List WatchEvent) (s : Session) : Reply :=
  match s.beginWatch.andThen fun patterns s => watchEvents patterns events s with
  | (.error _, s) => failed s (watchOpening s)
  | (.ok interrupted, s) =>
    { output := watchOpening s ++ if interrupted then printed ["", "Watch stopped."] else ""
      disk := s.disk }

/-- Goes on with a session when there is one. -/
def inSession (opened : Except Reply Session) (f : Session → Reply) : Reply :=
  match opened with
  | .error ended => ended
  | .ok s => f s

/-- Runs a command. -/
def Command.run (w : Surroundings) (events : List WatchEvent) : Command → Reply
  | .analyze repo force aliases prune json =>
    inSession (configFirst w repo (configOf w.environment aliases none false prune))
      (runAnalyze w force json)
  | .routes files repo precise exhaustive depth json =>
    inSession (configFirst w repo (configOf w.environment [] depth exhaustive false))
      (runRoutes files precise json)
  | .info files repo json => inSession (directoryFirst w repo) (runInfo files json)
  | .serving component repo json => inSession (directoryFirst w repo) (runServing component json)
  | .metrics repo json => inSession (directoryFirst w repo) (runMetrics json)
  | .clean repo force => inSession (directoryFirst w repo) (runClean w force)
  | .watch repo => inSession (directoryFirst w repo) (runWatch events)
  | .serve => refuse w "no tool client is connected."

/-- The line on how the program is called. -/
def usage : String := printed ["Usage: routegraph [OPTIONS] COMMAND [ARGS]..."]

/-- Runs a command line. -/
def run (w : Surroundings) (events : List WatchEvent) (arguments : List String) : Reply :=
  match Request.parse arguments with
  | .run command => command.run w events
  | .version => { output := printed ["routegraph v" ++ programVersion], disk := w.disk }
  | .help => { output := usage, disk := w.disk }
  | .misuse => { exitCode := 2, output := usage, disk := w.disk }

end RouteImpact.CommandLine
