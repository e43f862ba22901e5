import RouteImpact.Component.Maps
import RouteImpact.Impact.Cache
import RouteImpact.Project.Aliases
import RouteImpact.Project.Build
import RouteImpact.Project.Framework
import RouteImpact.Store.Snapshot

namespace RouteImpact

/-!
# Analysis sessions

A session is everything that answers about one project hang on: its files, the
store, the settings and what is remembered.  An operation returns the session
after it, whether it succeeds or ends with a `Failure`.

* `Session.setUp` loads the persisted graph, or builds one and persists it;
* `Session.refresh` brings the facts of given files up to date;
* `Session.rebuild` starts over from the files.

A persisted graph may have another value in the place of a text.  A session does not take
such a graph over: setting it up fails (`Failure.untyped`).  What is proved of sessions says
nothing more about these graphs.
-/

/-- The state of the analysis of one project. -/
structure Session where
  /-- The project's directory, as an absolute path in normal form. -/
  root : String
  config : Settings.Config
  host : Host
  now : Moment
  framework : String := Project.unknownFramework
  graph : ImportGraph
  impact : ImpactCache := ImpactCache.empty
  components : ComponentMaps := ComponentMaps.empty
  lastBuild : Option Project.Summary := none
  initialized : Bool := false

/-- The result of an operation and the session after it. -/
abbrev Outcome (α : Type) := Except Failure α × Session

/-- Goes on after an operation that has succeeded. -/
def Outcome.andThen {α β : Type} (r : Outcome α) (f : α → Session → Outcome β) : Outcome β :=
  match r with
  | (.ok a, s) => f a s
  | (.error e, s) => (.error e, s)

/-- Changes the result of an operation that has succeeded. -/
def Outcome.map {α β : Type} (f : α → β) (r : Outcome α) : Outcome β :=
  r.andThen fun a s => (.ok (f a), s)

namespace Session

/-- The directory of the local store of a project. -/
def cacheDirectory (root : String) (config : Settings.Config) : String :=
  Path.tidy (Path.append root config.cacheDir)

/-- A new session; the aliases of the project come to those of the settings. -/
def start (root : String) (config : Settings.Config) (host : Host) (now : Moment) :
    Except Failure Session := do
  let config ←
    if config.loadProjectAliases then do
      pure (config.withProjectAliases (← Project.loadAliases host.disk root))
    else pure config
  return { root, config, host, now, graph := { prune := config.pruneStaleEdges } }

/-- The files that the project is on. -/
def disk (s : Session) : Disk := s.host.disk

/-- How specifiers are resolved: against the files as they are now. -/
def resolver (s : Session) : Resolver :=
  Resolver.make s.config.aliases s.config.endings fun file =>
    (s.disk.isFile (Path.append s.root file)).mapError fun _ => .nameTooLong

/-- How facts are extracted. -/
def extractor (s : Session) : Extractor :=
  { resolver := s.resolver, framework := s.framework, maxFileSize := s.config.maxFileSize }

/-- The current text of a file. -/
def read (s : Session) (file : String) : Except Failure (Option String) :=
  Project.readSource s.disk s.root file s.config.maxFileSize

/-- What the component maps are made from. -/
def componentSource (s : Session) : ComponentSource :=
  { graph := s.graph, extractor := s.extractor
    aliases := Settings.longestFirst s.config.aliases, read := s.read }

/-- The spelling under which the graph knows a file. -/
def normalize (s : Session) (path : String) : Option String := Project.normalize s.root path

/-! ### Persistence -/

/-- The key of the persisted graph. -/
def key (s : Session) : String := Snapshot.key s.config.cacheNamespace s.root

/-- Persists the graph; tells whether the store took it. -/
def persist (s : Session) : Bool × Session :=
  let (saved, host) := Snapshot.save s.host s.key s.now s.graph
  (saved, { s with host })

/-- Forgets the graph, the answers and the component maps. -/
def reset (s : Session) : Session :=
  { s with graph := s.graph.clear, impact := ImpactCache.empty, components := ComponentMaps.empty }

/-- Forgets everything and removes the persisted graph. -/
def clearCache (s : Session) : Session :=
  let s := { s.reset with initialized := false }
  { s with host := Snapshot.delete s.host s.key }

/-! ### Building and loading -/

/-- Builds the graph from the files and persists it.  When the build fails, the graph is
left as far as it had come. -/
def rebuild (s : Session) : Outcome Project.Summary :=
  let s := s.reset
  match Project.build s.disk s.root s.extractor s.now s.graph none s.config.batchSize with
  | .error halted => (.error halted.failure, { s with graph := halted.left })
  | .ok built =>
    let s := { s with graph := built.graph, lastBuild := some built.summary, initialized := true }
    (.ok built.summary, s.persist.2)

/-- Takes over a graph that was persisted. -/
def adopt (s : Session) (g : ImportGraph) : Session :=
  let s := s.reset
  { s with
    graph := (s.graph.load g.nodes.entries g.facts.values).markEntryPoints
    initialized := true }

/-- Loads the persisted graph or builds one; with `force` everything kept is
cleared first. -/
def setUp (s : Session) (force : Bool) : Outcome Unit :=
  match Project.detectFramework s.disk s.root with
  | .error e => (.error e, s)
  | .ok framework =>
    let s := { s with framework }
    if force then Outcome.map (fun _ => ()) s.clearCache.rebuild
    else
      match Snapshot.load s.host s.key s.config.pruneStaleEdges with
      | .error e => (.error e, s)
      | .ok (some (.graph g)) => (.ok (), s.adopt g)
      | .ok (some .untyped) => (.error .untyped, s.reset)
      | .ok none => Outcome.map (fun _ => ()) s.rebuild

/-- Initializes a session that is not. -/
def ensureInitialized (s : Session) : Outcome Unit :=
  if s.initialized then (.ok (), s) else s.setUp false

/-! ### Refreshing -/

/-- A new fact for a file whose text has changed since its fact was extracted.  A
file that is gone loses its fact once; one that was never known stays unknown. -/
def freshFact? (s : Session) (file : String) : Except Failure (Option FileFact) := do
  let old := s.graph.fact? file
  match ← s.read file with
  | none =>
    return if old.all (·.contentHash == "") then none else some (FileFact.none file s.now)
  | some content =>
    if old.any (·.contentHash == Digest.contentHash content) then return none
    return some (← s.extractor.extract s.now file content)

/-- Replaces the fact of a file and drops what it may have made wrong. -/
def replaceFact (s : Session) (file : String) (fact : FileFact) : Session :=
  let old := (s.graph.node? file).elim NameSet.empty (·.imports)
  let graph := s.graph.upsert file fact
  let new := (graph.node? file).elim NameSet.empty (·.imports)
  let (_, impact) := s.impact.invalidate graph [file] (old.union new).toList
  { s with graph, impact, components := s.components.invalidate [file] }

/-- Refreshes files one after the other; answers those whose fact was replaced. -/
def refreshEach : List String → Session → Outcome (List String)
  | [], s => (.ok [], s)
  | path :: rest, s =>
    match s.normalize path with
    | none => refreshEach rest s
    | some file =>
      match s.freshFact? file with
      | .error e => (.error e, s)
      | .ok none => refreshEach rest s
      | .ok (some fact) =>
        Outcome.map (file :: ·) (refreshEach rest (s.replaceFact file fact))

/-- Brings the facts of files up to date; answers the files that had changed. -/
def refresh (s : Session) (paths : List String) : Outcome (List String) :=
  s.ensureInitialized.andThen fun _ s =>
    Outcome.andThen (refreshEach paths s) fun changed s =>
      (.ok changed, if changed.isEmpty then s else { s with graph := s.graph.markEntryPoints })

end Session

end RouteImpact
