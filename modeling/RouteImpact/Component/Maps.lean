import RouteImpact.Component.Match
import RouteImpact.Graph.Basic
import RouteImpact.Project.Failure

namespace RouteImpact

open Component

/-!
# The components of route files

The import maps of route files are kept beside the content hash of the fact they
belong to, so that routes and bindings come from one version of a file.  A map
whose hash is not that of the current fact is stale and read again when it is
asked for; `ComponentMaps.prepare` reads all stale maps of a list at once.

Every operation tells which files it read.
-/

/-- Import maps with the content hash they belong to, by file. -/
structure ComponentMaps where
  maps : OrderedMap (String × ImportMap) := OrderedMap.empty

/-- What the maps are made from. -/
structure ComponentSource where
  graph : ImportGraph
  extractor : Extractor
  /-- Prefix substitutions, longer prefixes first. -/
  aliases : List (String × String)
  /-- The current text of a file, or nothing when it cannot be read. -/
  read : String → Except Failure (Option String)

/-- A route and the file of the component it renders. -/
structure RouteComponent where
  routePath : String
  componentName : String
  componentPath : Option String
  line : Int
deriving Repr, DecidableEq

/-- The result of an operation, the files it read and the maps after it. -/
structure Mapped (α : Type) where
  value : α
  reads : List String := []
  maps : ComponentMaps

namespace ComponentMaps

/-- No maps. -/
def empty : ComponentMaps := {}

/-- The content hash of a file's current fact. -/
def factHash (g : ImportGraph) (file : String) : String :=
  (g.fact? file).elim "" (·.contentHash)

/-- Whether there is no map for the current fact of a file. -/
def isStale (m : ComponentMaps) (g : ImportGraph) (file : String) : Bool :=
  (m.maps.get? file).all fun (hash, _) => hash != factHash g file

/-- Whether a text is the version that a file's fact describes.  A file without a
hash, or without a text, counts as unchanged. -/
def agrees (g : ImportGraph) (file : String) : Option String → Bool
  | none => true
  | some content =>
    factHash g file == "" || Digest.contentHash content == factHash g file

/-- The bindings of a text that is the version of a file's fact. -/
def bindingsOf (s : ComponentSource) (file : String) (content : Option String) :
    Except Failure ImportMap :=
  match content with
  | some text =>
    if factHash s.graph file ≠ "" ∧ agrees s.graph file content then
      (Extractor.parse file text).elim (.ok OrderedMap.empty)
        (ImportMap.make s.extractor.resolver file)
    else .ok OrderedMap.empty
  | none => .ok OrderedMap.empty

/-- Makes the map of a file from its text. -/
def load (m : ComponentMaps) (s : ComponentSource) (file : String) (content : Option String) :
    Except Failure ComponentMaps :=
  match bindingsOf s file content with
  | .error e => .error e
  | .ok bindings => .ok ⟨m.maps.set file (factHash s.graph file, bindings)⟩

/-- The map of a file that is there. -/
def current (m : ComponentMaps) (file : String) : ImportMap :=
  (m.maps.get? file).elim OrderedMap.empty (·.2)

/-- The import map of a file, read again when it is stale. -/
def importMap (m : ComponentMaps) (s : ComponentSource) (file : String) :
    Except Failure (Mapped ImportMap) :=
  if m.isStale s.graph file then
    match s.read file with
    | .error e => .error e
    | .ok content =>
      match m.load s file content with
      | .error e => .error e
      | .ok m => .ok ⟨m.current file, [file], m⟩
  else .ok ⟨m.current file, [], m⟩

/-- Loads several texts, and lists the files whose text is not the version of their
fact.  A text whose map cannot be made ends this and leaves those before it loaded. -/
def loadAll (s : ComponentSource) : List (String × Option String) → ComponentMaps →
    Except (Halted ComponentMaps) (List String × ComponentMaps)
  | [], m => .ok ([], m)
  | (file, content) :: rest, m =>
    match m.load s file content with
    | .error e => .error ⟨e, m⟩
    | .ok m =>
      match loadAll s rest m with
      | .error halted => .error halted
      | .ok (changed, m) =>
        .ok (if agrees s.graph file content then changed else file :: changed, m)

/-- Reads the stale maps of several files; answers the files whose text is not the
version of their fact. -/
def prepare (m : ComponentMaps) (s : ComponentSource) (files : List String) :
    Except (Halted ComponentMaps) (Mapped (List String)) :=
  let stale := files.filter (m.isStale s.graph ·)
  match stale.mapM s.read with
  | .error e => .error ⟨e, m⟩
  | .ok contents =>
    match loadAll s (stale.zip contents) m with
    | .error halted => .error halted
    | .ok (changed, m) => .ok ⟨changed, stale, m⟩

/-- The first name of a component such as `Layout.Main`. -/
def firstName (component : String) : String := Text.before '.' component

/-- A route with the file that its component's name is bound to. -/
def withBinding (bindings : ImportMap) (r : RouteDecl) : RouteComponent :=
  { routePath := r.path
    componentName := r.component
    componentPath := (bindings.get? (firstName r.component)).bind (·.resolvedPath)
    line := r.line }

/-- The routes of a file with their components. -/
def mapRouteFile (m : ComponentMaps) (s : ComponentSource) (file : String) :
    Except Failure (Mapped (List RouteComponent)) :=
  match s.graph.fact? file with
  | none => .ok ⟨[], [], m⟩
  | some fact =>
    if fact.routes.isEmpty then .ok ⟨[], [], m⟩
    else
      match m.importMap s file with
      | .error e => .error e
      | .ok found => .ok ⟨fact.routes.map (withBinding found.value), found.reads, found.maps⟩

/-- The name under which a file imports a component's file. -/
def localNameOf (m : ComponentMaps) (s : ComponentSource) (file component : String) :
    Except Failure (Mapped (Option String)) :=
  match m.importMap s file with
  | .error e => .error e
  | .ok found => .ok ⟨localName? s.aliases found.value component, found.reads, found.maps⟩

/-- Forgets the maps of several files. -/
def invalidate (m : ComponentMaps) (files : List String) : ComponentMaps :=
  ⟨files.foldl OrderedMap.erase m.maps⟩

end ComponentMaps

end RouteImpact
