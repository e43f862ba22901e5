import RouteImpact.Analysis.Session
import RouteImpact.Route.Role

namespace RouteImpact

/-!
# Questions to a session

Which routes a change affects (`Session.detectRoutes`), what a file has to do with
routes (`Session.routeInfo`), which routes render a component
(`Session.routesServing`), and how large the graph is (`Session.metrics`).

Answers about changed files are given under the spelling in which the files were
named.
-/

/-- What a file has to do with routes. -/
structure RouteInfo where
  routes : List String := []
  isRouteDefiner : Bool := false
  role : Option Route.Role := none
deriving Repr, DecidableEq

/-- The size of a graph. -/
structure GraphMetrics where
  totalFiles : Nat
  routeFiles : Nat
  entryPoints : Nat
  importEdges : Nat
deriving Repr, DecidableEq

/-- A route that renders a component. -/
structure ServingRoute where
  routePath : String
  component : String
  routeFile : String
  line : Int
deriving Repr, DecidableEq

namespace Session

/-- The routes that a change to a file affects. -/
def impactOf (s : Session) (file : String) : List String × Session :=
  let (routes, impact) := s.impact.impactOf s.graph s.config.earlyStopDepth file
  (routes, { s with impact })

/-! ### Components -/

/-- Reads the stale component maps of all route files. -/
def prepareOnce (s : Session) : Outcome (List String) :=
  match s.components.prepare s.componentSource s.graph.routeFiles with
  | .error halted => (.error halted.failure, { s with components := halted.left })
  | .ok found => (.ok found.value, { s with components := found.maps })

/-- Makes the component maps of all route files.  Route files that have changed
since their facts were extracted are refreshed first. -/
def prepareComponents (s : Session) : Outcome Unit :=
  s.prepareOnce.andThen fun changed s =>
    if changed.isEmpty then (.ok (), s)
    else (s.refresh changed).andThen fun _ s => Outcome.map (fun _ => ()) s.prepareOnce

/-- How a component is shown: its local name and the name of its file. -/
def componentLabel (name file : String) : String :=
  name ++ " (" ++ (Path.splitExtension (Path.baseName file)).1 ++ ")"

/-- The routes of a route file whose component has a name. -/
def routesNamed (name file routeFile : String) (routes : List RouteComponent) :
    List ServingRoute :=
  (routes.filter (ComponentMaps.firstName ·.componentName == name)).map fun r =>
    ⟨r.routePath, componentLabel name file, routeFile, r.line⟩

/-- The routes of one route file that render a component.  A route file whose map
cannot be read renders none. -/
def servingIn (s : Session) (file routeFile : String) : Outcome (List ServingRoute) :=
  match s.components.localNameOf s.componentSource routeFile file with
  | .error _ => (.ok [], s)
  | .ok found =>
    let s := { s with components := found.maps }
    match found.value with
    | none => (.ok [], s)
    | some name =>
      match s.components.mapRouteFile s.componentSource routeFile with
      | .error e => (.error e, s)
      | .ok mapped =>
        (.ok (routesNamed name file routeFile mapped.value), { s with components := mapped.maps })

/-- The routes of several route files that render a component. -/
def servingAmong (file : String) : List String → Session → Outcome (List ServingRoute)
  | [], s => (.ok [], s)
  | routeFile :: rest, s =>
    (s.servingIn file routeFile).andThen fun found s =>
      Outcome.map (found ++ ·) (servingAmong file rest s)

/-- The routes that render a component, given prepared maps. -/
def serving (s : Session) (file : String) : Outcome (List ServingRoute) :=
  servingAmong file s.graph.routeFiles s

/-! ### Answers -/

/-- The routes that a change to one file affects.  With `precise`, the routes that
render the file are the answer when there are any. -/
def affected (s : Session) (precise : Bool) (file : String) : Outcome (List String) :=
  let (routes, s) := s.impactOf file
  if precise then
    (s.serving file).andThen fun found s =>
      let own := Text.sortedSet (found.map (·.routePath))
      (.ok (if own.isEmpty then routes else own), s)
  else (.ok routes, s)

/-- The answers for several files, of which those without routes are left out. -/
def affectedEach (precise : Bool) :
    List String → OrderedMap (List String) → Session → Outcome (OrderedMap (List String))
  | [], found, s => (.ok found, s)
  | path :: rest, found, s =>
    match s.normalize path with
    | none => affectedEach precise rest found s
    | some file =>
      (s.affected precise file).andThen fun routes s =>
        affectedEach precise rest (if routes.isEmpty then found else found.set path routes) s

/-- The routes that changes to files affect, by file as it was named. -/
def detectRoutes (s : Session) (paths : List String) (precise : Bool) :
    Outcome (OrderedMap (List String)) :=
  (s.refresh paths).andThen fun _ s =>
    let prepared : Outcome Unit := if precise then s.prepareComponents else (.ok (), s)
    prepared.andThen fun _ s => affectedEach precise paths OrderedMap.empty s

/-- What one file has to do with routes. -/
def infoOf (s : Session) (file : String) : RouteInfo × Session :=
  let definer := (s.graph.node? file).any (·.isRouteFile)
  let (routes, s) := s.impactOf file
  ({ routes, isRouteDefiner := definer
     role := if definer then some (Route.Role.ofPath file) else none }, s)

/-- What several files have to do with routes. -/
def infoEach : List String → OrderedMap RouteInfo → Session → OrderedMap RouteInfo × Session
  | [], found, s => (found, s)
  | path :: rest, found, s =>
    match s.normalize path with
    | none => infoEach rest (found.set path {}) s
    | some file =>
      let (info, s) := s.infoOf file
      infoEach rest (found.set path info) s

/-- What files have to do with routes, by file as it was named. -/
def routeInfo (s : Session) (paths : List String) : Outcome (OrderedMap RouteInfo) :=
  (s.refresh paths).andThen fun _ s =>
    let (found, s) := infoEach paths OrderedMap.empty s
    (.ok found, s)

/-- The size of the graph. -/
def metrics (s : Session) : Outcome GraphMetrics :=
  s.ensureInitialized.andThen fun _ s =>
    (.ok
      { totalFiles := s.graph.size
        routeFiles := s.graph.routeFiles.length
        entryPoints := s.graph.entryPoints.length
        importEdges := s.graph.edgeCount }, s)

/-- The routes, in any route file, that render a component. -/
def routesServing (s : Session) (path : String) : Outcome (List ServingRoute) :=
  s.ensureInitialized.andThen fun _ s =>
    match s.normalize path with
    | none => (.ok [], s)
    | some file => s.prepareComponents.andThen fun _ s => s.serving file

end Session

end RouteImpact
