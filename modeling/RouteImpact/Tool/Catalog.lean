import RouteImpact.Tool.Reports

namespace RouteImpact.Tool

/-!
# The tools

The questions under the names by which other programs call them, with arguments
as data values.
-/

/-- A tool as it is offered. -/
structure Description where
  name : String
  description : String
  /-- The shape of the arguments. -/
  schema : Json

/-- The shape of a record with the given fields. -/
def shape (properties : List (String × Json)) (required : List String) : Json :=
  .record ([("type", .text "object"), ("properties", .record properties)] ++
    if required.isEmpty then [] else [("required", .list (required.map .text))])

/-- The shape of a list of files. -/
def filesShape : Json :=
  .record [
    ("type", .text "array"),
    ("items", .record [("type", .text "string")]),
    ("description", .text "Changed file paths, relative to the project root.")]

/-- The shape of a text. -/
def textShape (description : String) : Json :=
  .record [("type", .text "string"), ("description", .text description)]

/-- The tools on offer. -/
def catalog : List Description :=
  [{ name := "routegraph_detect_routes"
     description :=
       "Return the user-visible routes affected by changes to the given files. " ++
       "Walks the import graph from each file up to the files declaring routes."
     schema := shape
       [("files", filesShape),
        ("precise", .record [
          ("type", .text "boolean"),
          ("description", .text ("Only report routes that render a component imported from the " ++
            "file, when any exist.")),
          ("default", .bool false)])]
       ["files"] },
   { name := "routegraph_route_info"
     description :=
       "For each file, list affected routes and whether the file itself declares " ++
       "routes (test, primary or component-with-routes)."
     schema := shape [("files", filesShape)] ["files"] },
   { name := "routegraph_routes_serving_component"
     description :=
       "Find the routes, across all route files, that render the component in a file."
     schema := shape
       [("file_path", textShape "Component file, relative to the project root.")] ["file_path"] },
   { name := "routegraph_detect_changes"
     description := "Map git diff output to the routes affected by the changed files."
     schema := shape [("diff", textShape "Raw output of `git diff`.")] ["diff"] },
   { name := "routegraph_metrics"
     description :=
       "Summary counts of the import graph: files, route files, entry points, edges."
     schema := shape [] [] }]

/-! ### Calling -/

/-- Why a call has no answer. -/
inductive CallError where
  | failure (cause : Failure)
  /-- An argument is of a kind that the tool has no use for. -/
  | wrongKind
  /-- The arguments are no record. -/
  | notRecord
deriving Repr, DecidableEq

/-- The answer of a call and the session after it. -/
abbrev Answer := Except CallError String × Session

/-- The answer of an operation. -/
def ofOutcome (r : Outcome String) : Answer :=
  match r with
  | (.ok text, s) => (.ok text, s)
  | (.error e, s) => (.error (.failure e), s)

/-- A value of a list of files as a text. -/
def fileText : Json → String
  | .text s => s
  | v => v.shown

/-- The files of an argument: a list, or a text with commas between them. -/
def fileList : Json → List String
  | .text s => ((Text.split ',' s).map Text.strip).filter (· != "")
  | .list xs => (xs.map fileText).filter (Text.strip · != "")
  | _ => []

/-- Answers `routegraph_routes_serving_component`. -/
def callServing (s : Session) (file : Json) : Answer :=
  match file with
  | .text path => ofOutcome (routesServing s path)
  | v =>
    if v.truth then
      match s.ensureInitialized with
      | (.ok _, s) => (.error .wrongKind, s)
      | (.error e, s) => (.error (.failure e), s)
    else ofOutcome (routesServing s "")

/-- Answers `routegraph_detect_changes`. -/
def callChanges (s : Session) (diff : Json) : Answer :=
  match diff with
  | .text text => ofOutcome (detectChanges s text)
  | _ => (.error .wrongKind, s)

/-- Calls a tool by its name.  Arguments that count as false are none. -/
def call (s : Session) (name : String) (arguments : Json) : Answer :=
  let fields : Option (List (String × Json)) :=
    match arguments with
    | .record fields => some fields
    | v => if v.truth then none else some []
  let withArgument (argument : String) (default : Json) (f : Json → Answer) : Answer :=
    match fields with
    | some fields => f ((Json.field? fields argument).getD default)
    | none => (.error .notRecord, s)
  match name with
  | "routegraph_detect_routes" =>
    withArgument "files" (.list []) fun files =>
      withArgument "precise" (.bool false) fun precise =>
        ofOutcome (detectRoutes s (fileList files) precise.truth)
  | "routegraph_route_info" =>
    withArgument "files" (.list []) fun files => ofOutcome (routeInfo s (fileList files))
  | "routegraph_routes_serving_component" => withArgument "file_path" (.text "") (callServing s)
  | "routegraph_detect_changes" => withArgument "diff" (.text "") (callChanges s)
  | "routegraph_metrics" => ofOutcome (metrics s)
  | _ => (.ok ("Unknown tool: " ++ name), s)

end RouteImpact.Tool
