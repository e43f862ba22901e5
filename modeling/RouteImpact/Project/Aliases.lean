import RouteImpact.Disk.Basic
import RouteImpact.Json.Reader
import RouteImpact.Project.Failure
import RouteImpact.Settings.Aliases
import RouteImpact.Settings.Comments

namespace RouteImpact.Project

open Settings (Aliases stripComments)

/-!
# Aliases of a project

A compiler configuration may map specifiers to paths.  An entry with a wildcard
at its end, such as `"@/*": ["./src/*"]`, replaces a prefix, which is what an
alias does; other entries say nothing here.
-/

/-- The configuration files, in the order in which they are looked at. -/
def configurationFiles : List String := ["tsconfig.json", "jsconfig.json"]

/-- The directory that a target without its wildcard stands for, seen from the
project; nothing when it lies elsewhere. -/
def aliasTarget? (base target : String) : Option String :=
  let joined := Path.normalize (Path.append base target)
  if Text.startsWith joined ".." ∨ Path.isAbsolute joined then none
  else if joined = "." then some ""
  else some (Text.stripEnd (· == '/') joined ++ "/")

/-- The targets of an entry: one, or a list of which the first that fits counts. -/
def targetsOf : Json → List Json
  | .text s => [.text s]
  | .list xs => xs
  | _ => []

/-- What one target of an entry stands for. -/
def wildcardTarget? (base : String) : Json → Option String
  | .text target =>
    if Text.endsWith target "*" then aliasTarget? base (Text.dropEnd target 1) else none
  | _ => none

/-- The alias that an entry makes. -/
def aliasOf? (base key : String) (targets : Json) : Option (String × String) :=
  if Text.endsWith key "/*" then
    ((targetsOf targets).findSome? (wildcardTarget? base)).map (Text.dropEnd key 1, ·)
  else none

/-- The directory from which targets are seen; nothing when it is no text. -/
def baseOf? (options : Json) : Option String :=
  match options.get? "baseUrl" with
  | none => some "."
  | some base =>
    if base.truth then
      match base with
      | .text s => some s
      | _ => none
    else some "."

/-- The aliases that a configuration makes. -/
def aliasesOf (configuration : Json) : Aliases :=
  let options := (configuration.get? "compilerOptions").getD .null
  match baseOf? options, options.get? "paths" with
  | some base, some (.record entries) =>
    OrderedMap.ofList (entries.filterMap fun (key, targets) => aliasOf? base key targets)
  | _, _ => OrderedMap.empty

/-- The aliases of a configuration text; none when it cannot be read. -/
def aliasesOfText (text : String) : Except Failure Aliases :=
  match Json.parse (stripComments text) with
  | .error .tooManyDigits => .error .tooManyDigits
  | .error .notJson => .ok OrderedMap.empty
  | .ok configuration => .ok (aliasesOf configuration)

/-- The aliases of the first of several files that makes any. -/
def firstAliases (d : Disk) (root : String) : List String → Except Failure Aliases
  | [] => .ok OrderedMap.empty
  | name :: rest =>
    match d.text? (Path.append root name) with
    | none => firstAliases d root rest
    | some text =>
      match aliasesOfText text with
      | .error e => .error e
      | .ok aliases => if aliases.size = 0 then firstAliases d root rest else .ok aliases

/-- The aliases of a project. -/
def loadAliases (d : Disk) (root : String) : Except Failure Aliases :=
  firstAliases d root configurationFiles

end RouteImpact.Project
