import RouteImpact.Path.Lexical
import RouteImpact.Project.Failure
import RouteImpact.Settings.Config

namespace RouteImpact

open Settings

/-!
# Resolving import specifiers

A specifier that is relative, or that starts with an alias, names a path of the
project; the file it means is that path itself, the path with one of the known
endings, or an `index` file below it.  Everything else is an external package.

A path that cannot be asked for ends the search with a `Failure`.
-/

/-- How specifiers are resolved in one project. -/
structure Resolver where
  /-- Prefix substitutions, longer prefixes first. -/
  aliases : List (String × String)
  /-- The endings that are tried, in order. -/
  endings : List String
  /-- Whether a project-relative path is a file, if that can be told. -/
  isFile : String → Except Failure Bool

namespace Resolver

/-- A resolver over the given aliases. -/
def make (aliases : Aliases) (endings : List String) (isFile : String → Except Failure Bool) :
    Resolver :=
  ⟨longestFirst aliases, endings, isFile⟩

/-- Whether a specifier is seen from the importing file. -/
def isRelative (specifier : String) : Bool :=
  Text.startsWith specifier "./" || Text.startsWith specifier "../" || specifier == "." ||
    specifier == ".."

/-- Whether a specifier is relative or starts with an alias. -/
def isResolvable (r : Resolver) (specifier : String) : Bool :=
  isRelative specifier || r.aliases.any fun (start, _) => Text.startsWith specifier start

/-- A specifier with its alias replaced. -/
def substitute? (aliases : List (String × String)) (specifier : String) : Option String :=
  (aliases.find? fun (start, _) => Text.startsWith specifier start).map fun (start, target) =>
    target ++ Text.drop specifier start.length

/-- The path that a specifier names before its alias and points are worked out. -/
def joined? (r : Resolver) (fromFile specifier : String) : Option String :=
  let specifier := Text.before '?' specifier
  if isRelative specifier then some (Path.append (Path.directory fromFile) specifier)
  else substitute? r.aliases specifier

/-- Whether a normal form leaves the project. -/
def escapes (p : String) : Bool :=
  p == ".." || Text.startsWith p "../" || Path.isAbsolute p

/-- The path of the project that a specifier names. -/
def basePath? (r : Resolver) (fromFile specifier : String) : Option String :=
  (r.joined? fromFile specifier).bind fun joined =>
    let p := Path.normalize joined
    if escapes p then none else some p

/-- The files that a path may mean, in the order in which they are tried. -/
def candidates (r : Resolver) (base : String) : List String :=
  let itself := if base = "." then [] else [base]
  let index := if base = "." then "index" else base ++ "/index"
  itself ++ r.endings.map (base ++ ·) ++ r.endings.map (index ++ ·)

/-- The first of several paths that is a file. -/
def firstFile (isFile : String → Except Failure Bool) :
    List String → Except Failure (Option String)
  | [] => .ok none
  | p :: rest =>
    match isFile p with
    | .error e => .error e
    | .ok true => .ok (some p)
    | .ok false => firstFile isFile rest

/-- The file that a specifier means, as seen from a file. -/
def resolve (r : Resolver) (fromFile specifier : String) : Except Failure (Option String) :=
  match r.basePath? fromFile specifier with
  | none => .ok none
  | some base => firstFile r.isFile (r.candidates base)

/-- Goes through specifiers until one cannot be resolved. -/
def tryEach (resolve : String → Except Failure (Option String)) : List String → Except Failure Unit
  | [] => .ok ()
  | specifier :: rest =>
    match resolve specifier with
    | .error e => .error e
    | .ok _ => tryEach resolve rest

/-- Resolves specifiers one after the other, as seen from a file. -/
def resolveEach (r : Resolver) (fromFile : String) (specifiers : List String) :
    Except Failure Unit :=
  tryEach (r.resolve fromFile) specifiers

/-- The file that a specifier means, if it can be resolved. -/
def source? (r : Resolver) (fromFile specifier : String) : Option String :=
  (r.resolve fromFile specifier).toOption.join

end Resolver

end RouteImpact
