import RouteImpact.Fact.Bindings
import RouteImpact.Text.Lowercase

namespace RouteImpact.Component

/-!
# Which name stands for a file

A route file imports its components under local names.  `localName?` finds the
name that stands for a given file, by the file its import resolves to, else by
the spelling of the specifier, else by the imported name.  Spellings are compared
without their endings and without regard to case.
-/

/-- The endings that are left out of comparisons. -/
def sourceEndings : List String :=
  [".ts", ".tsx", ".js", ".jsx", ".mjs", ".cjs", ".vue", ".svelte"]

/-- A path without the ending of a source file; a line feed at the very end of the
path stays. -/
def withoutEnding (p : String) : String :=
  let (body, rest) := if Text.endsWith p "\n" then (Text.dropEnd p 1, "\n") else (p, "")
  match sourceEndings.find? (Text.endsWith body ·) with
  | some ending => Text.dropEnd body ending.length ++ rest
  | none => p

/-- What follows points and slashes at the start of a specifier. -/
def afterDots : List Char → List Char
  | '.' :: '/' :: rest => afterDots rest
  | '.' :: '.' :: '/' :: rest => afterDots rest
  | cs => cs

/-- A specifier in lower case with the first alias that fits replaced. -/
def expanded (aliases : List (String × String)) (specifier : String) : String :=
  match aliases.find? fun (start, _) => Text.startsWith specifier (Text.lower start) with
  | some (start, target) => Text.lower target ++ Text.drop specifier start.length
  | none => specifier

/-- The end of a path that a specifier spells. -/
def spelling (aliases : List (String × String)) (specifier : String) : String :=
  let plain := Text.lower (withoutEnding (Text.before '?' specifier))
  Text.stripEnd (· == '/') (String.ofList (afterDots (expanded aliases plain).toList))

/-- Whether a specifier spells the end of a path, or of the directory whose index
file the path is. -/
def specifierMatches (aliases : List (String × String)) (specifier target : String) : Bool :=
  let tail := spelling aliases specifier
  tail != "" &&
    (target == tail || Text.endsWith target ("/" ++ tail) ||
      Text.endsWith target ("/" ++ tail ++ "/index") || target == tail ++ "/index")

/-- A path in lower case without its ending. -/
def plainTarget (file : String) : String := Text.lower (withoutEnding file)

/-- Whether a binding imports the name of a file. -/
def importsName (b : ImportBinding) (file : String) : Bool :=
  Text.lower b.importedName == Path.baseName (plainTarget file)

/-- Whether a binding's specifier spells a file; a named import must also name
it. -/
def spells (aliases : List (String × String)) (file : String) (b : ImportBinding) : Bool :=
  specifierMatches aliases b.specifier (plainTarget file) &&
    (b.importType != "named" || importsName b file)

/-- Whether a binding is a named import of a file's name from a directory above
it, or from a module that is not known. -/
def reexports (file : String) (b : ImportBinding) : Bool :=
  b.importType == "named" && importsName b file &&
    b.resolvedPath.all fun path =>
      let directory := Path.directory path
      directory == "" || Text.startsWith file (directory ++ "/")

/-- The name under which bindings import a file. -/
def localName? (aliases : List (String × String)) (bindings : ImportMap) (file : String) :
    Option String :=
  let all := bindings.values
  ((all.find? (·.resolvedPath == some file)).or
    ((all.find? (spells aliases file)).or (all.find? (reexports file)))).map (·.localName)

end RouteImpact.Component
