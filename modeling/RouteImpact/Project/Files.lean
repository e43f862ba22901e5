import RouteImpact.Disk.Basic
import RouteImpact.Ignore.Rules
import RouteImpact.Project.Failure
import RouteImpact.Source.Parse

namespace RouteImpact.Project

open Ignore (shouldIgnore PatternError)

/-!
# The files of a project

How a path becomes relative to the project, which files belong to it, and what a
source file says.

* `discover` finds the source files below the project's directory; it does not
  enter a directory that is ignored;
* `relevant` picks the changed paths that are source files of the project;
* `readSource` reads one file;
* `normalize` gives the one spelling under which the graph knows a file.
-/

/-- A pattern without meaning ends the operation. -/
def ofPattern {α : Type} : Except PatternError α → Except Failure α
  | .ok a => .ok a
  | .error _ => .error .badPattern

/-! ### Spelling -/

/-- A path seen from the project.  An absolute path must lead below it; any other
is taken to be seen from there already. -/
def relative? (root path : String) : Option String :=
  if Path.isAbsolute path then
    if Disk.hasNul path then none
    else (Path.below? (Path.components root) (Path.resolveParts "/" path)).map Path.ofRelative
  else some (Path.tidy path)

/-- The spelling under which the graph knows a file; nothing for the project's
directory itself and for paths that lead above it. -/
def normalize (root path : String) : Option String :=
  if path = "" then none
  else
    (relative? root path).bind fun p =>
      let normal := Path.normalize p
      if normal = "." ∨ Text.startsWith normal "../" then none else some normal

/-! ### Reading -/

/-- The text of a file; nothing when it is missing, has more than `most` bytes, is
not Unicode or is binary. -/
def readSource (d : Disk) (root file : String) (most : Int) : Except Failure (Option String) :=
  let p := Path.append root file
  if Disk.hasNul p then .error .nulInPath
  else
    match d.read (Path.components p) with
    | .error _ => .ok none
    | .ok bytes =>
      if most < (bytes.size : Int) then .ok none
      else
        match (String.fromUTF8? bytes).map Text.lineFeeds with
        | some text => .ok (if Source.isBinary text then none else some text)
        | none => .ok none

/-- The patterns of the project's ignore file. -/
def ignorePatterns (d : Disk) (root : String) : List String :=
  (d.text? (Path.append root ".gitignore")).elim [] Ignore.patternLines

/-! ### Finding -/

/-- Whether no directory on the way to a place, nor the place itself, is ignored.
The walk starts in `above`. -/
def survives (patterns : List String) : Disk.Place → List String → Except PatternError Bool
  | _, [] => .ok true
  | above, name :: rest => do
    if ← shouldIgnore patterns (Text.join "/" (above ++ [name])) then return false
    survives patterns (above ++ [name]) rest

/-- The source files below the project's directory, in order.  Every directory on
the way is tested, so that a bad pattern shows even when no file would meet it. -/
def discover (d : Disk) (root : String) (patterns : List String) :
    Except Failure (List String) := ofPattern do
  let place := Path.components root
  let _ ← (d.directoriesBelow place).mapM (survives patterns [])
  let sources := (d.filesBelow place).filter fun names =>
    Source.isSupported (names.getLast?.getD "")
  let kept ← sources.filterM (survives patterns [])
  return Text.sort (kept.map (Text.join "/"))

/-- The source file of the project that a changed path names, if it does. -/
def relevant? (root : String) (patterns : List String) (path : String) :
    Except PatternError (Option String) := do
  if Disk.hasNul path then return none
  match Path.below? (Path.components root) (Path.resolveParts root path) with
  | none => return none
  | some parts =>
    let file := Path.ofRelative parts
    if ← shouldIgnore patterns file then return none
    return if Source.isSupported file then some file else none

/-- The source files that changed paths name, at their first mention. -/
def relevant (root : String) (patterns changed : List String) : Except Failure (List String) :=
  ofPattern do
    let found ← changed.mapM (relevant? root patterns)
    return Text.distinct (found.filterMap id)

end RouteImpact.Project
