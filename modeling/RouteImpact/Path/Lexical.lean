import RouteImpact.Text.Basic

namespace RouteImpact.Path

/-!
# Paths as text

Paths are texts whose components are divided by slashes.  Everything here looks
at the text only, never at a disk.

* `normalize` removes empty components, points and the components that two points
  take back; `normalizeParts` is the same on components.
* `tidy` removes empty components and points, and keeps two points.
* `resolve` makes a path absolute, as seen from a directory.
-/

/-- Whether a path starts at the root. -/
def isAbsolute (p : String) : Bool := Text.startsWith p "/"

/-- How many slashes a normal form starts with: two stay two, more become one. -/
def leadingSlashes (cs : List Char) : List Char :=
  match cs with
  | '/' :: '/' :: '/' :: _ => ['/']
  | '/' :: '/' :: _ => ['/', '/']
  | '/' :: _ => ['/']
  | _ => []

/-- Adds a component to the components so far, last one first.  Two points take
the last component back; when there is none they stay, unless the path starts at
the root. -/
def pushPart (rooted : Bool) (parts : List String) (part : String) : List String :=
  if part = "" ∨ part = "." then parts
  else if part ≠ ".." then part :: parts
  else
    match parts with
    | [] => if rooted then [] else [".."]
    | last :: rest => if last = ".." then ".." :: parts else rest

/-- The components of a normal form. -/
def normalizeParts (rooted : Bool) (parts : List String) : List String :=
  (parts.foldl (pushPart rooted) []).reverse

/-- The normal form of a path: no empty component, no point, and two points only
at the start of a relative path.  The empty path is a point. -/
def normalize (p : String) : String :=
  let slashes := leadingSlashes p.toList
  let parts := normalizeParts (!slashes.isEmpty) (Text.split '/' p)
  let text := String.ofList slashes ++ Text.join "/" parts
  if text = "" then "." else text

/-- A path seen from a directory; an absolute path stays as it is. -/
def append (dir p : String) : String :=
  if isAbsolute p then p
  else if dir = "" ∨ Text.endsWith dir "/" then dir ++ p
  else dir ++ "/" ++ p

/-- The characters up to and with the last slash, and those after it. -/
def splitName (p : String) : List Char × List Char :=
  let name := (p.toList.reverse.takeWhile (· != '/')).reverse
  (p.toList.take (p.length - name.length), name)

/-- What follows the last slash. -/
def baseName (p : String) : String := String.ofList (splitName p).2

/-- What precedes the last slash, without slashes at its end. -/
def directory (p : String) : String :=
  let head := (splitName p).1
  let kept := Text.dropEndWhile (· == '/') head
  String.ofList (if kept.isEmpty then head else kept)

/-- A path divided before the last point of its name; points at the start of the
name do not count. -/
def splitExtension (p : String) : String × String :=
  let (head, name) := splitName p
  let dots := name.takeWhile (· == '.')
  let rest := name.drop dots.length
  let extension := rest.reverse.takeWhile (· != '.')
  if extension.length = rest.length then (p, "")
  else
    let keep := rest.length - extension.length - 1
    (String.ofList (head ++ dots ++ rest.take keep), String.ofList (rest.drop keep))

/-- The components that are neither empty nor a point. -/
def components (p : String) : List String :=
  (Text.split '/' p).filter fun part => part != "" && part != "."

/-- The root of a path as a part of it. -/
def root (p : String) : String := String.ofList (leadingSlashes p.toList)

/-- The root, if there is one, and the components. -/
def parts (p : String) : List String :=
  if root p = "" then components p else root p :: components p

/-- A path without empty components and points. -/
def tidy (p : String) : String :=
  let text := root p ++ Text.join "/" (components p)
  if text = "" then "." else text

/-- The last component, or nothing. -/
def lastName (p : String) : String := (components p).getLast?.getD ""

/-- The ending of the last component from its last point on.  A point at either
end of the name makes no ending. -/
def suffix (p : String) : String :=
  let name := (lastName p).toList
  let ending := name.reverse.takeWhile (· != '.')
  let stem := name.length - ending.length - 1
  if ending.length < name.length ∧ ending ≠ [] ∧ 0 < stem then
    String.ofList ('.' :: ending.reverse)
  else ""

/-- The components of the absolute path that `p` names, seen from `dir`. -/
def resolveParts (dir p : String) : List String :=
  normalizeParts true (Text.split '/' (append dir p))

/-- The absolute path with the given components. -/
def ofParts (parts : List String) : String := "/" ++ Text.join "/" parts

/-- The absolute path that `p` names, seen from `dir`. -/
def resolve (dir p : String) : String := ofParts (resolveParts dir p)

/-- The components of `p` below `dir`, both absolute. -/
def below? : List String → List String → Option (List String)
  | [], parts => some parts
  | d :: dir, part :: parts => if d = part then below? dir parts else none
  | _ :: _, [] => none

/-- Components as a relative path; none at all is a point. -/
def ofRelative (parts : List String) : String :=
  if parts.isEmpty then "." else Text.join "/" parts

end RouteImpact.Path
