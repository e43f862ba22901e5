import RouteImpact.Path.Lexical

namespace RouteImpact

/-!
# Disks

A disk holds files and directories at places; a place is the list of names that
lead to it from the root.  Paths are walked the way an operating system walks
them: every name but the last must stand for a directory that exists, and two
points lead to the directory above.

Operations that change a disk return the disk in any case: one that fails half
way leaves what it has done.
-/

namespace Disk

/-- What stands at a place. -/
inductive Entry where
  | file (bytes : ByteArray)
  | directory

/-- The names that lead to a place from the root. -/
abbrev Place := List String

/-- Why an operation fails. -/
inductive Fault where
  /-- There is nothing at the place. -/
  | notFound
  /-- Something of the wrong kind is in the way. -/
  | refused
  /-- A name is too long. -/
  | nameTooLong
  /-- A name holds the character that ends names. -/
  | nulInName
deriving Repr, DecidableEq

end Disk

/-- Files and directories by place. -/
structure Disk where
  entries : List (Disk.Place × Disk.Entry) := []

namespace Disk

/-- The disk with nothing but its root. -/
def empty : Disk := {}

/-- What stands at a place; the root is always a directory. -/
def at? (d : Disk) (place : Place) : Option Entry :=
  if place = [] then some .directory else (d.entries.find? (·.1 = place)).map (·.2)

/-- Puts an entry at a place. -/
def set (d : Disk) (place : Place) (e : Entry) : Disk :=
  ⟨d.entries.filter (·.1 ≠ place) ++ [(place, e)]⟩

/-- Takes the entry at a place away. -/
def erase (d : Disk) (place : Place) : Disk := ⟨d.entries.filter (·.1 ≠ place)⟩

/-- Takes a place and everything below it away. -/
def eraseTree (d : Disk) (place : Place) : Disk :=
  ⟨d.entries.filter fun e => !place.isPrefixOf e.1⟩

/-! ### Walking -/

/-- More bytes than this are too many for a name. -/
def longestName : Nat := 255

/-- Whether a path holds the character that ends names. -/
def hasNul (p : String) : Bool := p.toList.contains '\x00'

/-- Follows names from a place. -/
def walk (d : Disk) : Place → List String → Except Fault Place
  | here, [] => .ok here
  | here, name :: rest =>
    match d.at? here with
    | none => .error .notFound
    | some (.file _) => .error .refused
    | some .directory =>
      if name = ".." then d.walk here.dropLast rest
      else if longestName < name.utf8ByteSize then .error .nameTooLong
      else d.walk (here ++ [name]) rest

/-- The place that names lead to from the root. -/
def locate (d : Disk) (names : List String) : Except Fault Place :=
  if names.any hasNul then .error .nulInName else d.walk [] names

/-! ### Reading -/

/-- What names lead to. -/
def find (d : Disk) (names : List String) : Except Fault (Place × Entry) :=
  match d.locate names with
  | .error e => .error e
  | .ok place =>
    match d.at? place with
    | some e => .ok (place, e)
    | none => .error .notFound

/-- The bytes of a file. -/
def read (d : Disk) (names : List String) : Except Fault ByteArray :=
  match d.find names with
  | .error e => .error e
  | .ok (_, .file bytes) => .ok bytes
  | .ok (_, .directory) => .error .refused

/-- Whether a path leads to a file.  A name that is too long keeps this from being told;
whatever else is in the way means that there is none. -/
def isFile (d : Disk) (p : String) : Except Fault Bool :=
  match d.find (Path.components p) with
  | .ok (_, .file _) => .ok true
  | .error .nameTooLong => .error .nameTooLong
  | _ => .ok false

/-- Whether a path leads to anything, if that can be told. -/
def holds (d : Disk) (p : String) : Except Fault Bool :=
  match d.find (Path.components p) with
  | .ok _ => .ok true
  | .error .nameTooLong => .error .nameTooLong
  | .error _ => .ok false

/-- The text of a file, its lines ended by line feeds; nothing when there is no
file or it is not Unicode. -/
def text? (d : Disk) (p : String) : Option String :=
  match d.read (Path.components p) with
  | .ok bytes => (String.fromUTF8? bytes).map Text.lineFeeds
  | .error _ => none

/-- The places below a directory, seen from it, that satisfy `p`. -/
def placesBelow (d : Disk) (directory : Place) (p : Entry → Bool) : List Place :=
  d.entries.filterMap fun (place, e) =>
    if p e then (Path.below? directory place).filter (· ≠ []) else none

/-- Whether an entry is a file. -/
def Entry.isFile : Entry → Bool
  | .file _ => true
  | .directory => false

/-- The files below a directory, seen from it. -/
def filesBelow (d : Disk) (directory : Place) : List Place := d.placesBelow directory Entry.isFile

/-- The directories below a directory, seen from it. -/
def directoriesBelow (d : Disk) (directory : Place) : List Place :=
  d.placesBelow directory fun e => !e.isFile

/-! ### Changing -/

/-- The outcome of a change and the disk after it. -/
abbrev Change := Except Fault Unit × Disk

/-- Follows names from a place and makes every directory that is missing. -/
def makeWalk : Disk → Place → List String → Change
  | d, _, [] => (.ok (), d)
  | d, here, name :: rest =>
    if name = ".." then makeWalk d here.dropLast rest
    else if longestName < name.utf8ByteSize then (.error .nameTooLong, d)
    else
      match d.at? (here ++ [name]) with
      | some (.file _) => (.error .refused, d)
      | some .directory => makeWalk d (here ++ [name]) rest
      | none => makeWalk (d.set (here ++ [name]) .directory) (here ++ [name]) rest

/-- Makes the directory that names lead to, and those above it. -/
def makeDirectories (d : Disk) (names : List String) : Change :=
  if names.any hasNul then (.error .nulInName, d) else makeWalk d [] names

/-- The place that names lead to when its directory exists. -/
def target (d : Disk) (names : List String) : Except Fault Place :=
  match d.locate names with
  | .error e => .error e
  | .ok place =>
    match d.at? place.dropLast with
    | some .directory => .ok place
    | some (.file _) => .error .refused
    | none => .error .notFound

/-- Writes a file, which may be there already. -/
def write (d : Disk) (names : List String) (bytes : ByteArray) : Change :=
  match d.target names with
  | .error e => (.error e, d)
  | .ok place =>
    match d.at? place with
    | some .directory => (.error .refused, d)
    | _ => (.ok (), d.set place (.file bytes))

/-- Moves a file in one step; a file at the new place gives way, a directory does
not. -/
def rename (d : Disk) (old new : List String) : Change :=
  match d.find old, d.target new with
  | .error e, _ => (.error e, d)
  | _, .error e => (.error e, d)
  | .ok (source, e), .ok place =>
    match d.at? place with
    | some .directory => (.error .refused, d)
    | _ => (.ok (), (d.erase source).set place e)

/-- Removes a file. -/
def unlink (d : Disk) (names : List String) : Change :=
  match d.find names with
  | .error e => (.error e, d)
  | .ok (_, .directory) => (.error .refused, d)
  | .ok (place, .file _) => (.ok (), d.erase place)

/-! ### Look-up laws -/

theorem find?_filter_ne (place place' : Place) (es : List (Place × Entry)) :
    (es.filter (·.1 ≠ place)).find? (·.1 = place') =
      if place = place' then none else es.find? (·.1 = place') := by
  induction es with
  | nil => simp
  | cons e es ih => grind

theorem at?_set {d : Disk} {place place' : Place} {e : Entry} (h : place ≠ []) :
    (d.set place e).at? place' = if place = place' then some e else d.at? place' := by
  have hfind := find?_filter_ne place place' d.entries
  unfold at? set
  by_cases hp : place' = []
  · grind
  · by_cases heq : place = place'
    · rw [if_neg hp, List.find?_append, hfind]
      simp [heq]
    · rw [if_neg hp, List.find?_append, hfind]
      simp [heq, hp]

theorem at?_erase {d : Disk} {place place' : Place} (h : place' ≠ []) :
    (d.erase place).at? place' = if place = place' then none else d.at? place' := by
  unfold at? erase
  have := find?_filter_ne place place' d.entries
  by_cases heq : place = place' <;> simp_all

end Disk

end RouteImpact
