import RouteImpact.Data.OrderedMap
import RouteImpact.Disk.Basic
import RouteImpact.Text.Quoted

namespace RouteImpact

/-!
# Stores

A store keeps bytes under keys.  Keys are relative paths that never lead out of
the store.  A store in memory is a map; one in a directory keeps each key as a
file below it and replaces a file only after its new bytes are written, so that a
failed upload leaves the old bytes in place.
-/

/-- Where bytes are kept. -/
inductive Store where
  | memory (blobs : OrderedMap ByteArray)
  /-- A directory, whose files are named by their keys. -/
  | directory (path : String)
  /-- A store that refuses everything. -/
  | failing
  /-- A store that cannot be reached. -/
  | unreachable

namespace Store

/-- Why an operation is refused. -/
inductive Reason where
  | badKey
  | notFound
  /-- The disk does not allow it. -/
  | disk
  | offline
deriving Repr, DecidableEq

/-- The wording of a reason; what the disk says is not repeated. -/
def Reason.text? : Reason → Option String
  | .badKey => some "keys must be relative and stay inside the store"
  | .notFound => some "not found"
  | .offline => some "unreachable"
  | .disk => none

/-- Why an operation fails. -/
inductive Error where
  | refused (operation key : String) (reason : Reason)
  | nulInKey
  | disconnected
deriving Repr, DecidableEq

/-- The wording of a refusal whose reason has one. -/
def Error.message? : Error → Option String
  | .refused operation key reason =>
    reason.text?.map fun text => operation ++ " failed for " ++ Text.quoted key ++ ": " ++ text
  | _ => none

/-! ### Keys -/

/-- Whether a key is a relative path that stays inside the store. -/
def isKey (key : String) : Bool :=
  key != "" && !Path.isAbsolute key && !(Path.components key).contains ".."

/-- The names that lead to the file of a key. -/
def names (directory key : String) : List String := Path.components (Path.append directory key)

/-- What the names of files end in while their bytes are written. -/
def temporaryEnding : String := ".tmp"

/-- The names that lead to the file that is written first. -/
def temporary (names : List String) : List String :=
  names.dropLast ++ [names.getLast?.getD "" ++ temporaryEnding]

/-- The error for a fault of the disk. -/
def ofFault (operation key : String) : Disk.Fault → Error
  | .nulInName => .nulInKey
  | _ => .refused operation key .disk

/-! ### A store in a directory -/

/-- Writes bytes beside their place, then moves them there. -/
def writeThenMove (d : Disk) (names : List String) (data : ByteArray) : Disk.Change :=
  match d.makeDirectories names.dropLast with
  | (.error e, d) => (.error e, d)
  | (.ok _, d) =>
    match d.write (temporary names) data with
    | (.error e, d) => (.error e, d)
    | (.ok _, d) => d.rename (temporary names) names

/-- The keys of the files below a directory. -/
def keysBelow (d : Disk) (directory : String) : List String :=
  match d.find (Path.components directory) with
  | .ok (place, .directory) =>
    let files := (d.filesBelow place).filter fun names =>
      !Text.endsWith (names.getLast?.getD "") temporaryEnding
    Text.sort (files.map (Text.join "/"))
  | _ => []

end Store

/-- A store and the disk that it may keep its bytes on. -/
structure Host where
  store : Store
  disk : Disk

namespace Host

open Store (Error ofFault names isKey)

/-- Keeps bytes under a key, in place of what was there. -/
def upload (h : Host) (key : String) (data : ByteArray) : Except Error Unit × Host :=
  match h.store with
  | .memory blobs =>
    if isKey key then (.ok (), { h with store := .memory (blobs.set key data) })
    else (.error (.refused "validate" key .badKey), h)
  | .directory path =>
    if isKey key then
      match Store.writeThenMove h.disk (names path key) data with
      | (.ok _, d) => (.ok (), { h with disk := d })
      | (.error e, d) => (.error (ofFault "upload" key e), { h with disk := d })
    else (.error (.refused "validate" key .badKey), h)
  | .failing => (.error (.refused "upload" key .offline), h)
  | .unreachable => (.error .disconnected, h)

/-- The bytes under a key. -/
def download (h : Host) (key : String) : Except Error ByteArray :=
  match h.store with
  | .memory blobs =>
    (blobs.get? key).elim (.error (.refused "download" key .notFound)) .ok
  | .directory path =>
    if isKey key then
      match h.disk.read (names path key) with
      | .ok bytes => .ok bytes
      | .error .notFound => .error (.refused "download" key .notFound)
      | .error e => .error (ofFault "download" key e)
    else .error (.refused "validate" key .badKey)
  | .failing => .error (.refused "download" key .offline)
  | .unreachable => .error .disconnected

/-- The keys that start with a text, in order. -/
def list (h : Host) (start : String) : Except Error (List String) :=
  match h.store with
  | .memory blobs => .ok (Text.sort (blobs.keys.filter (Text.startsWith · start)))
  | .directory path => .ok ((Store.keysBelow h.disk path).filter (Text.startsWith · start))
  | .failing => .error (.refused "list" start .offline)
  | .unreachable => .error .disconnected

/-- Removes a key, which need not be there. -/
def delete (h : Host) (key : String) : Except Error Unit × Host :=
  match h.store with
  | .memory blobs => (.ok (), { h with store := .memory (blobs.erase key) })
  | .directory path =>
    if isKey key then
      match h.disk.unlink (names path key) with
      | (.ok _, d) => (.ok (), { h with disk := d })
      | (.error .notFound, _) => (.ok (), h)
      | (.error e, _) => (.error (ofFault "delete" key e), h)
    else (.error (.refused "validate" key .badKey), h)
  | .failing => (.error (.refused "delete" key .offline), h)
  | .unreachable => (.error .disconnected, h)

end Host

end RouteImpact
