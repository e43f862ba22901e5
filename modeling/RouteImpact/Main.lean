import RouteImpact.CommandLine.Run
import Std.Time.DateTime.Timestamp

namespace RouteImpact.CommandLine

/-!
# The program

The outer layer: it reads the project's directory into a `Disk`, runs the command
line on it, prints what the run prints and writes back what the run has changed.

Directories that no analysis looks into are not read.  A watching run looks at the
directory again at every turn and hands on what has changed.
-/

/-- Directories that are not read: their files are never analysed. -/
def unread : List String := [".git", "node_modules"]

/-- Reads a directory and everything below it. -/
partial def readTree (directory : String) (place : Disk.Place) (d : Disk) : IO Disk := do
  let mut d := d
  for item in ← (← IO.FS.realPath directory).readDir do
    let here := place ++ [item.fileName]
    let info ← item.path.metadata
    match info.type with
    | .dir =>
      unless unread.contains item.fileName do
        d ← readTree item.path.toString here (d.set here .directory)
    | .file => d := d.set here (.file (← IO.FS.readBinFile item.path))
    | _ => pure ()
  return d

/-- The disk with a directory, everything below it and what leads to it. -/
def readDisk (directory : String) : IO Disk := do
  let place := Path.components directory
  let (_, d) := Disk.empty.makeDirectories place
  try readTree directory place d catch _ => return Disk.empty

/-- The entries of a disk that another lacks or has otherwise. -/
def changes (old new : Disk) : List (Disk.Place × Disk.Entry) :=
  new.entries.filter fun (place, e) =>
    match e, old.at? place with
    | .directory, some .directory => false
    | .file a, some (.file b) => a != b
    | _, _ => true

/-- The path of a place. -/
def pathOf (place : Disk.Place) : String := "/" ++ Text.join "/" place

/-- Brings the files up to date with a disk. -/
def writeBack (old new : Disk) : IO Unit := do
  for (place, e) in changes old new do
    match e with
    | .directory => IO.FS.createDirAll (pathOf place)
    | .file bytes => IO.FS.writeBinFile (pathOf place) bytes
  for (place, e) in old.entries do
    if e.isFile && (new.at? place).isNone then IO.FS.removeFile (pathOf place)

/-- The current time. -/
def currentMoment : IO Moment := do
  let t ← Std.Time.Timestamp.now
  let nanoseconds := t.toNanosecondsSinceUnixEpoch.toInt
  return Number.Binary64.ofDecimal (decide (nanoseconds < 0)) nanoseconds.natAbs (-9)

/-- The environment variables that settings are taken from. -/
def readVariables : IO (OrderedMap String) := do
  let mut environment := OrderedMap.empty
  for name in Settings.Config.variableNames do
    let name := Settings.Config.variableStart ++ name
    if let some value ← IO.getEnv name then
      environment := environment.set name value
  return environment

/-- A time of so many thousandths of a second, as it is shown. -/
def shownDuration (milliseconds : Nat) : String :=
  (Number.Binary64.ofDecimal false milliseconds (-3)).fixed 2 ++ "s"

/-- The project's directory that a command names. -/
def Command.repo : Command → String
  | .analyze repo .. | .routes _ repo .. | .info _ repo _ | .serving _ repo _ | .metrics repo _
  | .clean repo _ | .watch repo => repo
  | .serve => "."

/-- The project's directory that a request names. -/
def Request.repo : Request → String
  | .run command => command.repo
  | _ => "."

/-- Looks at the directory again and again and takes in what has changed. -/
partial def watchLoop (patterns : List String) (s : Session) : IO Unit := do
  IO.sleep 500
  let seen := s.disk
  let disk ← readDisk s.root
  let gone := seen.entries.filter fun (place, e) => e.isFile && (disk.at? place).isNone
  let changed := (changes seen disk ++ gone).map fun (place, _) => pathOf place
  let s := { s with host := { s.host with disk }, now := ← currentMoment }
  match s.watchBatch patterns changed with
  | (.error _, s) =>
    writeBack disk s.disk
    throw (IO.userError "the watch has failed")
  | (.ok _, s) =>
    writeBack disk s.disk
    watchLoop patterns s

/-- Prints a reply and writes back what the run has changed. -/
def finish (before : Disk) (reply : Reply) : IO UInt32 := do
  IO.print reply.output
  (← IO.getStdout).flush
  writeBack before reply.disk
  return reply.exitCode.toUInt32

end RouteImpact.CommandLine

open RouteImpact RouteImpact.CommandLine

/-- Runs the command line. -/
def main (arguments : List String) : IO UInt32 := do
  let started ← IO.monoMsNow
  let request := Request.parse arguments
  let directory := (← IO.currentDir).toString
  let disk ← readDisk (Path.resolve directory request.repo)
  let input ←
    match request with
    | .run (.clean _ false) => (← IO.getStdin).readToEnd
    | _ => pure ""
  let w : Surroundings :=
    { directory, disk, input, environment := ← readVariables, now := ← currentMoment
      duration := shownDuration ((← IO.monoMsNow) - started) }
  match request with
  | .run (.watch repo) =>
    let reply := run w [] arguments
    let code ← finish disk reply
    match directoryFirst { w with disk := reply.disk } repo with
    | .error _ => return code
    | .ok s =>
      match s.beginWatch with
      | (.error _, _) => return code
      | (.ok patterns, s) => watchLoop patterns s
      return code
  | _ => finish disk (run w [] arguments)
