import RouteImpact.Data.OrderedMap
import RouteImpact.Text.Basic
import RouteImpact.Text.Quoted

namespace RouteImpact.Settings

/-!
# Import aliases

An alias replaces the start of an import specifier by a directory of the
project.  Aliases come from the built-in defaults, from the environment or the
command line, and from the project's own compiler configuration; `withProject`
says which of them wins.
-/

/-- Prefixes of specifiers and what they stand for. -/
abbrev Aliases := OrderedMap String

/-- The aliases of a project that says nothing. -/
def defaultAliases : Aliases := OrderedMap.ofList [("@/", "src/"), ("src/", "src/")]

/-- What can be wrong with settings. -/
inductive ConfigError where
  | fileSize (given : Int)
  | batchSize (given : Int)
  | stopDepth (given : Int)
  | ending (given : String)
  | emptyNamespace
  | alias (entry : String)
  | notAnInteger (variableName given : String)
deriving Repr, DecidableEq

/-- The wording of an error. -/
def ConfigError.message : ConfigError → String
  | .fileSize n => "max_file_size must be positive, got " ++ toString n
  | .batchSize n => "batch_size must be positive, got " ++ toString n
  | .stopDepth n => "early_stop_depth must be >= 0 or None, got " ++ toString n
  | .ending e => "extension " ++ Text.quoted e ++ " must start with '.'"
  | .emptyNamespace => "cache_namespace must not be empty"
  | .alias entry => "Invalid alias " ++ Text.quoted entry ++ "; expected PREFIX=TARGET"
  | .notAnInteger name given => name ++ " must be an integer, got " ++ Text.quoted given

/-- Reads one entry of an alias list; an entry of blank space says nothing. -/
def aliasEntry (entry : String) : Except ConfigError (Option (String × String)) :=
  let entry := Text.strip entry
  if entry = "" then .ok none
  else
    match Text.cut? '=' entry with
    | none => .error (.alias entry)
    | some (start, target) =>
      if Text.strip start = "" then .error (.alias entry)
      else .ok (some (Text.strip start, Text.strip target))

/-- Adds the entries of an alias list one after the other. -/
def addEntries : List String → Aliases → Except ConfigError Aliases
  | [], aliases => .ok aliases
  | entry :: rest, aliases =>
    match aliasEntry entry with
    | .error e => .error e
    | .ok none => addEntries rest aliases
    | .ok (some (start, target)) => addEntries rest (aliases.set start target)

/-- Reads a list of aliases such as `@/=src/,~/=lib/`. -/
def parseAliasList (raw : String) : Except ConfigError Aliases :=
  addEntries (Text.split ',' raw) OrderedMap.empty

/-- The project's aliases extended by those of the settings.  An alias that
differs from the default wins over the project; a default yields to it. -/
def withProject (project own : Aliases) : Aliases :=
  own.entries.foldl
    (fun merged (start, target) =>
      if merged.contains start ∧ defaultAliases.get? start = some target then merged
      else merged.set start target)
    project

/-- Aliases with longer prefixes first; prefixes of one length keep their order. -/
def longestFirst (aliases : Aliases) : List (String × String) :=
  aliases.entries.mergeSort fun a b => b.1.length ≤ a.1.length

end RouteImpact.Settings
