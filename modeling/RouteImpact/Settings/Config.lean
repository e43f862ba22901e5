import RouteImpact.Number.Integer
import RouteImpact.Settings.Aliases
import RouteImpact.Text.Lowercase

namespace RouteImpact.Settings

/-!
# Settings of an analysis

All tunables of an analysis, their defaults and limits, and how they are read
from environment variables.
-/

/-- The endings that are tried for an import without one, in order. -/
def defaultEndings : List String := [".tsx", ".ts", ".jsx", ".js"]

/-- The tunables of an analysis. -/
structure Config where
  /-- Files with more bytes than this are skipped. -/
  maxFileSize : Int := 1024 * 1024
  /-- How many files of a full build are processed together. -/
  batchSize : Int := 50
  /-- Once a route has been found, the impact search stops beyond this depth;
  without a depth it visits everything. -/
  earlyStopDepth : Option Int := some 3
  aliases : Aliases := defaultAliases
  endings : List String := defaultEndings
  /-- The first part of the key of a persisted graph. -/
  cacheNamespace : String := "routegraph-cache"
  /-- The directory of the local store, seen from the project. -/
  cacheDir : String := ".routegraph-cache"
  /-- Whether a file that stops importing another is taken off its importers. -/
  pruneStaleEdges : Bool := false
  /-- Whether aliases of the project's compiler configuration are used. -/
  loadProjectAliases : Bool := true
deriving Repr, Inhabited

namespace Config

/-- The first fault of settings, if there is one. -/
def fault? (c : Config) : Option ConfigError :=
  if c.maxFileSize ≤ 0 then some (.fileSize c.maxFileSize)
  else if c.batchSize ≤ 0 then some (.batchSize c.batchSize)
  else
    match c.earlyStopDepth.filter (· < 0) with
    | some depth => some (.stopDepth depth)
    | none =>
      match c.endings.find? (!Text.startsWith · ".") with
      | some ending => some (.ending ending)
      | none =>
        if Text.stripBoth (· == '/') c.cacheNamespace = "" then some .emptyNamespace else none

/-- Settings without a fault. -/
def checked (c : Config) : Except ConfigError Config :=
  match c.fault? with
  | some e => .error e
  | none => .ok c

/-- Settings whose aliases are extended by those of the project. -/
def withProjectAliases (c : Config) (project : Aliases) : Config :=
  { c with aliases := withProject project c.aliases }

/-! ### Environment -/

/-- What every variable's name starts with. -/
def variableStart : String := "ROUTEGRAPH_"

/-- The names of the variables, without what they start with. -/
def variableNames : List String :=
  ["MAX_FILE_SIZE", "BATCH_SIZE", "EARLY_STOP_DEPTH", "ALIASES", "CACHE_NAMESPACE", "CACHE_DIR",
   "PRUNE_STALE_EDGES", "TSCONFIG_PATHS"]

/-- The value of a variable without blank space around it. -/
def given? (env : OrderedMap String) (name : String) : Option String :=
  (env.get? (variableStart ++ name)).map Text.strip

/-- Values that switch something off. -/
def falseValues : List String := ["", "0", "false", "no", "off"]

/-- Values that switch early termination off. -/
def disabledValues : List String := ["none", "off", "disabled", "-1"]

/-- Reads the integer value of a variable. -/
def integerOf (name given : String) : Except ConfigError Int :=
  match Number.integer? given with
  | some n => .ok n
  | none => .error (.notAnInteger (variableStart ++ name) given)

/-- The value of a variable that is set and not empty. -/
def nonEmpty? (env : OrderedMap String) (name : String) : Option String :=
  (given? env name).filter (· != "")

/-- An integer variable; `default` when it is not set or empty. -/
def integerVariable (env : OrderedMap String) (name : String) (default : Int) :
    Except ConfigError Int :=
  match nonEmpty? env name with
  | some given => integerOf name given
  | none => .ok default

/-- A switch; `default` when it is not set. -/
def switchVariable (env : OrderedMap String) (name : String) (default : Bool) : Bool :=
  match given? env name with
  | some given => !falseValues.contains (Text.lower given)
  | none => default

/-- The settings that environment variables describe. -/
def ofEnvironment (env : OrderedMap String) : Except ConfigError Config := do
  let base : Config := {}
  let maxFileSize ← integerVariable env "MAX_FILE_SIZE" base.maxFileSize
  let batchSize ← integerVariable env "BATCH_SIZE" base.batchSize
  let earlyStopDepth ←
    match nonEmpty? env "EARLY_STOP_DEPTH" with
    | none => pure base.earlyStopDepth
    | some given =>
      if disabledValues.contains (Text.lower given) then pure none
      else some <$> integerOf "EARLY_STOP_DEPTH" given
  let aliases ←
    match nonEmpty? env "ALIASES" with
    | none => pure base.aliases
    | some given => parseAliasList given
  checked
    { base with
      maxFileSize, batchSize, earlyStopDepth, aliases
      cacheNamespace := (nonEmpty? env "CACHE_NAMESPACE").getD base.cacheNamespace
      cacheDir := (nonEmpty? env "CACHE_DIR").getD base.cacheDir
      pruneStaleEdges := switchVariable env "PRUNE_STALE_EDGES" base.pruneStaleEdges
      loadProjectAliases := switchVariable env "TSCONFIG_PATHS" base.loadProjectAliases }

end Config

end RouteImpact.Settings
