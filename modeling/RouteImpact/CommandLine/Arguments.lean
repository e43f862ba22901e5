import RouteImpact.Number.Integer

namespace RouteImpact.CommandLine

/-!
# Reading a command line

Options may stand before, between and after the other arguments.  A long option
takes its value from the next argument or after an equals sign; short options may
be written together, and one that takes a value takes the rest of its argument.
Two dashes end the options.
-/

/-- An option of a command. -/
structure OptionSpec where
  /-- The spellings, dashes included. -/
  spellings : List String
  takesValue : Bool := false

/-- Options and other arguments in the order given; an option has the first of its
spellings as its name. -/
structure Given where
  options : List (String × String) := []
  arguments : List String := []

namespace Given

/-- Whether an option was given. -/
def has (g : Given) (name : String) : Bool := g.options.any (·.1 == name)

/-- The values of an option, in order. -/
def values (g : Given) (name : String) : List String :=
  (g.options.filter (·.1 == name)).map (·.2)

/-- The last value of an option. -/
def value? (g : Given) (name : String) : Option String := (g.values name).getLast?

/-- Adds an option. -/
def withOption (g : Given) (name value : String) : Given :=
  { g with options := g.options ++ [(name, value)] }

/-- Adds an argument. -/
def withArgument (g : Given) (argument : String) : Given :=
  { g with arguments := g.arguments ++ [argument] }

end Given

/-- The name of an option. -/
def OptionSpec.name (o : OptionSpec) : String := o.spellings.headD ""

/-- The option with a spelling. -/
def findOption (specs : List OptionSpec) (spelling : String) : Option OptionSpec :=
  specs.find? (·.spellings.contains spelling)

/-- Reads a group of short options.  Answers the options read and whether the next
argument is a value that was used; nothing when one is unknown or lacks its
value. -/
def readShort (specs : List OptionSpec) (next : Option String) :
    List Char → Given → Option (Given × Bool)
  | [], g => some (g, false)
  | c :: cs, g =>
    match findOption specs (String.ofList ['-', c]) with
    | none => none
    | some o =>
      if o.takesValue then
        if cs.isEmpty then next.map fun value => (g.withOption o.name value, true)
        else some (g.withOption o.name (String.ofList cs), false)
      else readShort specs next cs (g.withOption o.name "")

/-- Reads a long option; the answer is as for short ones. -/
def readLong (specs : List OptionSpec) (next : Option String) (argument : String) (g : Given) :
    Option (Given × Bool) :=
  let (spelling, value) :=
    match Text.cut? '=' argument with
    | some (spelling, value) => (spelling, some value)
    | none => (argument, none)
  match (findOption specs spelling).filter fun o => o.spellings.any (Text.startsWith · "--") with
  | none => none
  | some o =>
    match o.takesValue, value with
    | true, some value => some (g.withOption o.name value, false)
    | true, none => next.map fun value => (g.withOption o.name value, true)
    | false, none => some (g.withOption o.name "", false)
    | false, some _ => none

/-- Whether an argument is written like an option. -/
def isOption (argument : String) : Bool :=
  Text.startsWith argument "-" && 1 < argument.length

/-- Reads one argument that is written like an option. -/
def readOption (specs : List OptionSpec) (next : Option String) (argument : String) (g : Given) :
    Option (Given × Bool) :=
  if Text.startsWith argument "--" then readLong specs next argument g
  else readShort specs next (argument.toList.drop 1) g

/-- Reads arguments.  With `mixed`, options may follow other arguments; without,
the first other argument ends the reading, and it and the rest are answered as
they are. -/
def readArguments (specs : List OptionSpec) (mixed : Bool) : List String → Given → Option Given
  | [], g => some g
  | argument :: rest, g =>
    if argument = "--" then some { g with arguments := g.arguments ++ rest }
    else if isOption argument then
      match readOption specs rest.head? argument g with
      | none => none
      | some (g, used) =>
        match used, rest with
        | true, _ :: rest => readArguments specs mixed rest g
        | _, rest => readArguments specs mixed rest g
    else if mixed then readArguments specs mixed rest (g.withArgument argument)
    else some { g with arguments := g.arguments ++ argument :: rest }

/-! ### Commands -/

/-- What is asked for. -/
inductive Command where
  | analyze (repo : String) (force : Bool) (aliases : List String) (prune json : Bool)
  | routes (files : List String) (repo : String) (precise exhaustive : Bool)
      (depth : Option Int) (json : Bool)
  | info (files : List String) (repo : String) (json : Bool)
  | serving (component repo : String) (json : Bool)
  | metrics (repo : String) (json : Bool)
  | clean (repo : String) (force : Bool)
  | watch (repo : String)
  | serve
deriving Repr, DecidableEq

/-- The meaning of a command line. -/
inductive Request where
  | run (command : Command)
  | version
  | help
  /-- The command line has no meaning. -/
  | misuse
deriving Repr, DecidableEq

def helpOption : OptionSpec := ⟨["--help"], false⟩

def repoOption : OptionSpec := ⟨["--repo", "-r"], true⟩

def forceOption : OptionSpec := ⟨["--force", "-f"], false⟩

def jsonOption : OptionSpec := ⟨["--json"], false⟩

/-- The options that stand before the command. -/
def globalOptions : List OptionSpec :=
  [⟨["--version", "-v"], false⟩, ⟨["--verbose"], false⟩, helpOption]

/-- The options of each command. -/
def commandOptions : List (String × List OptionSpec) :=
  [("analyze", [forceOption, ⟨["--alias", "-a"], true⟩, ⟨["--prune-stale-edges"], false⟩,
      jsonOption]),
   ("routes", [repoOption, ⟨["--precise"], false⟩, ⟨["--exhaustive"], false⟩,
      ⟨["--early-stop-depth"], true⟩, jsonOption]),
   ("info", [repoOption, jsonOption]),
   ("serving", [repoOption, jsonOption]),
   ("metrics", [repoOption, jsonOption]),
   ("clean", [repoOption, forceOption]),
   ("watch", [repoOption]),
   ("mcp", [⟨["--watch", "-w"], false⟩])]

/-- The depth that was asked for; the outer option tells whether it can be read. -/
def depthOf (g : Given) : Option (Option Int) :=
  match g.value? "--early-stop-depth" with
  | none => some none
  | some text => (Number.integer? text).map some

/-- The command that a name and its arguments stand for. -/
def commandOf? (name : String) (g : Given) : Option Command :=
  let repo := (g.value? "--repo").getD "."
  let json := g.has "--json"
  match name, g.arguments with
  | "analyze", [] =>
    some (.analyze "." (g.has "--force") (g.values "--alias") (g.has "--prune-stale-edges") json)
  | "analyze", [repo] =>
    some (.analyze repo (g.has "--force") (g.values "--alias") (g.has "--prune-stale-edges") json)
  | "routes", file :: files =>
    (depthOf g).map fun depth =>
      .routes (file :: files) repo (g.has "--precise") (g.has "--exhaustive") depth json
  | "info", file :: files => some (.info (file :: files) repo json)
  | "serving", [component] => some (.serving component repo json)
  | "metrics", [] => some (.metrics repo json)
  | "clean", [] => some (.clean repo (g.has "--force"))
  | "watch", [] => some (.watch repo)
  | "mcp", [] => some .serve
  | _, _ => none

/-- The request of a command and what follows it. -/
def commandRequest (name : String) (arguments : List String) : Request :=
  match commandOptions.find? (·.1 == name) with
  | none => .misuse
  | some (_, specs) =>
    match readArguments (helpOption :: specs) true arguments {} with
    | none => .misuse
    | some g =>
      if g.has "--help" then .help
      else (commandOf? name g).elim .misuse .run

/-- The request of a command line. -/
def Request.parse (arguments : List String) : Request :=
  match readArguments globalOptions false arguments {} with
  | none => .misuse
  | some g =>
    match g.options.find? fun o => o.1 == "--version" || o.1 == "--help" with
    | some ("--version", _) => .version
    | some _ => .help
    | none =>
      match g.arguments with
      | [] => .misuse
      | name :: rest => commandRequest name rest

end RouteImpact.CommandLine
