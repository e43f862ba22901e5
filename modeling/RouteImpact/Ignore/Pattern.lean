import RouteImpact.Text.Basic

namespace RouteImpact.Ignore

/-!
# Ignore patterns

Patterns in the style of a `.gitignore` file, compiled into small matchers.  A
pattern matches a path when one of its components, or a run of them, looks as
the pattern says; the last pattern of a list that matches a path decides about
it, and a pattern that starts with an exclamation mark takes a path back.
-/

/-- What one character of a path component may be. -/
inductive Glyph where
  | exactly (c : Char)
  | anyButSlash
  /-- Any number of characters other than a slash. -/
  | run
  /-- One of some ranges of characters, or none of them. -/
  | oneOf (negated : Bool) (ranges : List (Char × Char))
deriving Repr, DecidableEq

/-- A part of a compiled pattern. -/
inductive Piece where
  /-- Optionally some directories at the start of the path. -/
  | anyStart
  /-- Optionally some directories inside the path. -/
  | anyInside
  | slash
  | glyph (g : Glyph)
  /-- The end of the path or of a directory in it. -/
  | ending
deriving Repr, DecidableEq

/-- How a pattern matches. -/
inductive Matcher where
  | everything
  /-- Everything inside a directory. -/
  | everythingNested
  | pieces (ps : List Piece)
deriving Repr, DecidableEq

/-- A compiled pattern. -/
structure Pattern where
  negated : Bool
  matcher : Matcher
deriving Repr, DecidableEq

/-- A pattern with nothing left to match, or with a backslash at its end. -/
inductive PatternError where
  | invalid
deriving Repr, DecidableEq

/-! ### Matching -/

def Glyph.accepts (c : Char) : Glyph → Bool
  | .exactly d => c == d
  | .anyButSlash => c != '/'
  | .run => c != '/'
  | .oneOf negated ranges => ranges.any (fun (lo, hi) => lo ≤ c && c ≤ hi) != negated

/-- The rests of the path after one or more characters other than line feeds and
a slash, where `go` may go on. -/
def afterDirectories (go : List Char → Bool) : List Char → Bool → Bool
  | [], _ => false
  | c :: cs, begun =>
    (begun && c == '/' && go cs) || (c != '\n' && afterDirectories go cs true)

/-- The rests of the path after one or more characters other than line feeds,
where `go` may go on. -/
def afterCharacters (go : List Char → Bool) : List Char → Bool
  | [] => false
  | c :: cs => c != '\n' && (go cs || afterCharacters go cs)

/-- The rests of the path after characters that are no slashes, where `go` may go
on. -/
def afterRun (go : List Char → Bool) : List Char → Bool
  | [] => go []
  | c :: cs => go (c :: cs) || (c != '/' && afterRun go cs)

/-- Whether the pieces match from the start of the characters on. -/
def piecesMatch : List Piece → List Char → Bool
  | [], _ => true
  | p :: ps, cs =>
    match p with
    | .anyStart => piecesMatch ps cs || afterDirectories (piecesMatch ps) cs false
    | .anyInside =>
      piecesMatch ps cs ||
        (match cs with
         | '/' :: rest => afterCharacters (piecesMatch ps) rest
         | _ => false)
    | .slash =>
      match cs with
      | '/' :: rest => piecesMatch ps rest
      | _ => false
    | .ending =>
      match cs with
      | [] => piecesMatch ps []
      | '/' :: rest => piecesMatch ps rest
      | _ => cs == ['\n'] && piecesMatch ps cs
    | .glyph .run => afterRun (piecesMatch ps) cs
    | .glyph g =>
      match cs with
      | c :: rest => g.accepts c && piecesMatch ps rest
      | [] => false

/-- Whether a matcher matches a path. -/
def Matcher.accepts (path : String) : Matcher → Bool
  | .everything => path.toList.any (· != '\n')
  | .everythingNested => path.toList.contains '/'
  | .pieces ps => piecesMatch ps path.toList

/-! ### Compiling -/

/-- The ranges of characters between brackets. -/
def classRanges : List Char → List (Char × Char)
  | [] => []
  | lo :: '-' :: hi :: rest => (lo, hi) :: classRanges rest
  | c :: rest => (c, c) :: classRanges rest

/-- The characters between brackets, given those after the opening one, and what
follows the closing one.  A closing bracket at the start is an ordinary
character. -/
def classBody? (cs : List Char) : Option (Bool × List Char × List Char) :=
  let (negated, cs) :=
    match cs with
    | '!' :: rest => (true, rest)
    | '^' :: rest => (true, rest)
    | _ => (false, cs)
  let (first, cs) :=
    match cs with
    | ']' :: rest => ([']'], rest)
    | _ => ([], cs)
  match cs.span (· != ']') with
  | (inside, _ :: rest) => some (negated, first ++ inside, rest)
  | (_, []) => none

/-- Why a component cannot be compiled. -/
inductive GlobFault where
  | unclosedClass
  | trailingBackslash

/-- Compiles one component, with fuel for its length. -/
def glyphsLoop : Nat → List Char → List Glyph → Except GlobFault (List Glyph)
  | 0, _, read => .ok read.reverse
  | fuel + 1, cs, read =>
    match cs with
    | [] => .ok read.reverse
    | '\\' :: c :: rest => glyphsLoop fuel rest (.exactly c :: read)
    | ['\\'] => .error .trailingBackslash
    | '*' :: rest => glyphsLoop fuel rest (.run :: read)
    | '?' :: rest => glyphsLoop fuel rest (.anyButSlash :: read)
    | '[' :: rest =>
      match classBody? rest with
      | some (negated, inside, rest) =>
        glyphsLoop fuel rest (.oneOf negated (classRanges inside) :: read)
      | none => .error .unclosedClass
    | c :: rest => glyphsLoop fuel rest (.exactly c :: read)

/-- Compiles one component. -/
def glyphs (component : String) : Except GlobFault (List Glyph) :=
  let cs := component.toList
  glyphsLoop (cs.length + 1) cs []

/-- Removes a double star next to a double star. -/
def collapse : List String → List String
  | "**" :: "**" :: rest => collapse ("**" :: rest)
  | x :: rest => x :: collapse rest
  | [] => []

/-- Compiles components into pieces; `first` tells that no component came
before, `divided` that a slash is due before the next one. -/
def piecesOf : List String → Bool → Bool → Except GlobFault (List Piece)
  | [], _, _ => .ok []
  | "**" :: rest, first, _ =>
    if rest.isEmpty then .ok [.slash]
    else if first then (piecesOf rest false false).map (.anyStart :: ·)
    else (piecesOf rest false true).map (.anyInside :: ·)
  | component :: rest, _, divided =>
    let body : Except GlobFault (List Glyph) :=
      if component = "*" then .ok [.anyButSlash, .run] else glyphs component
    match body with
    | .error e => .error e
    | .ok gs =>
      let here := (if divided then [Piece.slash] else []) ++ gs.map .glyph
      if rest.isEmpty then .ok (here ++ [.ending])
      else (piecesOf rest false true).map (here ++ ·)

/-- The components of a pattern in their normal form, and whether the pattern was
written for directories. -/
def patternComponents (body : String) : List String × Bool :=
  let segments := Text.split '/' body
  let anchored :=
    match segments with
    | "" :: rest => rest
    | [one] => ["**", one]
    | [one, ""] => ["**", one, ""]
    | _ => segments
  let forDirectories := anchored.getLast? == some ""
  let completed := if forDirectories then anchored.dropLast ++ ["**"] else anchored
  (collapse completed, forDirectories)

/-- Compiles a pattern.  Comments, empty patterns, a single slash and patterns
with an unclosed bracket match nothing. -/
def compile (line : String) : Except PatternError (Option Pattern) :=
  let text := if Text.endsWith line "\\ " then line else Text.stripEnd Text.isBlank line
  if text = "" ∨ Text.startsWith text "#" ∨ text = "/" then .ok none
  else
    let negated := Text.startsWith text "!"
    let body := if negated then Text.drop text 1 else text
    match patternComponents body with
    | ([], _) => .error .invalid
    | (components, forDirectories) =>
      if components = ["**"] then
        .ok (some ⟨negated, if forDirectories then .everythingNested else .everything⟩)
      else if components = ["**", "*"] then .ok (some ⟨negated, .everything⟩)
      else if components = ["**", "*", "**"] then .ok (some ⟨negated, .everythingNested⟩)
      else
        match piecesOf components true false with
        | .ok ps => .ok (some ⟨negated, .pieces ps⟩)
        | .error .unclosedClass => .ok none
        | .error .trailingBackslash => .error .invalid

/-- Compiles each pattern of a list that is not empty. -/
def compileAll (patterns : List String) : Except PatternError (List Pattern) :=
  (patterns.filter (· != "")).foldlM (fun read line => do
    match ← compile line with
    | some p => pure (read ++ [p])
    | none => pure read) []

/-- The path that patterns look at: one slash or point and slash at its start is
left out. -/
def matchedPath (path : String) : String :=
  if Text.startsWith path "/" then Text.drop path 1
  else if Text.startsWith path "./" then Text.drop path 2
  else path

/-- Whether a list of patterns ignores a path: the last one that matches decides. -/
def ignoredBy (patterns : List Pattern) (path : String) : Bool :=
  let path := matchedPath path
  patterns.foldl (fun ignored p => if p.matcher.accepts path then !p.negated else ignored) false

end RouteImpact.Ignore
