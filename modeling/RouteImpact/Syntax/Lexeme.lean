namespace RouteImpact.Syntax

/-!
# Lexemes

The character-level shapes of the source language: blanks and comments between
tokens (`Gap`), and the tokens that are more than a fixed spelling (`Lexeme`).
A scanner looks at the source from one position on and gives the position where
the token ends, or nothing when the token does not start there.  Which scanner
is tried is decided by the grammar, so a slash can open a regular expression in
one place and divide in another.
-/

/-- A source text, read by position. -/
abbrev Source := Array Char

/-- The first position from `i` on whose character fails `p`. -/
def skipWhile (p : Char → Bool) (s : Source) (i : Nat) : Nat :=
  if h : i < s.size then
    if p s[i] then skipWhile p s (i + 1) else i
  else i
termination_by s.size - i

/-- Whether the characters `cs` stand in `s` at position `i`. -/
def standsAt (s : Source) : List Char → Nat → Bool
  | [], _ => true
  | c :: cs, i => s[i]? == some c && standsAt s cs (i + 1)

/-- The first position from `i` on where the characters `cs` stand. -/
def find? (cs : List Char) (s : Source) (i : Nat) : Option Nat :=
  if i < s.size then
    if standsAt s cs i then some i else find? cs s (i + 1)
  else none
termination_by s.size - i

/-- Line and paragraph separators end a line as a line feed does. -/
def isLineEnd (c : Char) : Bool :=
  c == '\n' || c == '\r' || c == '\u2028' || c == '\u2029'

/-- Blank space between tokens, byte order mark and joiners included. -/
def isGapChar (c : Char) : Bool :=
  let n := c.toNat
  (9 ≤ n && n ≤ 13) || n == 32 || n == 0x85 || n == 0xa0 || n == 0x1680 ||
    (0x2000 ≤ n && n ≤ 0x200b) || n == 0x2028 || n == 0x2029 || n == 0x202f ||
    n == 0x205f || n == 0x2060 || n == 0x3000 || n == 0xfeff

def isDigit (c : Char) : Bool := '0' ≤ c && c ≤ '9'

def isHexDigit (c : Char) : Bool :=
  isDigit c || ('a' ≤ c && c ≤ 'f') || ('A' ≤ c && c ≤ 'F')

/-- A name may start with any character that is not blank, a control character,
a digit or one of the characters the language gives a meaning of its own. -/
def isNameStart (c : Char) : Bool :=
  if c.toNat < 128 then
    c.isAlpha || c == '$' || c == '_'
  else !isGapChar c

def isNameChar (c : Char) : Bool := isNameStart c || isDigit c

/-- What lies between two tokens: the comments, as pairs of positions, and
whether a line break stands outside the block comments. -/
structure Gap where
  stop : Nat
  comments : List (Nat × Nat)
  newline : Bool

/-- Reads a gap; `fuel` bounds the number of blanks and comments.  A block
comment that never closes is no part of a gap. -/
def gapLoop (s : Source) : Nat → Nat → List (Nat × Nat) → Bool → Gap
  | 0, i, comments, newline => ⟨i, comments.reverse, newline⟩
  | fuel + 1, i, comments, newline =>
    match s[i]? with
    | none => ⟨i, comments.reverse, newline⟩
    | some c =>
      if isGapChar c then gapLoop s fuel (i + 1) comments (newline || isLineEnd c)
      else if c == '/' then
        match s[i + 1]? with
        | some '/' =>
          let j := skipWhile (!isLineEnd ·) s (i + 2)
          gapLoop s fuel j ((i, j) :: comments) newline
        | some '*' =>
          match find? ['*', '/'] s (i + 2) with
          | some j => gapLoop s fuel (j + 2) ((i, j + 2) :: comments) newline
          | none => ⟨i, comments.reverse, newline⟩
        | _ => ⟨i, comments.reverse, newline⟩
      else ⟨i, comments.reverse, newline⟩

/-- The gap that starts at position `i`. -/
def gapAt (s : Source) (i : Nat) : Gap :=
  gapLoop s (s.size - i + 1) i [] false

/-- The tokens whose spelling is not fixed. -/
inductive Lexeme where
  /-- A fixed word as a token of its own. -/
  | word (spelling : List Char)
  /-- A name that is not a reserved word. -/
  | name
  /-- Any name, reserved words included, as after a dot. -/
  | anyName
  /-- A name with dashes, as tags and attributes may have. -/
  | tagName
  /-- A private member name, written with a hash sign. -/
  | privateName
  | number
  /-- Plain characters of a string that closes with the given quote. -/
  | stringChars (quote : Char)
  /-- Plain characters of an attribute string that closes with the given quote. -/
  | attributeChars (quote : Char)
  /-- Plain characters of a template. -/
  | templateChars
  | escape
  /-- A character reference such as an ampersand written by name. -/
  | reference
  | pattern
  | flags
  /-- Text between markup tags. -/
  | markupText
  | hashbang
  /-- What is left of a line that cannot be read. -/
  | restOfLine
deriving Repr

/-- Words that never name a variable. -/
def reservedWords : List String :=
  ["await", "break", "case", "catch", "class", "const", "continue", "debugger", "default",
   "delete", "do", "else", "export", "extends", "false", "finally", "for", "function", "if",
   "import", "in", "instanceof", "new", "null", "return", "super", "switch", "this", "throw",
   "true", "try", "typeof", "undefined", "var", "void", "while", "with", "yield"]

/-- The characters of `s` from `i` to before `j`, as text. -/
def slice (s : Source) (i j : Nat) : String :=
  (s.extract i j).foldl String.push ""

/-- The end of a name that starts at `i`. -/
def scanName (s : Source) (i : Nat) : Option Nat :=
  match s[i]? with
  | some c => if isNameStart c then some (skipWhile isNameChar s (i + 1)) else none
  | none => none

/-- Digits of a class with single underscores between them. -/
def scanDigits (p : Char → Bool) (s : Source) : Nat → Nat → Option Nat
  | 0, _ => none
  | fuel + 1, i =>
    match s[i]? with
    | some c =>
      if p c then
        let j := skipWhile p s i
        if s[j]? == some '_' then (scanDigits p s fuel (j + 1)).or (some j) else some j
      else none
    | none => none

private def isBinaryDigit (c : Char) : Bool := c == '0' || c == '1'

private def isOctalDigit (c : Char) : Bool := '0' ≤ c && c ≤ '7'

/-- The end of an exponent that starts at `i`, or `i` itself. -/
private def scanExponent (s : Source) (i : Nat) : Nat :=
  match s[i]? with
  | some c =>
    if c == 'e' || c == 'E' then
      let j := if s[i + 1]? == some '-' || s[i + 1]? == some '+' then i + 2 else i + 1
      (scanDigits isDigit s (s.size + 1) j).getD i
    else i
  | none => i

private def scanBigSuffix (s : Source) (i : Nat) : Nat :=
  if s[i]? == some 'n' then i + 1 else i

/-- A number: decimal with optional fraction and exponent, or hexadecimal, octal
or binary digits after a zero and a letter; an `n` marks a big integer. -/
def scanNumber (s : Source) (i : Nat) : Option Nat :=
  let digits p j := scanDigits p s (s.size + 1) j
  match s[i]?, s[i + 1]? with
  | some '.', _ => (digits isDigit (i + 1)).map (scanExponent s)
  | some '0', some x =>
    if x == 'x' || x == 'X' then (digits isHexDigit (i + 2)).map (scanBigSuffix s)
    else if x == 'o' || x == 'O' then (digits isOctalDigit (i + 2)).map (scanBigSuffix s)
    else if x == 'b' || x == 'B' then (digits isBinaryDigit (i + 2)).map (scanBigSuffix s)
    else decimal digits
  | some _, _ => decimal digits
  | none, _ => none
where
  /-- A decimal number that starts with a digit. -/
  decimal (digits : (Char → Bool) → Nat → Option Nat) : Option Nat :=
    match digits isDigit i with
    | none => none
    | some j =>
      if s[j]? == some 'n' then some (j + 1)
      else if s[j]? == some '.' then
        some (scanExponent s ((digits isDigit (j + 1)).getD (j + 1)))
      else some (scanExponent s j)

/-- At least one character that satisfies `p`. -/
def scanSome (p : Char → Bool) (s : Source) (i : Nat) : Option Nat :=
  let j := skipWhile p s i
  if i < j then some j else none

/-- An escape sequence, backslash included. -/
def scanEscape (s : Source) (i : Nat) : Option Nat :=
  if s[i]? != some '\\' then none else
  match s[i + 1]? with
  | none => none
  | some 'x' => hex 2 (i + 2)
  | some 'u' =>
    if s[i + 2]? == some '\x7b' then
      let j := skipWhile isHexDigit s (i + 3)
      if i + 3 < j && s[j]? == some '\x7d' then some (j + 1) else none
    else hex 4 (i + 2)
  | some '\r' => some (if s[i + 2]? == some '\n' then i + 3 else i + 2)
  | some c =>
    if isOctalDigit c then
      let j := skipWhile isOctalDigit s (i + 1)
      some (min j (i + 4))
    else some (i + 2)
where
  /-- Exactly `n` hexadecimal digits. -/
  hex : Nat → Nat → Option Nat
  | 0, j => some j
  | n + 1, j =>
    match s[j]? with
    | some c => if isHexDigit c then hex n (j + 1) else none
    | none => none

/-- A character reference: a name or a decimal or hexadecimal number between an
ampersand and a semicolon. -/
def scanReference (s : Source) (i : Nat) : Option Nat :=
  if s[i]? != some '&' then none else
  let close (lo : Nat) (most : Nat) (j : Nat) : Option Nat :=
    if lo < j && j ≤ lo + most && s[j]? == some ';' then some (j + 1) else none
  if s[i + 1]? == some '#' then
    if s[i + 2]? == some 'x' || s[i + 2]? == some 'X' then
      close (i + 3) 6 (skipWhile isHexDigit s (i + 3))
    else close (i + 2) 5 (skipWhile isDigit s (i + 2))
  else close (i + 1) 30 (skipWhile Char.isAlpha s (i + 1))

/-- The plain characters of an attribute string: an ampersand is plain unless it
is followed by a letter or a hash sign. -/
def scanAttributeChars (quote : Char) (s : Source) : Nat → Nat → Nat
  | 0, i => i
  | fuel + 1, i =>
    match s[i]? with
    | none => i
    | some c =>
      if c == quote then i
      else if c == '&' then
        match s[i + 1]? with
        | none => i
        | some d => if d == '#' || d.isAlpha then i else scanAttributeChars quote s fuel (i + 2)
      else scanAttributeChars quote s fuel (i + 1)

/-- The plain characters of a template: a dollar sign is plain unless it opens a
substitution. -/
def scanTemplateChars (s : Source) : Nat → Nat → Nat
  | 0, i => i
  | fuel + 1, i =>
    match s[i]? with
    | none => i
    | some c =>
      if c == '\x60' || c == '\\' then i
      else if c == '$' && s[i + 1]? == some '\x7b' then i
      else scanTemplateChars s fuel (i + 1)

/-- The body of a regular expression: a slash inside brackets does not end it. -/
def scanPattern (s : Source) : Nat → Nat → Bool → Option Nat
  | 0, _, _ => none
  | fuel + 1, i, bracket =>
    match s[i]? with
    | none => none
    | some c =>
      if isLineEnd c then none
      else if c == '\\' then scanPattern s fuel (i + 2) bracket
      else if bracket then scanPattern s fuel (i + 1) (c != ']')
      else if c == '/' then some i
      else scanPattern s fuel (i + 1) (c == '[')

/-- Text between tags counts as text when it holds anything but line breaks and
the indentation after them. -/
def scanMarkupText (s : Source) : Nat → Nat → Bool → Bool → Nat × Bool
  | 0, i, seen, _ => (i, seen)
  | fuel + 1, i, seen, atBreak =>
    match s[i]? with
    | none => (i, seen)
    | some c =>
      if c == '<' || c == '>' || c == '\x7b' || c == '\x7d' || c == '&' then (i, seen)
      else if c == '\n' then scanMarkupText s fuel (i + 1) seen true
      else
        let atBreak := atBreak && isGapChar c
        scanMarkupText s fuel (i + 1) (seen || !atBreak) atBreak

/-- The end of the lexeme that starts exactly at `i`. -/
def Lexeme.scan (s : Source) (i : Nat) : Lexeme → Option Nat
  | .word spelling =>
    let j := i + spelling.length
    if standsAt s spelling i && !(s[j]?.any isNameChar) then some j else none
  | .name =>
    match scanName s i with
    | some j => if reservedWords.contains (slice s i j) then none else some j
    | none => none
  | .anyName => scanName s i
  | .tagName =>
    match s[i]? with
    | some c =>
      if isNameStart c then
        let j := skipWhile (fun c => isNameChar c || c == '-') s (i + 1)
        some j
      else none
    | none => none
  | .privateName => if s[i]? == some '#' then scanName s (i + 1) else none
  | .number => scanNumber s i
  | .stringChars quote =>
    scanSome (fun c => c != quote && c != '\\' && c != '\r' && c != '\n') s i
  | .attributeChars quote =>
    let j := scanAttributeChars quote s (s.size + 1) i
    if i < j then some j else none
  | .templateChars =>
    let j := scanTemplateChars s (s.size + 1) i
    if i < j then some j else none
  | .escape => scanEscape s i
  | .reference => scanReference s i
  | .pattern =>
    match scanPattern s (s.size + 1) i false with
    | some j => if i < j then some j else none
    | none => none
  | .flags => scanSome (fun c => 'a' ≤ c && c ≤ 'z') s i
  | .markupText =>
    let (j, seen) := scanMarkupText s (s.size + 1) i false false
    if seen then some j else none
  | .hashbang =>
    if standsAt s ['#', '!'] i then some (skipWhile (!isLineEnd ·) s i) else none
  | .restOfLine =>
    if i < s.size then
      let j := skipWhile (fun c => c != '\n' && c != ';') s i
      some (min (j + 1) s.size)
    else none

end RouteImpact.Syntax
