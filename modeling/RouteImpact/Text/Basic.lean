namespace RouteImpact.Text

/-!
# Cutting text

Splitting, stripping and searching, as functions on the characters of a text.
Blank space is blank in the sense of every script, and lines end at every
character that ends a line.
-/

/-- Blank characters, separators of files, groups and records included. -/
def isBlank (c : Char) : Bool :=
  let n := c.toNat
  (9 ≤ n && n ≤ 13) || (28 ≤ n && n ≤ 32) || n == 0x85 || n == 0xa0 || n == 0x1680 ||
    (0x2000 ≤ n && n ≤ 0x200a) || n == 0x2028 || n == 0x2029 || n == 0x202f || n == 0x205f ||
    n == 0x3000

/-- Characters without the ones at the end that satisfy `p`. -/
def dropEndWhile (p : Char → Bool) (cs : List Char) : List Char :=
  (cs.reverse.dropWhile p).reverse

/-- A text without the characters at its end that satisfy `p`. -/
def stripEnd (p : Char → Bool) (s : String) : String :=
  String.ofList (dropEndWhile p s.toList)

/-- A text without the characters at both ends that satisfy `p`. -/
def stripBoth (p : Char → Bool) (s : String) : String :=
  String.ofList (dropEndWhile p (s.toList.dropWhile p))

/-- A text without blank space at its ends. -/
def strip (s : String) : String := stripBoth isBlank s

/-- The pieces of a list between the elements equal to `sep`; there is always at
least one piece. -/
def splitList (sep : Char) : List Char → List (List Char)
  | [] => [[]]
  | c :: cs =>
    if c = sep then [] :: splitList sep cs
    else
      match splitList sep cs with
      | piece :: rest => (c :: piece) :: rest
      | [] => [[c]]

/-- The pieces of a text between the characters `sep`. -/
def split (sep : Char) (s : String) : List String :=
  (splitList sep s.toList).map String.ofList

/-- A text joined from pieces, with `sep` between them. -/
def join (sep : String) (pieces : List String) : String := sep.intercalate pieces

/-- The text before and after the first `sep`, if there is one. -/
def cut? (sep : Char) (s : String) : Option (String × String) :=
  match s.toList.span (· != sep) with
  | (before, _ :: after) => some (String.ofList before, String.ofList after)
  | (_, []) => none

/-- The text before the first `sep`, or all of it. -/
def before (sep : Char) (s : String) : String :=
  String.ofList (s.toList.takeWhile (· != sep))

/-- Whether `s` starts with `start`. -/
def startsWith (s start : String) : Bool := start.toList.isPrefixOf s.toList

/-- Whether `s` ends with `ending`. -/
def endsWith (s ending : String) : Bool := ending.toList.isSuffixOf s.toList

/-- The text without its first `n` characters. -/
def drop (s : String) (n : Nat) : String := String.ofList (s.toList.drop n)

/-- The text without its last `n` characters. -/
def dropEnd (s : String) (n : Nat) : String :=
  String.ofList (s.toList.take (s.length - n))

/-- Whether the characters `cs` stand somewhere in the text. -/
def containsList (cs : List Char) : List Char → Bool
  | [] => cs.isEmpty
  | c :: rest => cs.isPrefixOf (c :: rest) || containsList cs rest

/-- Whether `part` stands somewhere in `s`. -/
def contains (s part : String) : Bool := containsList part.toList s.toList

/-- Whether a character ends a line; a carriage return and a line feed end one
line together. -/
def endsLine (c : Char) : Bool :=
  let n := c.toNat
  (10 ≤ n && n ≤ 13) || (28 ≤ n && n ≤ 30) || n == 0x85 || n == 0x2028 || n == 0x2029

/-- Reads lines, given the line read so far in reverse. -/
def linesLoop : List Char → List Char → List String
  | [], [] => []
  | [], line => [String.ofList line.reverse]
  | '\r' :: '\n' :: cs, line => String.ofList line.reverse :: linesLoop cs []
  | c :: cs, line =>
    if endsLine c then String.ofList line.reverse :: linesLoop cs []
    else linesLoop cs (c :: line)

/-- The lines of a text; an end of line at the end of the text opens no line. -/
def lines (s : String) : List String := linesLoop s.toList []

/-- Turns every end of line into a line feed, given what has been read so far in
reverse. -/
def lineFeedsLoop : List Char → List Char → List Char
  | [], read => read.reverse
  | '\r' :: '\n' :: cs, read => lineFeedsLoop cs ('\n' :: read)
  | c :: cs, read => lineFeedsLoop cs ((if c = '\r' then '\n' else c) :: read)

/-- A text whose lines all end in a line feed. -/
def lineFeeds (s : String) : String := String.ofList (lineFeedsLoop s.toList [])

/-- The order of texts by code point. -/
def le (a b : String) : Bool := !(b < a)

/-- Sorts texts by code point. -/
def sort (xs : List String) : List String := xs.mergeSort le

/-- The elements of a list at their first occurrence. -/
def distinct : List String → List String
  | [] => []
  | x :: xs => x :: (distinct xs).filter (· != x)

/-- Sorts texts by code point and drops repetitions. -/
def sortedSet (xs : List String) : List String := distinct (sort xs)

end RouteImpact.Text
