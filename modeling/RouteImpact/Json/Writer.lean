import RouteImpact.Json.Value

namespace RouteImpact.Json

open Number (Binary64)

/-!
# Writing data values

The compact form, without blanks, and the form for people, with one item a line
and sorted fields.  Both hold printable ASCII characters only: every other
character is written by its UTF-16 units in hexadecimal.
-/

/-- Four hexadecimal digits in lower case after an escape. -/
def unit (n : Nat) : List Char := '\\' :: 'u' :: Text.hexDigits 4 n

/-- A character as it stands between the quotes of a text. -/
def escapedChar (c : Char) : List Char :=
  let n := c.toNat
  if c = '"' then ['\\', '"']
  else if c = '\\' then ['\\', '\\']
  else if c = '\n' then ['\\', 'n']
  else if c = '\r' then ['\\', 'r']
  else if c = '\t' then ['\\', 't']
  else if n = 8 then ['\\', 'b']
  else if n = 12 then ['\\', 'f']
  else if 32 ≤ n ∧ n < 127 then [c]
  else if n < 0x10000 then unit n
  else unit (0xd800 + (n - 0x10000) / 0x400) ++ unit (0xdc00 + (n - 0x10000) % 0x400)

/-- A text between quotes. -/
def textLiteral (s : String) : String :=
  String.ofList ('"' :: s.toList.flatMap escapedChar ++ ['"'])

/-- A floating-point number as it is written. -/
def floatLiteral : Binary64 → String
  | .undefined => "NaN"
  | .infinite negative => if negative then "-Infinity" else "Infinity"
  | x => x.render

mutual

/-- The compact form of a value. -/
def compact : Json → String
  | .null => "null"
  | .bool b => if b then "true" else "false"
  | .int n => toString n
  | .float x => floatLiteral x
  | .text s => textLiteral s
  | .list xs => "[" ++ ",".intercalate (compactItems xs) ++ "]"
  | .record fs => "\x7b" ++ ",".intercalate (compactFields fs) ++ "\x7d"

/-- The compact form of each value of a list. -/
def compactItems : List Json → List String
  | [] => []
  | x :: xs => compact x :: compactItems xs

/-- The compact form of each field of a record. -/
def compactFields : List (String × Json) → List String
  | [] => []
  | (name, x) :: rest => (textLiteral name ++ ":" ++ compact x) :: compactFields rest

end

/-- A line break and the indentation of a level. -/
def newline (level : Nat) : String :=
  "\n" ++ String.ofList (List.replicate (2 * level) ' ')

/-- Items between brackets, one a line. -/
def stacked (level : Nat) (opening closing : String) (items : List String) : String :=
  if items.isEmpty then opening ++ closing
  else
    opening ++ newline (level + 1) ++ ("," ++ newline (level + 1)).intercalate items ++
      newline level ++ closing

/-- Sorts fields by name. -/
def sortFields (fs : List (String × String)) : List (String × String) :=
  fs.mergeSort fun a b => Text.le a.1 b.1

mutual

/-- The form for people, at a level of indentation. -/
def indented (level : Nat) : Json → String
  | .list xs => stacked level "[" "]" (indentedItems (level + 1) xs)
  | .record fs =>
    stacked level "\x7b" "\x7d" ((sortFields (indentedFields (level + 1) fs)).map fun (name, v) =>
      textLiteral name ++ ": " ++ v)
  | .null => "null"
  | .bool b => if b then "true" else "false"
  | .int n => toString n
  | .float x => floatLiteral x
  | .text s => textLiteral s

/-- The form for people of each value of a list. -/
def indentedItems (level : Nat) : List Json → List String
  | [] => []
  | x :: xs => indented level x :: indentedItems level xs

/-- The name and the form for people of each field of a record. -/
def indentedFields (level : Nat) : List (String × Json) → List (String × String)
  | [] => []
  | (name, x) :: rest => (name, indented level x) :: indentedFields level rest

end

/-- The form for people: one item a line, two blanks a level, sorted fields. -/
def pretty (v : Json) : String := indented 0 v

end RouteImpact.Json
