import RouteImpact.Json.Value

namespace RouteImpact.Json

open Number (Binary64 ofDigits mostDigits)

/-!
# Reading data values

A reader for the JSON text format.  Beyond the format it takes the words for
infinity and undefined numbers, and integers of any size up to a limit on their
digits; of two fields with one name the later counts.  `fuel` bounds nesting and
length, and `parse` takes it from the text.
-/

/-- Why a text is not a value. -/
inductive ReadError where
  | notJson
  | tooManyDigits
deriving Repr, DecidableEq

/-- Drops blanks. -/
def skipBlank (cs : List Char) : List Char :=
  cs.dropWhile fun c => c == ' ' || c == '\t' || c == '\n' || c == '\r'

/-- The value of a hexadecimal digit. -/
def hexValue? (c : Char) : Option Nat :=
  if '0' ≤ c ∧ c ≤ '9' then some (c.toNat - 48)
  else if 'a' ≤ c ∧ c ≤ 'f' then some (c.toNat - 87)
  else if 'A' ≤ c ∧ c ≤ 'F' then some (c.toNat - 55)
  else none

/-- Reads four hexadecimal digits. -/
def hex4 : List Char → Option (Nat × List Char)
  | a :: b :: c :: d :: rest =>
    match hexValue? a, hexValue? b, hexValue? c, hexValue? d with
    | some a, some b, some c, some d => some (((a * 16 + b) * 16 + c) * 16 + d, rest)
    | _, _, _, _ => none
  | _ => none

/-- Reads the rest of a text after its opening quote; `read` holds the characters
so far in reverse. -/
def stringLoop : Nat → List Char → List Char → Option (String × List Char)
  | 0, _, _ => none
  | fuel + 1, cs, read =>
    match cs with
    | [] => none
    | '"' :: rest => some (String.ofList read.reverse, rest)
    | '\\' :: 'u' :: rest =>
      match hex4 rest with
      | none => none
      | some (n, rest) =>
        if 0xd800 ≤ n ∧ n < 0xdc00 then
          match rest with
          | '\\' :: 'u' :: rest' =>
            match hex4 rest' with
            | some (m, rest'') =>
              if 0xdc00 ≤ m ∧ m < 0xe000 then
                stringLoop fuel rest''
                  (Char.ofNat (0x10000 + (n - 0xd800) * 0x400 + (m - 0xdc00)) :: read)
              else stringLoop fuel rest (Char.ofNat n :: read)
            | none => stringLoop fuel rest (Char.ofNat n :: read)
          | _ => stringLoop fuel rest (Char.ofNat n :: read)
        else stringLoop fuel rest (Char.ofNat n :: read)
    | '\\' :: c :: rest =>
      let escaped : Option Char :=
        match c with
        | '"' => some '"'
        | '\\' => some '\\'
        | '/' => some '/'
        | 'b' => some (Char.ofNat 8)
        | 'f' => some (Char.ofNat 12)
        | 'n' => some '\n'
        | 'r' => some '\r'
        | 't' => some '\t'
        | _ => none
      match escaped with
      | some c => stringLoop fuel rest (c :: read)
      | none => none
    | c :: rest => if c.toNat < 32 then none else stringLoop fuel rest (c :: read)

/-- Whether a character is a decimal digit of the format. -/
def isDigit (c : Char) : Bool := '0' ≤ c && c ≤ '9'

/-- The values of digits. -/
def digitsOf (cs : List Char) : List Nat := cs.map (·.toNat - 48)

/-- Reads the digits of an exponent, if there is one. -/
def exponentPart (cs : List Char) : Option (Int × List Char) :=
  match cs with
  | c :: rest =>
    if c == 'e' || c == 'E' then
      let (minus, rest) := Number.sign rest
      let ds := rest.takeWhile isDigit
      if ds.isEmpty then none
      else
        let n : Int := ofDigits (digitsOf ds)
        some (if minus then -n else n, rest.dropWhile isDigit)
    else none
  | [] => none

/-- The digits before the point: a zero stands alone. -/
def wholePart (cs : List Char) : List Char :=
  match cs with
  | '0' :: _ => ['0']
  | _ => cs.takeWhile isDigit

/-- The digits after the point, if there is one. -/
def fractionPart (cs : List Char) : List Char :=
  match cs with
  | '.' :: more => more.takeWhile isDigit
  | _ => []

/-- What follows the point and the digits after it; a point without digits is not part
of a number. -/
def afterFraction (cs : List Char) : List Char :=
  let fraction := fractionPart cs
  if fraction.isEmpty then cs else cs.drop (fraction.length + 1)

/-- The number that a whole part, a fraction and perhaps an exponent write.  Without a
fraction and an exponent it is an integer. -/
def numberOf (negative : Bool) (whole fraction : List Char) :
    Option Int → Except ReadError Json
  | some e =>
    .ok (.float (Binary64.ofDecimal negative (ofDigits (digitsOf (whole ++ fraction)))
      (e - fraction.length)))
  | none =>
    if fraction.isEmpty then
      if mostDigits < whole.length then .error .tooManyDigits
      else
        let n : Int := ofDigits (digitsOf whole)
        .ok (.int (if negative then -n else n))
    else
      .ok (.float (Binary64.ofDecimal negative (ofDigits (digitsOf (whole ++ fraction)))
        (-(fraction.length : Int))))

/-- Reads a number: a whole part, then optionally a fraction and an exponent. -/
def number (negative : Bool) (cs : List Char) : Except ReadError (Json × List Char) :=
  let whole := wholePart cs
  if whole.isEmpty then .error .notJson
  else
    let rest := cs.drop whole.length
    let fraction := fractionPart rest
    match exponentPart (afterFraction rest) with
    | some (e, left) => (numberOf negative whole fraction (some e)).map (·, left)
    | none => (numberOf negative whole fraction none).map (·, afterFraction rest)

/-- Reads a word that stands for a value. -/
def word? (cs : List Char) : Option (Json × List Char) :=
  let words : List (String × Json) :=
    [("null", .null), ("true", .bool true), ("false", .bool false), ("NaN", .float .undefined),
     ("Infinity", .float (.infinite false)), ("-Infinity", .float (.infinite true))]
  match words.find? (fun w => w.1.toList.isPrefixOf cs) with
  | some (w, v) => some (v, cs.drop w.length)
  | none => none

mutual

/-- Reads one value that starts at the first character. -/
def value : Nat → List Char → Except ReadError (Json × List Char)
  | 0, _ => .error .notJson
  | fuel + 1, cs =>
    match cs with
    | '"' :: rest =>
      match stringLoop (rest.length + 1) rest [] with
      | some (s, rest) => .ok (.text s, rest)
      | none => .error .notJson
    | '[' :: rest =>
      match skipBlank rest with
      | ']' :: rest => .ok (.list [], rest)
      | rest => items fuel rest []
    | '\x7b' :: rest =>
      match skipBlank rest with
      | '\x7d' :: rest => .ok (.record [], rest)
      | rest => fields fuel rest []
    | _ =>
      match word? cs with
      | some found => .ok found
      | none =>
        match cs with
        | '-' :: rest => number true rest
        | _ => number false cs

/-- Reads the items of a list up to its closing bracket. -/
def items : Nat → List Char → List Json → Except ReadError (Json × List Char)
  | 0, _, _ => .error .notJson
  | fuel + 1, cs, read =>
    match value fuel cs with
    | .error e => .error e
    | .ok (v, rest) =>
      match skipBlank rest with
      | ']' :: rest => .ok (.list (v :: read).reverse, rest)
      | ',' :: rest => items fuel (skipBlank rest) (v :: read)
      | _ => .error .notJson

/-- Reads the fields of a record up to its closing brace. -/
def fields : Nat → List Char → List (String × Json) → Except ReadError (Json × List Char)
  | 0, _, _ => .error .notJson
  | fuel + 1, cs, read =>
    match cs with
    | '"' :: rest =>
      match stringLoop (rest.length + 1) rest [] with
      | none => .error .notJson
      | some (name, rest) =>
        match skipBlank rest with
        | ':' :: rest =>
          match value fuel (skipBlank rest) with
          | .error e => .error e
          | .ok (v, rest) =>
            let read := setField name v read
            match skipBlank rest with
            | '\x7d' :: rest => .ok (.record read, rest)
            | ',' :: rest => fields fuel (skipBlank rest) read
            | _ => .error .notJson
        | _ => .error .notJson
    | _ => .error .notJson

end

/-- Reads a text that holds one value and nothing else. -/
def parse (s : String) : Except ReadError Json :=
  let cs := skipBlank s.toList
  match value (2 * cs.length + 2) cs with
  | .error e => .error e
  | .ok (v, rest) => if (skipBlank rest).isEmpty then .ok v else .error .notJson

end RouteImpact.Json
