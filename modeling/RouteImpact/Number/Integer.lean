import RouteImpact.Text.Basic
import RouteImpact.Text.Digit

namespace RouteImpact.Number

/-!
# Integers as they are written

An integer is a sign and digits of any script, with single underscores between
digits and blank space around them.
-/

/-- More digits than this are not read as an integer. -/
def mostDigits : Nat := 4300

/-- Reads digits with single underscores between them; `afterDigit` tells whether
an underscore or the end may come next. -/
def digitsLoop : List Char → Bool → List Nat → Option (List Nat)
  | [], afterDigit, digits => if afterDigit then some digits.reverse else none
  | c :: cs, afterDigit, digits =>
    if c = '_' then
      if afterDigit then digitsLoop cs false digits else none
    else
      match Text.digitValue? c with
      | some d => digitsLoop cs true (d :: digits)
      | none => none

/-- The digits of a run of digits and single underscores. -/
def digits? (cs : List Char) : Option (List Nat) := digitsLoop cs false []

/-- The number that digits write in base ten. -/
def ofDigits (digits : List Nat) : Nat := digits.foldl (10 * · + ·) 0

/-- Splits off a sign; the flag tells whether it is a minus. -/
def sign : List Char → Bool × List Char
  | '-' :: cs => (true, cs)
  | '+' :: cs => (false, cs)
  | cs => (false, cs)

/-- Reads an integer. -/
def integer? (s : String) : Option Int :=
  let (negative, cs) := sign (Text.strip s).toList
  match digits? cs with
  | none => none
  | some digits =>
    if mostDigits < digits.length then none
    else
      let n : Int := ofDigits digits
      some (if negative then -n else n)

end RouteImpact.Number
