import RouteImpact.Number.Integer

namespace RouteImpact.Number

/-!
# Binary floating point

Numbers with 53 binary digits, as exact data: a sign, a mantissa and a power of
two.  Reading a decimal rounds it to the nearest such number, ties to the even
mantissa; writing one gives the fewest decimal digits that read back as it.  Both
work on natural numbers only.
-/

/-- A binary floating-point number.  `finite` stands for `mantissa * 2 ^ exponent`
and its sign, with the mantissa below `2 ^ 53` and the exponent at least
`-1074`. -/
inductive Binary64 where
  | finite (negative : Bool) (mantissa : Nat) (exponent : Int)
  | infinite (negative : Bool)
  | undefined
deriving Repr, DecidableEq, Inhabited

namespace Binary64

def zero : Binary64 := .finite false 0 (-1074)

/-- The quotient `num / den` rounded to the nearest integer, ties to even. -/
def roundQuotient (num den : Nat) : Nat :=
  let q := num / den
  let twice := 2 * (num % den)
  if den < twice || (den == twice && q % 2 == 1) then q + 1 else q

/-- The numerator and denominator of `num / den / 2 ^ e`. -/
def scaled (num den : Nat) (e : Int) : Nat × Nat :=
  if 0 ≤ e then (num, den * Nat.pow 2 e.toNat) else (num * Nat.pow 2 (-e).toNat, den)

/-- The number nearest to `num / den`. -/
def ofRatio (negative : Bool) (num den : Nat) : Binary64 :=
  if num = 0 ∨ den = 0 then .finite negative 0 (-1074)
  else
    let guess : Int := (Nat.log2 num : Int) - (Nat.log2 den : Int) - 52
    let fits (e : Int) : Bool := let (a, b) := scaled num den e; a / b < Nat.pow 2 53
    let e := if fits (guess - 1) then guess - 1 else if fits guess then guess else guess + 1
    let e := max e (-1074)
    let (a, b) := scaled num den e
    let m := roundQuotient a b
    let (m, e) := if m = Nat.pow 2 53 then (Nat.pow 2 52, e + 1) else (m, e)
    if 971 < e then .infinite negative else .finite negative m e

/-- The number nearest to `digits * 10 ^ exponent`. -/
def ofDecimal (negative : Bool) (digits : Nat) (exponent : Int) : Binary64 :=
  if digits = 0 then .finite negative 0 (-1074)
  else
    let size : Int := (Nat.toDigits 10 digits).length + exponent
    if 310 < size then .infinite negative
    else if size < -330 then .finite negative 0 (-1074)
    else if 0 ≤ exponent then ofRatio negative (digits * Nat.pow 10 exponent.toNat) 1
    else ofRatio negative digits (Nat.pow 10 (-exponent).toNat)

/-- The number nearest to an integer; nothing when it is out of range. -/
def ofInt? (n : Int) : Option Binary64 :=
  match ofRatio (n < 0) n.natAbs 1 with
  | .infinite _ => none
  | x => some x

/-- The integer part; nothing for a number that has none. -/
def truncate? : Binary64 → Option Int
  | .finite negative m e =>
    let n : Nat := if 0 ≤ e then m * Nat.pow 2 e.toNat else m / Nat.pow 2 (-e).toNat
    some (if negative then -(n : Int) else n)
  | _ => none

/-- A number of seconds in whole milliseconds; a number that is not finite has
none. -/
def milliseconds (x : Binary64) : Int :=
  match x with
  | .finite negative m e =>
    let (num, den) := scaled (1000 * m) 1 (-e)
    ((ofRatio negative num den).truncate?).getD 0
  | _ => 0

/-- The decimal digits of `n` with at least `width` of them. -/
def paddedDigits (width n : Nat) : String :=
  let digits := Nat.toDigits 10 n
  String.ofList (List.replicate (width - digits.length) '0' ++ digits)

/-- A finite number with a fixed count of decimal places, ties to even. -/
def fixed (places : Nat) (x : Binary64) : String :=
  match x with
  | .finite negative m e =>
    let (num, den) := scaled (Nat.pow 10 places * m) 1 (-e)
    let n := roundQuotient num den
    let whole := (if negative then "-" else "") ++ toString (n / Nat.pow 10 places)
    if places = 0 then whole else whole ++ "." ++ paddedDigits places (n % Nat.pow 10 places)
  | .infinite negative => if negative then "-inf" else "inf"
  | .undefined => "nan"

def isZero : Binary64 → Bool
  | .finite _ m _ => m == 0
  | _ => false

/-! ### Shortest decimal -/

/-- `a / b ≤ c / d`, for positive denominators. -/
def ratioLe (a b c d : Nat) : Bool := a * d ≤ c * b

/-- The numerator and denominator of `n * 10 ^ p`. -/
def tenfold (n : Nat) (p : Int) : Nat × Nat :=
  if 0 ≤ p then (n * Nat.pow 10 p.toNat, 1) else (n, Nat.pow 10 (-p).toNat)

/-- The largest `k` from `start` on with `10 ^ k ≤ num / den`, within `fuel` steps. -/
def decimalSize (num den : Nat) : Nat → Int → Int
  | 0, k => k
  | fuel + 1, k =>
    let (a, b) := tenfold 1 (k + 1)
    if ratioLe a b num den then decimalSize num den fuel (k + 1) else k

/-- Whether `n * 10 ^ p` reads back as `m * 2 ^ e`: it lies within half a step of
it, ends included when the mantissa is even. -/
def readsBack (m : Nat) (e : Int) (n : Nat) (p : Int) : Bool :=
  let (a, b) := tenfold n p
  -- four times the value, and the middles to its neighbours
  let (hiNum, hiDen) := scaled (4 * m + 2) 4 (-e)
  let low := if m = Nat.pow 2 52 ∧ -1074 < e then 4 * m - 1 else 4 * m - 2
  let (loNum, loDen) := scaled low 4 (-e)
  let above := ratioLe loNum loDen a b && (m % 2 == 0 || !ratioLe a b loNum loDen)
  let below := ratioLe a b hiNum hiDen && (m % 2 == 0 || !ratioLe hiNum hiDen a b)
  above && below

/-- The shortest decimal `(digits, exponent)` of `m * 2 ^ e` from `count` digits
on: on each grid the nearer of the value's two neighbours that reads back. -/
def shortestLoop (m : Nat) (e : Int) (num den : Nat) (size : Int) : Nat → Nat → Nat × Int
  | 0, _ => (0, 0)
  | fuel + 1, count =>
    let p := size - (count : Int) + 1
    let (a, b) :=
      if 0 ≤ p then (num, den * Nat.pow 10 p.toNat) else (num * Nat.pow 10 (-p).toNat, den)
    let lo := a / b
    let nearLow := 2 * (a % b) ≤ b
    let okLow := readsBack m e lo p
    let okHigh := readsBack m e (lo + 1) p
    if okLow && (nearLow || !okHigh) then (lo, p)
    else if okHigh then (lo + 1, p)
    else shortestLoop m e num den size fuel (count + 1)

/-- The shortest decimal that reads back as a positive number. -/
def shortest (m : Nat) (e : Int) : Nat × Int :=
  let (num, den) := scaled m 1 (-e)
  let start : Int := ((Nat.log2 num : Int) - (Nat.log2 den : Int) - 1) * 30103 / 100000 - 1
  let size := decimalSize num den 5 start
  shortestLoop m e num den size 18 1

/-- The digits of a number without zeros at the end, and how many zeros there
were. -/
def trimZeros : List Char → List Char × Nat
  | cs =>
    let kept := Text.dropEndWhile (· == '0') cs
    (kept, cs.length - kept.length)

/-- Finite numbers are written positionally from `0.0001` up to below `10 ^ 16`,
always with a point, and with a power of ten otherwise. -/
def render : Binary64 → String
  | .undefined => "nan"
  | .infinite negative => if negative then "-inf" else "inf"
  | .finite negative m e =>
    let minus := if negative then "-" else ""
    if m = 0 then minus ++ "0.0"
    else
      let (n, p) := shortest m e
      let (digits, zeros) := trimZeros (Nat.toDigits 10 n)
      let p := p + zeros
      let size : Int := digits.length + p - 1
      let text :=
        if -4 ≤ size ∧ size < 16 then
          if 0 ≤ p then digits ++ List.replicate p.toNat '0' ++ ['.', '0']
          else if 0 ≤ size then
            digits.take (size.toNat + 1) ++ ['.'] ++ digits.drop (size.toNat + 1)
          else ['0', '.'] ++ List.replicate (-size - 1).toNat '0' ++ digits
        else
          let head := digits.take 1
          let rest := digits.drop 1
          let power := Nat.toDigits 10 size.natAbs
          let power := if power.length < 2 then '0' :: power else power
          head ++ (if rest.isEmpty then [] else '.' :: rest) ++
            ['e', if size < 0 then '-' else '+'] ++ power
      minus ++ String.ofList text

/-! ### Reading -/

private def lowerAscii (cs : List Char) : List Char := cs.map Char.toLower

/-- Reads digits, a point, digits and an exponent; each run of digits may hold
single underscores. -/
def decimal? (negative : Bool) (cs : List Char) : Option Binary64 :=
  let (mantissa, rest) := cs.span fun c => c != 'e' && c != 'E'
  let exponent : Option Int :=
    match rest with
    | [] => some 0
    | _ :: cs =>
      let (minus, cs) := sign cs
      (digits? cs).map fun ds => if minus then -(ofDigits ds : Int) else ofDigits ds
  let (whole, point) := mantissa.span (· != '.')
  let part (cs : List Char) : Option (List Nat) := if cs.isEmpty then some [] else digits? cs
  match exponent, part whole, part (point.drop 1) with
  | some e, some ws, some fs =>
    if ws.isEmpty && fs.isEmpty then none
    else some (ofDecimal negative (ofDigits (ws ++ fs)) (e - fs.length))
  | _, _, _ => none

/-- Reads a number: a decimal, or a word for infinity or an undefined number. -/
def ofText? (s : String) : Option Binary64 :=
  let (negative, cs) := sign (Text.strip s).toList
  let word := lowerAscii cs
  if word == "inf".toList || word == "infinity".toList then some (.infinite negative)
  else if word == "nan".toList then some .undefined
  else decimal? negative cs

end Binary64

end RouteImpact.Number
