import RouteImpact.Json.Reader
import RouteImpact.Json.Writer

namespace RouteImpact.Json

/-!
# Texts read back

A text literal holds ASCII characters only: quotes, backslashes and control characters
are escaped, and every other character is written by its UTF-16 units.

* `hex4_hexDigits` — four hexadecimal digits read back as the unit they were written for;
* `stringLoop_escapedChar` — one turn of the reader takes in exactly what one character
  was written as, a surrogate pair included;
* `stringLoop_flatMap_escapedChar` — hence a whole text reads back, whatever follows its
  closing quote.
-/

/-! ### Hexadecimal digits -/

theorem hexValue?_digitChar : ∀ d < 16, hexValue? (Nat.digitChar d) = some d := by
  decide

/-- The last digit stands for the remainder, and the digits before it for the quotient. -/
theorem hexDigits_succ (width n : Nat) :
    Text.hexDigits (width + 2) n =
      Text.hexDigits (width + 1) (n / 16) ++ [Nat.digitChar (n % 16)] := by
  unfold Text.hexDigits
  by_cases h : n < 16
  · have hq : n / 16 = 0 := Nat.div_eq_of_lt h
    rw [hq, Nat.mod_eq_of_lt h, Nat.toDigits_of_lt_base h, Nat.toDigits_zero]
    simp [List.replicate_succ']
  · rw [Nat.toDigits_of_base_le (by decide) (Nat.le_of_not_lt h)]
    simp

theorem hexDigits_one {n : Nat} (h : n < 16) : Text.hexDigits 1 n = [Nat.digitChar n] := by
  simp [Text.hexDigits, Nat.toDigits_of_lt_base h]

/-- The four digits of a unit, from the highest down. -/
theorem hexDigits_four {n : Nat} (h : n < 0x10000) :
    Text.hexDigits 4 n =
      [Nat.digitChar (n / 16 / 16 / 16), Nat.digitChar (n / 16 / 16 % 16),
        Nat.digitChar (n / 16 % 16), Nat.digitChar (n % 16)] := by
  have htop : n / 16 / 16 / 16 < 16 := by omega
  rw [hexDigits_succ, hexDigits_succ, hexDigits_succ, hexDigits_one htop]
  rfl

/-- **Units.** Four hexadecimal digits read back as the unit they were written for. -/
theorem hex4_hexDigits {n : Nat} (h : n < 0x10000) (rest : List Char) :
    hex4 (Text.hexDigits 4 n ++ rest) = some (n, rest) := by
  rw [hexDigits_four h]
  simp only [List.cons_append, List.nil_append, hex4]
  rw [hexValue?_digitChar _ (by omega), hexValue?_digitChar _ (by omega),
    hexValue?_digitChar _ (by omega), hexValue?_digitChar _ (by omega)]
  simp only [Option.some.injEq, Prod.mk.injEq, and_true]
  omega

/-! ### Characters -/

/-- No character is a surrogate. -/
theorem toNat_range (c : Char) :
    c.toNat < 0xd800 ∨ 0xdfff < c.toNat ∧ c.toNat < 0x110000 := c.valid

/-- A unit that is no surrogate is the character it stands for. -/
theorem stringLoop_unit {fuel : Nat} {c : Char} {read : List Char} (h : c.toNat < 0x10000)
    (rest : List Char) :
    stringLoop (fuel + 1) (unit c.toNat ++ rest) read = stringLoop fuel rest (c :: read) := by
  have hrange : ¬ (0xd800 ≤ c.toNat ∧ c.toNat < 0xdc00) := by
    have hc := toNat_range c
    omega
  simp only [unit, List.cons_append, stringLoop, hex4_hexDigits h, if_neg hrange,
    Char.ofNat_toNat]

/-- A high and a low unit are one character together. -/
theorem stringLoop_units {fuel high low : Nat} {read : List Char}
    (hhigh : 0xd800 ≤ high ∧ high < 0xdc00) (hlow : 0xdc00 ≤ low ∧ low < 0xe000)
    (rest : List Char) :
    stringLoop (fuel + 1) (unit high ++ (unit low ++ rest)) read =
      stringLoop fuel rest
        (Char.ofNat (0x10000 + (high - 0xd800) * 0x400 + (low - 0xdc00)) :: read) := by
  simp only [unit, List.cons_append, stringLoop, hex4_hexDigits (show high < 0x10000 by omega),
    if_pos hhigh, hex4_hexDigits (show low < 0x10000 by omega), if_pos hlow]

/-- A character that needs no escape stands for itself. -/
theorem stringLoop_plain {fuel : Nat} {c : Char} {read : List Char} (hquote : c ≠ '"')
    (hslash : c ≠ '\\') (h : 32 ≤ c.toNat) (rest : List Char) :
    stringLoop (fuel + 1) (c :: rest) read = stringLoop fuel rest (c :: read) := by
  rw [stringLoop.eq_def]
  split
  · simp_all
  · next heq => cases heq; simp_all [Nat.not_lt.2 h]

/-- **One character.** One turn of the reader takes in what one character was written
as. -/
theorem stringLoop_escapedChar (fuel : Nat) (c : Char) (rest read : List Char) :
    stringLoop (fuel + 1) (escapedChar c ++ rest) read = stringLoop fuel rest (c :: read) := by
  have hc := toNat_range c
  -- the seven short escapes, then plain characters, then units
  unfold escapedChar
  dsimp only
  split
  · next h => subst h; rfl
  split
  · next h => subst h; rfl
  split
  · next h => subst h; rfl
  split
  · next h => subst h; rfl
  split
  · next h => subst h; rfl
  split
  · next h => rw [show c = Char.ofNat 8 by rw [← h, Char.ofNat_toNat]]; rfl
  split
  · next h => rw [show c = Char.ofNat 12 by rw [← h, Char.ofNat_toNat]]; rfl
  split
  · next hquote hslash _ _ _ _ _ h =>
    exact stringLoop_plain hquote hslash h.1 rest
  split
  · next h => exact stringLoop_unit h rest
  · next h =>
    obtain ⟨high, hhigh⟩ : ∃ n, n = 0xd800 + (c.toNat - 0x10000) / 0x400 := ⟨_, rfl⟩
    obtain ⟨low, hlow⟩ : ∃ n, n = 0xdc00 + (c.toNat - 0x10000) % 0x400 := ⟨_, rfl⟩
    have hboth : 0x10000 + (high - 0xd800) * 0x400 + (low - 0xdc00) = c.toNat := by omega
    rw [← hhigh, ← hlow, List.append_assoc, stringLoop_units (by omega) (by omega), hboth,
      Char.ofNat_toNat]

/-! ### Whole texts -/

/-- Every character is written as something. -/
theorem length_le_flatMap_escapedChar (cs : List Char) :
    cs.length ≤ (cs.flatMap escapedChar).length := by
  have hpos : ∀ c, 0 < (escapedChar c).length := by
    intro c
    unfold escapedChar unit
    grind
  induction cs with
  | nil => simp
  | cons c cs ih =>
    have h := hpos c
    rw [List.flatMap_cons, List.length_append, List.length_cons]
    omega

/-- **Texts.** The reader takes in a whole text up to its closing quote. -/
theorem stringLoop_flatMap_escapedChar (cs : List Char) {fuel : Nat} (h : cs.length < fuel)
    (rest read : List Char) :
    stringLoop fuel (cs.flatMap escapedChar ++ '"' :: rest) read =
      some (String.ofList (read.reverse ++ cs), rest) := by
  -- the reader spends one turn a character and one on the quote
  induction cs generalizing fuel read with
  | nil =>
    obtain ⟨fuel, rfl⟩ := Nat.exists_eq_succ_of_ne_zero (Nat.ne_of_gt h)
    simp [stringLoop]
  | cons c cs ih =>
    obtain ⟨fuel, rfl⟩ := Nat.exists_eq_succ_of_ne_zero (Nat.ne_of_gt (Nat.zero_lt_of_lt h))
    have hlt : cs.length < fuel := Nat.lt_of_succ_lt_succ h
    rw [List.flatMap_cons, List.append_assoc, stringLoop_escapedChar, ih hlt]
    simp

/-- The literal of a text, with its quotes. -/
theorem toList_textLiteral (s : String) :
    (textLiteral s).toList = '"' :: (s.toList.flatMap escapedChar ++ ['"']) := by
  simp [textLiteral]

/-- What follows the opening quote of a literal reads back as the text. -/
theorem stringLoop_textLiteral (s : String) (rest : List Char) :
    stringLoop ((s.toList.flatMap escapedChar ++ '"' :: rest).length + 1)
      (s.toList.flatMap escapedChar ++ '"' :: rest) [] = some (s, rest) := by
  have hlen := length_le_flatMap_escapedChar s.toList
  rw [stringLoop_flatMap_escapedChar s.toList (by rw [List.length_append]; omega)]
  simp

end RouteImpact.Json
