import RouteImpact.Proofs.Json.Numeral

namespace RouteImpact.Json

open Number (Binary64 ofDigits mostDigits)

/-!
# Every floating-point literal is one

What is written for a floating-point number is read as a floating-point number, whichever
digits were found for it: there is always a whole part without zeros in front, and a fraction
or an exponent.

* `Lead` — the digits that can stand before a point;
* `number_positional`, `number_scientific` — the two forms of a literal;
* `shortest_pos` — the digits of a number that is not zero do not stand for zero;
* `parse_floatLiteral` — hence every literal reads as a floating-point number.
-/

/-! ### Digits -/

/-- Characters that are digits. -/
def Digits (cs : List Char) : Prop := ∀ c ∈ cs, isDigit c = true

/-- What does not go on with a digit. -/
def Halts (rest : List Char) : Prop := ∀ c ∈ rest.head?, isDigit c = false

theorem halts_nil : Halts [] := by simp [Halts]

theorem halts_cons {c : Char} (h : isDigit c = false) (rest : List Char) : Halts (c :: rest) := by
  simpa [Halts] using h

theorem takeWhile_of_digits {cs rest : List Char} (hcs : Digits cs) (hrest : Halts rest) :
    (cs ++ rest).takeWhile isDigit = cs := by
  rw [List.takeWhile_append_of_pos hcs]
  cases rest with
  | nil => simp
  | cons c rest => simp [hrest c rfl]

theorem dropWhile_of_digits {cs : List Char} (hcs : Digits cs) : cs.dropWhile isDigit = [] := by
  induction cs with
  | nil => rfl
  | cons c cs ih =>
    rw [List.dropWhile_cons, if_pos (hcs c (by simp))]
    exact ih fun d hd => hcs d (by simp [hd])

/-- The digits that can stand before a point: a zero, or digits that do not start with one. -/
structure Lead (cs : List Char) : Prop where
  digits : Digits cs
  ne_nil : cs ≠ []
  head : cs = ['0'] ∨ cs.head? ≠ some '0'

theorem lead_zero : Lead ['0'] := ⟨by simp [Digits, isDigit], by simp, Or.inl rfl⟩

theorem wholePart_of_lead {cs rest : List Char} (h : Lead cs) (hrest : Halts rest) :
    wholePart (cs ++ rest) = cs := by
  rcases h.head with rfl | hhead
  · rfl
  · obtain ⟨c, tail, rfl⟩ := List.exists_cons_of_ne_nil h.ne_nil
    have hc : c ≠ '0' := by simpa using hhead
    rw [List.cons_append]
    unfold wholePart
    split
    · next heq =>
      cases heq
      exact absurd rfl hc
    · rw [← List.cons_append]
      exact takeWhile_of_digits h.digits hrest

/-! ### The two forms of a literal -/

/-- Digits, a point and digits. -/
theorem number_positional (negative : Bool) {whole fraction : List Char} (hwhole : Lead whole)
    (hfraction : Digits fraction) (hne : fraction ≠ []) :
    ∃ y, number negative (whole ++ '.' :: fraction) = .ok (.float y, []) := by
  have hpart : wholePart (whole ++ '.' :: fraction) = whole :=
    wholePart_of_lead hwhole (halts_cons (by decide) fraction)
  have hfrac : fractionPart ('.' :: fraction) = fraction := by
    have htake := takeWhile_of_digits hfraction halts_nil
    rwa [List.append_nil] at htake
  have hafter : afterFraction ('.' :: fraction) = [] := by
    unfold afterFraction
    dsimp only
    rw [hfrac, if_neg (by simpa using hne)]
    simp
  -- nothing is left for an exponent, and the fraction makes the number no integer
  unfold number
  dsimp only
  rw [hpart, if_neg (by simpa using hwhole.ne_nil), List.drop_left, hfrac, hafter]
  simp only [exponentPart, numberOf]
  rw [if_neg (by simpa using hne)]
  exact ⟨_, rfl⟩

/-- Digits, perhaps a point and digits, and an exponent. -/
theorem number_scientific (negative : Bool) {whole fraction power : List Char} {sign : Char}
    (hwhole : Lead whole) (hfraction : Digits fraction) (hpower : Digits power)
    (hne : power ≠ []) (hsign : sign = '-' ∨ sign = '+') :
    ∃ y, number negative (whole ++ ((if fraction.isEmpty then [] else '.' :: fraction) ++
      'e' :: sign :: power)) = .ok (.float y, []) := by
  have hexponent : ∃ k, exponentPart ('e' :: sign :: power) = some (k, []) := by
    have htake := takeWhile_of_digits hpower halts_nil
    rw [List.append_nil] at htake
    have hempty : power.isEmpty = false := by simpa using hne
    rcases hsign with rfl | rfl
    · refine ⟨-(ofDigits (digitsOf power) : Int), ?_⟩
      simp [exponentPart, Number.sign, htake, dropWhile_of_digits hpower, hempty]
    · refine ⟨(ofDigits (digitsOf power) : Int), ?_⟩
      simp [exponentPart, Number.sign, htake, dropWhile_of_digits hpower, hempty]
  obtain ⟨k, hexponent⟩ := hexponent
  have hhalts : Halts ('e' :: sign :: power) := halts_cons (by decide) _
  cases fraction with
  | nil =>
    have hpart : wholePart (whole ++ 'e' :: sign :: power) = whole :=
      wholePart_of_lead hwhole hhalts
    have hfrac : fractionPart ('e' :: sign :: power) = [] := rfl
    have hafter : afterFraction ('e' :: sign :: power) = 'e' :: sign :: power := rfl
    simp only [List.isEmpty_nil, if_true, List.nil_append]
    unfold number
    dsimp only
    rw [hpart, if_neg (by simpa using hwhole.ne_nil), List.drop_left, hfrac, hafter, hexponent]
    exact ⟨_, rfl⟩
  | cons c cs =>
    have hpart : wholePart (whole ++ '.' :: ((c :: cs) ++ 'e' :: sign :: power)) = whole :=
      wholePart_of_lead hwhole (halts_cons (by decide) _)
    have hfrac : fractionPart ('.' :: ((c :: cs) ++ 'e' :: sign :: power)) = c :: cs :=
      takeWhile_of_digits hfraction hhalts
    have hafter : afterFraction ('.' :: ((c :: cs) ++ 'e' :: sign :: power)) =
        'e' :: sign :: power := by
      unfold afterFraction
      dsimp only
      rw [hfrac]
      simp
    show ∃ y, number negative (whole ++ '.' :: ((c :: cs) ++ 'e' :: sign :: power)) = _
    unfold number
    dsimp only
    rw [hpart, if_neg (by simpa using hwhole.ne_nil), List.drop_left, hfrac, hafter, hexponent]
    exact ⟨_, rfl⟩

/-! ### The digits that are found -/

/-- Nothing that is not zero reads back from zero. -/
theorem readsBack_zero {m : Nat} (hm : m ≠ 0) (e p : Int) : Binary64.readsBack m e 0 p = false := by
  have hscaled : ∀ (low : Nat) (k : Int), 0 < low → 0 < (Binary64.scaled low 4 k).1 := by
    intro low k hlow
    unfold Binary64.scaled
    split
    · exact hlow
    · exact Nat.mul_pos hlow (Nat.pow_pos (by decide))
  have hden : 0 < (Binary64.tenfold 0 p).2 := by
    unfold Binary64.tenfold
    split
    · exact Nat.one_pos
    · exact Nat.pow_pos (by decide)
  have hnum : (Binary64.tenfold 0 p).1 = 0 := by
    unfold Binary64.tenfold
    split
    · exact Nat.zero_mul _
    · rfl
  have hlow : 0 < if m = Nat.pow 2 52 ∧ -1074 < e then 4 * m - 1 else 4 * m - 2 := by
    split <;> omega
  unfold Binary64.readsBack
  dsimp only
  generalize (if m = Nat.pow 2 52 ∧ -1074 < e then 4 * m - 1 else 4 * m - 2) = low at hlow ⊢
  -- the middle to the neighbour below lies above zero
  have hbelow : Binary64.ratioLe (Binary64.scaled low 4 (-e)).1 (Binary64.scaled low 4 (-e)).2
      (Binary64.tenfold 0 p).1 (Binary64.tenfold 0 p).2 = false := by
    rw [Binary64.ratioLe, hnum, Nat.zero_mul, decide_eq_false_iff_not, Nat.not_le]
    exact Nat.mul_pos (hscaled low (-e) hlow) hden
  rw [hbelow]
  rfl

/-- Digits are found, or the search ends with zero and no power of ten. -/
theorem shortestLoop_pos {m : Nat} (hm : m ≠ 0) (e : Int) (num den : Nat) (size : Int)
    (fuel count : Nat) :
    0 < (Binary64.shortestLoop m e num den size fuel count).1 ∨
      Binary64.shortestLoop m e num den size fuel count = (0, 0) := by
  induction fuel generalizing count with
  | zero => exact Or.inr rfl
  | succ fuel ih =>
    unfold Binary64.shortestLoop
    dsimp only
    -- which grid the neighbours lie on does not matter
    generalize (if 0 ≤ size - (count : Int) + 1 then
      (num, den * Nat.pow 10 (size - (count : Int) + 1).toNat)
      else (num * Nat.pow 10 (-(size - (count : Int) + 1)).toNat, den)) = ratio
    split
    · next hok =>
      refine Or.inl (Nat.pos_of_ne_zero fun hzero => ?_)
      dsimp only at hzero
      rw [hzero, readsBack_zero hm] at hok
      simp at hok
    · split
      · exact Or.inl (Nat.succ_pos _)
      · exact ih (count + 1)

theorem shortest_pos {m : Nat} (hm : m ≠ 0) (e : Int) :
    0 < (Binary64.shortest m e).1 ∨ Binary64.shortest m e = (0, 0) :=
  shortestLoop_pos hm ..

/-- What is dropped at the end does not reach a first character that stays. -/
theorem dropEndWhile_cons {p : Char → Bool} {c : Char} (hc : p c = false) (cs : List Char) :
    ∃ tail, Text.dropEndWhile p (c :: cs) = c :: tail := by
  have hconcat : ∀ l : List Char, (l ++ [c]).dropWhile p = l.dropWhile p ++ [c] := by
    intro l
    induction l with
    | nil => simp [hc]
    | cons d l ih =>
      cases hd : p d with
      | true => simp [hd, ih]
      | false => simp [hd]
  refine ⟨(cs.reverse.dropWhile p).reverse, ?_⟩
  rw [Text.dropEndWhile, List.reverse_cons, hconcat, List.reverse_append]
  rfl

/-- Zeros at the end go, and the first digit stays. -/
theorem lead_trimZeros {n : Nat} (hn : 0 < n) :
    Lead (Binary64.trimZeros (Nat.toDigits 10 n)).1 ∧
      (Binary64.trimZeros (Nat.toDigits 10 n)).1.head? ≠ some '0' := by
  obtain ⟨c, cs, hcs⟩ := List.exists_cons_of_ne_nil
    (Nat.toDigits_ne_nil : Nat.toDigits 10 n ≠ [])
  have hc : c ≠ '0' := head_toDigits_ne_zero hn c (by rw [hcs]; rfl)
  obtain ⟨tail, htail⟩ := dropEndWhile_cons (p := (· == '0')) (by simpa using hc) cs
  have htrim : (Binary64.trimZeros (Nat.toDigits 10 n)).1 = c :: tail := by
    rw [hcs]
    exact htail
  have hhead : (Binary64.trimZeros (Nat.toDigits 10 n)).1.head? ≠ some '0' := by
    rw [htrim]
    simpa using hc
  refine ⟨⟨fun d hd => isDigit_of_mem_toDigits (mem_of_mem_trimZeros hd), ?_, Or.inr hhead⟩, hhead⟩
  rw [htrim]
  exact List.cons_ne_nil _ _

/-! ### Every literal -/

theorem digits_replicate (k : Nat) : Digits (List.replicate k '0') := by
  intro c hc
  rw [List.eq_of_mem_replicate hc]
  rfl

theorem Digits.append {cs ds : List Char} (hcs : Digits cs) (hds : Digits ds) :
    Digits (cs ++ ds) :=
  List.forall_mem_append.2 ⟨hcs, hds⟩

theorem Lead.append {cs ds : List Char} (hcs : Lead cs) (hhead : cs.head? ≠ some '0')
    (hds : Digits ds) : Lead (cs ++ ds) := by
  refine ⟨hcs.digits.append hds, by simp [hcs.ne_nil], Or.inr ?_⟩
  obtain ⟨c, tail, rfl⟩ := List.exists_cons_of_ne_nil hcs.ne_nil
  simpa using hhead

/-- **Digits with a power of ten** read as a floating-point number, in whichever of its forms
the number is written. -/
theorem number_text (negative : Bool) {digits : List Char} (hlead : Lead digits)
    (hhead : digits.head? ≠ some '0') (p : Int) :
    ∃ y, number negative
      (if -4 ≤ (digits.length : Int) + p - 1 ∧ (digits.length : Int) + p - 1 < 16 then
        if 0 ≤ p then digits ++ List.replicate p.toNat '0' ++ ['.', '0']
        else if 0 ≤ (digits.length : Int) + p - 1 then
          digits.take (((digits.length : Int) + p - 1).toNat + 1) ++ ['.'] ++
            digits.drop (((digits.length : Int) + p - 1).toNat + 1)
        else ['0', '.'] ++ List.replicate (-((digits.length : Int) + p - 1) - 1).toNat '0' ++ digits
      else
        digits.take 1 ++ (if (digits.drop 1).isEmpty then [] else '.' :: digits.drop 1) ++
          ['e', if (digits.length : Int) + p - 1 < 0 then '-' else '+'] ++
          (if (Nat.toDigits 10 ((digits.length : Int) + p - 1).natAbs).length < 2 then
            '0' :: Nat.toDigits 10 ((digits.length : Int) + p - 1).natAbs
          else Nat.toDigits 10 ((digits.length : Int) + p - 1).natAbs)) = .ok (.float y, []) := by
  have htake : ∀ k, 0 < k → Lead (digits.take k) := by
    intro k hk
    obtain ⟨c, tail, rfl⟩ := List.exists_cons_of_ne_nil hlead.ne_nil
    obtain ⟨k, rfl⟩ : ∃ j, k = j + 1 := ⟨k - 1, by omega⟩
    refine ⟨fun d hd => hlead.digits d (List.mem_of_mem_take hd), by simp, Or.inr ?_⟩
    simpa using hhead
  have hdrop : ∀ k, Digits (digits.drop k) :=
    fun k d hd => hlead.digits d (List.mem_of_mem_drop hd)
  split
  · split
    · rw [show ['.', '0'] = '.' :: ['0'] from rfl]
      exact number_positional negative (hlead.append hhead (digits_replicate _))
        (digits_replicate 1) (by simp)
    · next hp =>
      split
      · -- the point stands among the digits, because the power of ten is negative
        next hsize =>
        rw [List.append_assoc, List.singleton_append]
        refine number_positional negative (htake _ (by omega)) (hdrop _) ?_
        intro hnil
        have hlength := congrArg List.length hnil
        rw [List.length_drop, List.length_nil] at hlength
        omega
      · rw [show ['0', '.'] = ['0'] ++ ['.'] from rfl, List.append_assoc, List.append_assoc,
          List.singleton_append]
        refine number_positional negative lead_zero
          ((digits_replicate _).append hlead.digits) ?_
        simp [hlead.ne_nil]
  · rw [List.append_assoc, List.append_assoc]
    refine number_scientific negative (htake 1 (by omega)) (hdrop 1) ?_ ?_ ?_
    · split
      · exact List.forall_mem_cons.2 ⟨by decide, fun _ => isDigit_of_mem_toDigits⟩
      · exact fun _ => isDigit_of_mem_toDigits
    · split <;> simp
    · split <;> simp

/-- Every finite number is written with a sign and a text that reads as a floating-point
number. -/
theorem signed_render (negative : Bool) (m : Nat) (e : Int) :
    ∃ y, signed (Binary64.finite negative m e).render.toList = .ok (.float y, []) := by
  have hsigned : ∀ text : List Char, (∃ y, number negative text = .ok (.float y, [])) →
      ∃ y, signed ((if negative then "-" else "") ++ String.ofList text).toList =
        .ok (.float y, []) := by
    rintro text ⟨y, htext⟩
    refine ⟨y, ?_⟩
    rw [String.toList_append, String.toList_ofList]
    cases negative with
    | true => exact htext
    | false =>
      refine (signed_of_head fun c hc hminus => ?_).trans htext
      -- no number starts with a second sign
      obtain ⟨cs, rfl⟩ : ∃ cs, text = '-' :: cs := by
        cases text with
        | nil => cases hc
        | cons d cs => exact ⟨cs, by rw [← hminus]; simpa using hc⟩
      cases htext
  have hzero : ∃ y, number negative ['0', '.', '0'] = .ok (.float y, []) :=
    number_positional negative lead_zero (digits_replicate 1) (by simp)
  -- zero is written as such; anything else by the digits that were found, if any were
  unfold Binary64.render
  dsimp only
  split
  · exact hsigned ['0', '.', '0'] hzero
  · next hm =>
    rcases shortest_pos hm e with hpos | hnone
    · refine hsigned _ ?_
      obtain ⟨hlead, hhead⟩ := lead_trimZeros hpos
      exact number_text negative hlead hhead _
    · rw [hnone]
      exact hsigned ['0', '.', '0'] hzero

/-- **Every literal** of a floating-point number is read as a floating-point number. -/
theorem parse_floatLiteral (x : Binary64) : ∃ y, parse (floatLiteral x) = .ok (.float y) := by
  cases x with
  | undefined => exact ⟨.undefined, rfl⟩
  | infinite negative => cases negative <;> exact ⟨_, rfl⟩
  | finite negative m e =>
    obtain ⟨y, hy⟩ := signed_render negative m e
    refine ⟨y, ?_⟩
    unfold parse
    dsimp only [floatLiteral]
    have hall : ∀ c ∈ (Binary64.finite negative m e).render.toList, isNumeral c = true :=
      isNumeral_of_mem_render
    generalize (Binary64.finite negative m e).render.toList = cs at hy hall ⊢
    have hne : cs ≠ [] := by
      rintro rfl
      cases hy
    have hvalue := value_numeral hne hall closes_nil (2 * cs.length + 1)
    rw [List.append_nil] at hvalue
    rw [skipBlank_of_isNumeral hall, hvalue, hy]
    rfl

end RouteImpact.Json
