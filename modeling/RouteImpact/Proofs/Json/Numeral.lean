import RouteImpact.Json.Reader
import RouteImpact.Json.Writer

namespace RouteImpact.Json

open Number (Binary64 ofDigits mostDigits)

/-!
# Numbers read back

A number stands among other values, so the reader has to find its end.  Whatever can
follow a value (`Closes`) has no part in a number.

* `number_append` — every part of the number reader stops where a value ends;
* `value_numeral` — a value that is made of the characters of numbers is read as a number,
  not as a word;
* `signed_toString` — an integer within the limit on digits reads back;
* `isNumeral_of_mem_render` — finite numbers are written with those characters only;
* `value_int`, `value_float` — hence numbers read back from within a text, a floating-point
  number whenever its literal alone does.
-/

/-! ### What follows a value -/

/-- What can follow a value: nothing, a comma, or the end of a list or a record. -/
def Closes (rest : List Char) : Prop :=
  ∀ c ∈ rest.head?, c = ',' ∨ c = ']' ∨ c = '\x7d'

theorem closes_nil : Closes [] := by
  simp [Closes]

theorem closes_cons {c : Char} (h : c = ',' ∨ c = ']' ∨ c = '\x7d') (rest : List Char) :
    Closes (c :: rest) := by
  simpa [Closes] using h

/-- What follows a value is nothing or starts with one of three characters. -/
@[elab_as_elim] theorem Closes.elim {motive : List Char → Prop} {rest : List Char}
    (hr : Closes rest) (nil : motive []) (comma : ∀ tail, motive (',' :: tail))
    (bracket : ∀ tail, motive (']' :: tail)) (brace : ∀ tail, motive ('\x7d' :: tail)) :
    motive rest := by
  cases rest with
  | nil => exact nil
  | cons c tail =>
    rcases hr c rfl with rfl | rfl | rfl
    · exact comma tail
    · exact bracket tail
    · exact brace tail

theorem takeWhile_isDigit_append {rest : List Char} (hr : Closes rest) (cs : List Char) :
    (cs ++ rest).takeWhile isDigit = cs.takeWhile isDigit := by
  induction cs with
  | nil => exact hr.elim rfl (fun _ => rfl) (fun _ => rfl) (fun _ => rfl)
  | cons c cs ih => simp only [List.cons_append, List.takeWhile_cons, ih]

theorem dropWhile_isDigit_append {rest : List Char} (hr : Closes rest) (cs : List Char) :
    (cs ++ rest).dropWhile isDigit = cs.dropWhile isDigit ++ rest := by
  induction cs with
  | nil => exact hr.elim rfl (fun _ => rfl) (fun _ => rfl) (fun _ => rfl)
  | cons c cs ih =>
    simp only [List.cons_append, List.dropWhile_cons, ih]
    split <;> rfl

theorem sign_append {rest : List Char} (hr : Closes rest) (cs : List Char) :
    Number.sign (cs ++ rest) = ((Number.sign cs).1, (Number.sign cs).2 ++ rest) := by
  cases cs with
  | nil => exact hr.elim rfl (fun _ => rfl) (fun _ => rfl) (fun _ => rfl)
  | cons c cs =>
    rw [List.cons_append]
    unfold Number.sign
    grind

/-- An exponent ends where a value ends. -/
theorem exponentPart_append {rest : List Char} (hr : Closes rest) (cs : List Char) :
    exponentPart (cs ++ rest) = (exponentPart cs).map fun p => (p.1, p.2 ++ rest) := by
  cases cs with
  | nil => exact hr.elim rfl (fun _ => rfl) (fun _ => rfl) (fun _ => rfl)
  | cons c cs =>
    simp only [List.cons_append, exponentPart, sign_append hr, takeWhile_isDigit_append hr,
      dropWhile_isDigit_append hr]
    split
    · split <;> rfl
    · rfl

theorem wholePart_append {rest : List Char} (hr : Closes rest) (cs : List Char) :
    wholePart (cs ++ rest) = wholePart cs := by
  have htake := takeWhile_isDigit_append hr cs
  cases cs with
  | nil => exact hr.elim rfl (fun _ => rfl) (fun _ => rfl) (fun _ => rfl)
  | cons c cs =>
    rw [List.cons_append] at htake ⊢
    unfold wholePart
    grind

theorem length_wholePart_le (cs : List Char) : (wholePart cs).length ≤ cs.length := by
  unfold wholePart
  split
  · simp
  · exact (List.takeWhile_sublist _).length_le

theorem fractionPart_append {rest : List Char} (hr : Closes rest) (cs : List Char) :
    fractionPart (cs ++ rest) = fractionPart cs := by
  cases cs with
  | nil => exact hr.elim rfl (fun _ => rfl) (fun _ => rfl) (fun _ => rfl)
  | cons c cs =>
    have htake := takeWhile_isDigit_append hr cs
    rw [List.cons_append]
    unfold fractionPart
    grind

theorem length_fractionPart_lt {cs : List Char} (h : ¬ (fractionPart cs).isEmpty) :
    (fractionPart cs).length < cs.length := by
  revert h
  unfold fractionPart
  split
  · next more =>
    intro _
    exact Nat.lt_succ_of_le (List.takeWhile_sublist _).length_le
  · simp

theorem afterFraction_append {rest : List Char} (hr : Closes rest) (cs : List Char) :
    afterFraction (cs ++ rest) = afterFraction cs ++ rest := by
  unfold afterFraction
  dsimp only
  rw [fractionPart_append hr]
  split
  · rfl
  · next h => exact List.drop_append_of_le_length (length_fractionPart_lt h)

/-- **Numbers end where values end.** What follows a value has no part in a number. -/
theorem number_append {rest : List Char} (hr : Closes rest) (negative : Bool)
    (cs : List Char) :
    number negative (cs ++ rest) = (number negative cs).map fun p => (p.1, p.2 ++ rest) := by
  unfold number
  dsimp only
  -- part by part: the whole part, the fraction, the exponent
  rw [wholePart_append hr]
  by_cases hw : (wholePart cs).isEmpty
  · rw [if_pos hw, if_pos hw]
    rfl
  · rw [if_neg hw, if_neg hw, List.drop_append_of_le_length (length_wholePart_le cs),
      fractionPart_append hr, afterFraction_append hr, exponentPart_append hr]
    generalize fractionPart (cs.drop (wholePart cs).length) = fraction
    cases exponentPart (afterFraction (cs.drop (wholePart cs).length)) with
    | some p =>
      dsimp only [Option.map_some]
      cases numberOf negative (wholePart cs) fraction (some p.1) <;> rfl
    | none =>
      dsimp only [Option.map_none]
      cases numberOf negative (wholePart cs) fraction none <;> rfl

/-! ### From a value to its number -/

/-- The characters that finite numbers are written with. -/
def isNumeral (c : Char) : Bool :=
  isDigit c || c == '.' || c == 'e' || c == '+' || c == '-'

/-- Reads a number with its sign. -/
def signed : List Char → Except ReadError (Json × List Char)
  | '-' :: cs => number true cs
  | cs => number false cs

theorem signed_of_head {cs : List Char} (h : ∀ c ∈ cs.head?, c ≠ '-') :
    signed cs = number false cs := by
  unfold signed
  split
  · exact absurd rfl (h '-' rfl)
  · rfl

theorem signed_append {rest : List Char} (hr : Closes rest) (cs : List Char) :
    signed (cs ++ rest) = (signed cs).map fun p => (p.1, p.2 ++ rest) := by
  cases cs with
  | nil => exact hr.elim rfl (fun _ => rfl) (fun _ => rfl) (fun _ => rfl)
  | cons c cs =>
    by_cases hc : c = '-'
    · subst hc
      exact number_append hr true cs
    · have hhead : ∀ ds, ∀ d ∈ (c :: ds).head?, d ≠ '-' := by
        rintro ds d ⟨⟩
        exact hc
      rw [List.cons_append, signed_of_head (hhead _), signed_of_head (hhead _)]
      exact number_append hr false (c :: cs)

/-- No word starts with what a number is written with. -/
theorem word?_numeral {cs rest : List Char} (hne : cs ≠ [])
    (hall : ∀ c ∈ cs, isNumeral c = true) (hr : Closes rest) : word? (cs ++ rest) = none := by
  obtain ⟨c, cs, rfl⟩ := List.exists_cons_of_ne_nil hne
  have hc := hall c (by simp)
  -- a minus before the word for infinity would need a letter after it
  have hminus : ∀ d ∈ (cs ++ rest).head?, d ≠ 'I' := by
    intro d hd
    cases cs with
    | nil => rcases hr d hd with rfl | rfl | rfl <;> decide
    | cons e cs =>
      cases hd
      rintro rfl
      exact absurd (hall 'I' (by simp)) (by decide)
  have hfirst : ∀ d ds, isNumeral d = false →
      List.isPrefixOf (d :: ds) (c :: (cs ++ rest)) = false := by
    intro d ds hd
    have hne : d ≠ c := by
      rintro rfl
      rw [hc] at hd
      cases hd
    simp [List.isPrefixOf, hne]
  have hsecond : ∀ ds, List.isPrefixOf ('-' :: 'I' :: ds) (c :: (cs ++ rest)) = false := by
    intro ds
    cases h : cs ++ rest with
    | nil => simp [List.isPrefixOf]
    | cons d tail =>
      have hne : 'I' ≠ d := (hminus d (by simp [h])).symm
      simp [List.isPrefixOf, hne]
  unfold word?
  dsimp only
  rw [List.find?_eq_none.2]
  intro w hw
  simp only [List.mem_cons, List.not_mem_nil, or_false] at hw
  rw [List.cons_append, Bool.not_eq_true]
  rcases hw with rfl | rfl | rfl | rfl | rfl | rfl
  · exact hfirst 'n' _ (by decide)
  · exact hfirst 't' _ (by decide)
  · exact hfirst 'f' _ (by decide)
  · exact hfirst 'N' _ (by decide)
  · exact hfirst 'I' _ (by decide)
  · exact hsecond _

/-- A value that starts with what numbers are written with is a number. -/
theorem value_numeral {cs rest : List Char} (hne : cs ≠ [])
    (hall : ∀ c ∈ cs, isNumeral c = true) (hr : Closes rest) (fuel : Nat) :
    value (fuel + 1) (cs ++ rest) = signed (cs ++ rest) := by
  have hword := word?_numeral hne hall hr
  obtain ⟨c, cs, rfl⟩ := List.exists_cons_of_ne_nil hne
  have hc := hall c (by simp)
  rw [List.cons_append] at hword ⊢
  unfold value
  split
  · next heq => cases heq; cases hc
  · next heq => cases heq; cases hc
  · next heq => cases heq; cases hc
  · rw [hword]
    unfold signed
    grind

/-! ### Integers -/

theorem isDigit_of_mem_toDigits {n : Nat} {c : Char} (h : c ∈ Nat.toDigits 10 n) :
    isDigit c = true := by
  have hd : c.isDigit = true := Nat.isDigit_of_mem_toDigits (by decide) (by decide) h
  exact hd

/-- Decimal digits stand for the number they were written for. -/
theorem ofDigits_digitsOf_toDigits (n : Nat) :
    ofDigits (digitsOf (Nat.toDigits 10 n)) = n := by
  have h : ∀ (cs : List Char) (init : Nat),
      (digitsOf cs).foldl (10 * · + ·) init = Nat.ofDigitChars 10 cs init := by
    intro cs
    induction cs with
    | nil => intro init; simp [digitsOf]
    | cons c cs ih =>
      intro init
      rw [Nat.ofDigitChars_cons, ← ih]
      rfl
  rw [ofDigits, h, Nat.ofDigitChars_ten_toDigits]

/-- A positive number has no zero in front. -/
theorem head_toDigits_ne_zero {n : Nat} (h : 0 < n) :
    ∀ c ∈ (Nat.toDigits 10 n).head?, c ≠ '0' := by
  induction n using Nat.strongRecOn with
  | ind n ih =>
    rw [Nat.toDigits_eq_if (by decide)]
    split
    · next hlt =>
      rintro c hc rfl
      have hz : Nat.digitChar n = '0' := by simpa using hc
      have hnz : ∀ d < 10, 0 < d → Nat.digitChar d ≠ '0' := by decide
      exact hnz n hlt h hz
    · next hge =>
      -- the first digit is the first digit of the quotient
      have hq : 0 < n / 10 := Nat.div_pos (Nat.le_of_not_lt hge) (by decide)
      obtain ⟨c, cs, hcs⟩ := List.exists_cons_of_ne_nil
        (Nat.toDigits_ne_nil : Nat.toDigits 10 (n / 10) ≠ [])
      have hlead := ih (n / 10) (Nat.div_lt_self h (by decide)) hq
      rw [hcs] at hlead ⊢
      exact hlead

/-- The digits of a number are its whole part. -/
theorem wholePart_toDigits (n : Nat) : wholePart (Nat.toDigits 10 n) = Nat.toDigits 10 n := by
  have htake : (Nat.toDigits 10 n).takeWhile isDigit = Nat.toDigits 10 n := by
    have happend : (Nat.toDigits 10 n ++ []).takeWhile isDigit = Nat.toDigits 10 n ++ [] :=
      List.takeWhile_append_of_pos fun c hc => isDigit_of_mem_toDigits hc
    rwa [List.append_nil] at happend
  rcases Nat.eq_zero_or_pos n with rfl | hpos
  · rfl
  · have hlead := head_toDigits_ne_zero hpos
    unfold wholePart
    split
    · next heq =>
      rw [heq] at hlead
      exact absurd rfl (hlead '0' rfl)
    · exact htake

/-- The digits of an integer are a whole part and nothing else. -/
theorem number_toDigits {n : Nat} (h : (Nat.toDigits 10 n).length ≤ mostDigits)
    (negative : Bool) :
    number negative (Nat.toDigits 10 n) =
      .ok (.int (if negative then -(n : Int) else n), []) := by
  unfold number
  dsimp only
  rw [wholePart_toDigits, if_neg (by simp), List.drop_length]
  show (numberOf negative (Nat.toDigits 10 n) [] none).map _ = _
  simp only [numberOf, List.isEmpty_nil, if_true, if_neg (Nat.not_lt.2 h),
    ofDigits_digitsOf_toDigits]
  rfl

/-- The text of an integer: its digits after its sign. -/
theorem toList_toString_int (n : Int) :
    (toString n).toList =
      if n < 0 then '-' :: Nat.toDigits 10 n.natAbs else Nat.toDigits 10 n.natAbs := by
  rw [Int.toString_eq_repr, Int.repr_eq_if]
  by_cases h : n < 0
  · have habs : (-n).toNat = n.natAbs := by omega
    rw [if_neg (by omega), if_pos h, habs, String.toList_append, Nat.toList_repr]
    rfl
  · have habs : n.toNat = n.natAbs := by omega
    rw [if_pos (by omega), if_neg h, habs, Nat.toList_repr]

/-- **Integers.** An integer within the limit on digits reads back. -/
theorem signed_toString {n : Int} (h : (Nat.toDigits 10 n.natAbs).length ≤ mostDigits) :
    signed (toString n).toList = .ok (.int n, []) := by
  rw [toList_toString_int]
  split
  · show number true _ = _
    rw [number_toDigits h]
    simp only [if_true, Except.ok.injEq, Prod.mk.injEq, Json.int.injEq, and_true]
    omega
  · have hhead : ∀ c ∈ (Nat.toDigits 10 n.natAbs).head?, c ≠ '-' := by
      rintro c hc rfl
      exact absurd (isDigit_of_mem_toDigits (List.mem_of_mem_head? hc)) (by decide)
    rw [signed_of_head hhead, number_toDigits h]
    simp only [Bool.false_eq_true, if_false, Except.ok.injEq, Prod.mk.injEq, Json.int.injEq,
      and_true]
    omega

/-! ### Floating-point numbers -/

theorem isNumeral_of_isDigit {c : Char} (h : isDigit c = true) : isNumeral c = true := by
  simp [isNumeral, h]

theorem mem_of_mem_trimZeros {cs : List Char} {c : Char} (h : c ∈ (Binary64.trimZeros cs).1) :
    c ∈ cs := by
  have hrev := List.mem_reverse.1 h
  exact List.mem_reverse.1 ((List.dropWhile_sublist _).mem hrev)

theorem isNumeral_of_mem_toDigits {n : Nat} :
    ∀ c ∈ Nat.toDigits 10 n, isNumeral c = true :=
  fun _ h => isNumeral_of_isDigit (isDigit_of_mem_toDigits h)

/-- Finite numbers are written with digits, a point, signs and the mark of an exponent. -/
theorem isNumeral_of_mem_render {negative : Bool} {m : Nat} {e : Int} :
    ∀ c ∈ (Binary64.finite negative m e).render.toList, isNumeral c = true := by
  have hmarks : ∀ {cs : List Char}, cs.all isNumeral = true → ∀ c ∈ cs, isNumeral c = true :=
    fun h => List.all_eq_true.1 h
  have hminus : ∀ c ∈ (if negative then "-" else "").toList, isNumeral c = true :=
    hmarks (by cases negative <;> decide)
  unfold Binary64.render
  dsimp only
  by_cases hm : m = 0
  · rw [if_pos hm, String.toList_append, List.forall_mem_append]
    exact ⟨hminus, hmarks (by decide)⟩
  · rw [if_neg hm, String.toList_append, String.toList_ofList, List.forall_mem_append]
    refine ⟨hminus, ?_⟩
    -- which digits are found does not matter, only that they are digits
    generalize Binary64.shortest m e = found
    have hdigits : ∀ c ∈ (Binary64.trimZeros (Nat.toDigits 10 found.1)).1,
        isNumeral c = true := fun c hc => isNumeral_of_mem_toDigits c (mem_of_mem_trimZeros hc)
    generalize Binary64.trimZeros (Nat.toDigits 10 found.1) = trimmed at hdigits ⊢
    generalize found.2 + (trimmed.2 : Int) = p
    generalize (trimmed.1.length : Int) + p - 1 = size
    have hzeros : ∀ k, ∀ c ∈ List.replicate k '0', isNumeral c = true := by
      intro k c hc
      rw [List.eq_of_mem_replicate hc]
      rfl
    have htake : ∀ k, ∀ c ∈ trimmed.1.take k, isNumeral c = true :=
      fun k c hc => hdigits c (List.mem_of_mem_take hc)
    have hdrop : ∀ k, ∀ c ∈ trimmed.1.drop k, isNumeral c = true :=
      fun k c hc => hdigits c (List.mem_of_mem_drop hc)
    -- positional with zeros behind, with a point inside, with zeros in front, or a power of ten
    split
    · split
      · exact List.forall_mem_append.2
          ⟨List.forall_mem_append.2 ⟨hdigits, hzeros _⟩, hmarks (by decide)⟩
      · split
        · exact List.forall_mem_append.2
            ⟨List.forall_mem_append.2 ⟨htake _, hmarks (by decide)⟩, hdrop _⟩
        · exact List.forall_mem_append.2
            ⟨List.forall_mem_append.2 ⟨hmarks (by decide), hzeros _⟩, hdigits⟩
    · refine List.forall_mem_append.2 ⟨List.forall_mem_append.2
        ⟨List.forall_mem_append.2 ⟨htake _, ?_⟩, ?_⟩, ?_⟩
      · split
        · exact List.forall_mem_nil _
        · exact List.forall_mem_cons.2 ⟨rfl, hdrop _⟩
      · split
        · exact hmarks (by decide)
        · exact hmarks (by decide)
      · split
        · exact List.forall_mem_cons.2 ⟨rfl, isNumeral_of_mem_toDigits⟩
        · exact isNumeral_of_mem_toDigits

/-! ### What a number leaves unread -/

theorem exponentPart_suffix {cs left : List Char} {e : Int}
    (h : exponentPart cs = some (e, left)) : left <:+ cs := by
  cases cs with
  | nil => cases h
  | cons c cs =>
    simp only [exponentPart] at h
    split at h
    · split at h
      · cases h
      · cases h
        have hsign : (Number.sign cs).2 <:+ cs := by
          unfold Number.sign
          split
          · exact List.suffix_cons _ _
          · exact List.suffix_cons _ _
          · exact List.suffix_refl _
        exact ((List.dropWhile_suffix _).trans hsign).trans (List.suffix_cons _ _)
    · cases h

theorem afterFraction_suffix (cs : List Char) : afterFraction cs <:+ cs := by
  unfold afterFraction
  dsimp only
  split
  · exact List.suffix_refl _
  · exact List.drop_suffix _ _

theorem number_suffix {negative : Bool} {cs left : List Char} {v : Json}
    (h : number negative cs = .ok (v, left)) : left <:+ cs := by
  have hleft : ∀ {x : Except ReadError Json} {r : List Char},
      x.map (·, r) = .ok (v, left) → left = r := by
    intro x r hx
    cases x <;> cases hx
    rfl
  have hfraction : afterFraction (cs.drop (wholePart cs).length) <:+ cs :=
    (afterFraction_suffix _).trans (List.drop_suffix _ _)
  unfold number at h
  dsimp only at h
  split at h
  · cases h
  · split at h
    · next he =>
      rw [hleft h]
      exact (exponentPart_suffix he).trans hfraction
    · rw [hleft h]
      exact hfraction

theorem signed_suffix {cs left : List Char} {v : Json} (h : signed cs = .ok (v, left)) :
    left <:+ cs := by
  unfold signed at h
  split at h
  · exact (number_suffix h).trans (List.suffix_cons _ _)
  · exact number_suffix h

/-! ### Numbers among values -/

theorem skipBlank_of_isNumeral {cs : List Char} (h : ∀ c ∈ cs, isNumeral c = true) :
    skipBlank cs = cs := by
  cases cs with
  | nil => rfl
  | cons c cs =>
    have hc := h c (by simp)
    have hblank : ¬ ((c == ' ' || c == '\t' || c == '\n' || c == '\r') = true) := by
      intro hb
      simp only [Bool.or_eq_true, beq_iff_eq] at hb
      rcases hb with ((rfl | rfl) | rfl) | rfl <;> cases hc
    exact List.dropWhile_cons_of_neg hblank

/-- **Integers among values.** An integer reads back from within a text. -/
theorem value_int {n : Int} (h : (Nat.toDigits 10 n.natAbs).length ≤ mostDigits)
    {rest : List Char} (hr : Closes rest) (fuel : Nat) :
    value (fuel + 1) ((toString n).toList ++ rest) = .ok (.int n, rest) := by
  have hall : ∀ c ∈ (toString n).toList, isNumeral c = true := by
    rw [toList_toString_int]
    split
    · exact List.forall_mem_cons.2 ⟨by decide, isNumeral_of_mem_toDigits⟩
    · exact isNumeral_of_mem_toDigits
  have hne : (toString n).toList ≠ [] := by
    rw [toList_toString_int]
    split <;> simp
  rw [value_numeral hne hall hr, signed_append hr, signed_toString h]
  rfl

/-- **Floating-point numbers among values.** A number is read within a text as it is read by
itself. -/
theorem value_float {x y : Binary64} (h : parse (floatLiteral x) = .ok (.float y))
    {rest : List Char} (hr : Closes rest) (fuel : Nat) :
    value (fuel + 1) ((floatLiteral x).toList ++ rest) = .ok (.float y, rest) := by
  cases x with
  | undefined =>
    cases h
    rfl
  | infinite negative => cases negative <;> cases h <;> rfl
  | finite negative m e =>
    show value (fuel + 1) ((Binary64.finite negative m e).render.toList ++ rest) = _
    have hall : ∀ c ∈ (Binary64.finite negative m e).render.toList, isNumeral c = true :=
      isNumeral_of_mem_render
    unfold parse at h
    dsimp only [floatLiteral] at h
    generalize (Binary64.finite negative m e).render.toList = cs at h hall ⊢
    rw [skipBlank_of_isNumeral hall] at h
    have hne : cs ≠ [] := by
      rintro rfl
      cases h
    have hvalue := value_numeral hne hall closes_nil (2 * cs.length + 1)
    rw [List.append_nil] at hvalue
    rw [hvalue] at h
    rw [value_numeral hne hall hr, signed_append hr]
    -- what is left after the number is blank, but no part of the literal is
    split at h
    · cases h
    · next v left hs =>
      have hleft : ∀ c ∈ left, isNumeral c = true :=
        fun c hc => hall c ((signed_suffix hs).subset hc)
      rw [skipBlank_of_isNumeral hleft] at h
      split at h
      · next hempty =>
        cases h
        rw [hs, List.isEmpty_iff.1 hempty]
        rfl
      · cases h

end RouteImpact.Json
