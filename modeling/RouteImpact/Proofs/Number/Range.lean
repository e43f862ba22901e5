import RouteImpact.Number.Binary64

namespace RouteImpact.Number.Binary64

/-!
# How large numbers get

A number that was rounded to 53 binary digits has a small mantissa and a bounded power of
two, whatever it was rounded from.

* `ofRatio_range` — the mantissa and the exponent of a rounded quotient are bounded;
* `length_toDigits_milliseconds` — hence a moment in milliseconds has few decimal digits,
  far fewer than are read as an integer.
-/

theorem roundQuotient_le (num den : Nat) : roundQuotient num den ≤ num / den + 1 := by
  unfold roundQuotient
  dsimp only
  split
  · exact Nat.le_refl _
  · exact Nat.le_succ _

/-- Scaling by the difference of the sizes leaves a quotient of bounded size. -/
theorem scaled_div_lt {num den : Nat} {e : Int} (hden : den ≠ 0)
    (he : (Nat.log2 num : Int) - (Nat.log2 den : Int) - 53 ≤ e) :
    (scaled num den e).1 / (scaled num den e).2 < Nat.pow 2 54 := by
  have hnum : num < 2 ^ (num.log2 + 1) := Nat.lt_log2_self
  have hle : 2 ^ den.log2 ≤ den := Nat.log2_self_le hden
  unfold scaled
  simp only [Nat.pow_eq]
  split
  · next hpos =>
    refine Nat.div_lt_of_lt_mul ?_
    calc num < 2 ^ (num.log2 + 1) := hnum
      _ ≤ 2 ^ (den.log2 + e.toNat + 54) := Nat.pow_le_pow_right (by decide) (by omega)
      _ = 2 ^ den.log2 * 2 ^ e.toNat * 2 ^ 54 := by rw [Nat.pow_add, Nat.pow_add]
      _ ≤ den * 2 ^ e.toNat * 2 ^ 54 := Nat.mul_le_mul_right _ (Nat.mul_le_mul_right _ hle)
  · next hneg =>
    refine Nat.div_lt_of_lt_mul ?_
    calc num * 2 ^ (-e).toNat < 2 ^ (num.log2 + 1) * 2 ^ (-e).toNat :=
          Nat.mul_lt_mul_of_pos_right hnum (Nat.two_pow_pos _)
      _ = 2 ^ (num.log2 + 1 + (-e).toNat) := by rw [Nat.pow_add 2 (num.log2 + 1)]
      _ ≤ 2 ^ (den.log2 + 54) := Nat.pow_le_pow_right (by decide) (by omega)
      _ = 2 ^ den.log2 * 2 ^ 54 := by rw [Nat.pow_add]
      _ ≤ den * 2 ^ 54 := Nat.mul_le_mul_right _ hle

/-- What rounding makes of a quotient once its exponent is chosen. -/
theorem range_of_exponent {negative negative' : Bool} {num den m : Nat} {e chosen : Int}
    (hden : den ≠ 0) (hchosen : (Nat.log2 num : Int) - (Nat.log2 den : Int) - 53 ≤ chosen)
    (h : (let (a, b) := scaled num den chosen
      let m := roundQuotient a b
      let (m, e) := if m = Nat.pow 2 53 then (Nat.pow 2 52, chosen + 1) else (m, chosen)
      if 971 < e then Binary64.infinite negative else .finite negative m e) =
        .finite negative' m e) : m ≤ Nat.pow 2 54 ∧ e ≤ 971 := by
  have hlt := scaled_div_lt hden hchosen
  have hround := roundQuotient_le (scaled num den chosen).1 (scaled num den chosen).2
  dsimp only at h
  generalize roundQuotient (scaled num den chosen).1 (scaled num den chosen).2 = q at h hround
  have hcarry : (if q = Nat.pow 2 53 then (Nat.pow 2 52, chosen + 1) else (q, chosen)).1 ≤
      Nat.pow 2 54 := by
    split
    · show Nat.pow 2 52 ≤ Nat.pow 2 54
      decide
    · exact Nat.le_trans hround hlt
  generalize (if q = Nat.pow 2 53 then (Nat.pow 2 52, chosen + 1) else (q, chosen)) = carried
    at h hcarry
  split at h
  · cases h
  · next hle =>
    cases h
    exact ⟨hcarry, Int.not_lt.1 hle⟩

/-- **Range.** A rounded quotient has a bounded mantissa and a bounded exponent. -/
theorem ofRatio_range {negative negative' : Bool} {num den m : Nat} {e : Int}
    (h : ofRatio negative num den = .finite negative' m e) : m ≤ Nat.pow 2 54 ∧ e ≤ 971 := by
  unfold ofRatio at h
  split at h
  · cases h
    exact ⟨Nat.zero_le _, by decide⟩
  · next hz =>
    -- whichever exponent is taken, it is at most one below the guess
    have hguess : ∀ (low mid : Bool) (guess : Int),
        guess - 1 ≤ max (if low then guess - 1 else if mid then guess else guess + 1) (-1074) := by
      intro low mid guess
      split
      · exact Int.le_max_left _ _
      · split
        · exact Int.le_trans (by omega) (Int.le_max_left _ _)
        · exact Int.le_trans (by omega) (Int.le_max_left _ _)
    refine range_of_exponent (fun hd => hz (Or.inr hd)) ?_ h
    exact Int.le_trans (by omega) (hguess _ _ _)

/-- The integer part of a number is at most its mantissa times its power of two. -/
theorem natAbs_truncate?_le {negative : Bool} {m : Nat} {e : Int} :
    (((finite negative m e).truncate?).getD 0).natAbs ≤ m * Nat.pow 2 e.toNat := by
  have hle : (if 0 ≤ e then m * Nat.pow 2 e.toNat else m / Nat.pow 2 (-e).toNat) ≤
      m * Nat.pow 2 e.toNat := by
    split
    · exact Nat.le_refl _
    · exact Nat.le_trans (Nat.div_le_self _ _) (Nat.le_mul_of_pos_right _ (Nat.two_pow_pos _))
  cases negative with
  | false => exact hle
  | true =>
    show (-_ : Int).natAbs ≤ _
    rw [Int.natAbs_neg]
    exact hle

/-- **Timestamps.** A moment in milliseconds can be read as an integer. -/
theorem length_toDigits_milliseconds (x : Binary64) :
    (Nat.toDigits 10 x.milliseconds.natAbs).length ≤ mostDigits := by
  rw [Nat.length_toDigits_le_iff (by decide) (by decide)]
  have hpos : 0 < 10 ^ mostDigits := Nat.pow_pos (by decide)
  cases x with
  | undefined => exact hpos
  | infinite _ => exact hpos
  | finite negative m e =>
    show (((ofRatio negative (scaled (1000 * m) 1 (-e)).1
      (scaled (1000 * m) 1 (-e)).2).truncate?).getD 0).natAbs < _
    cases hq : ofRatio negative (scaled (1000 * m) 1 (-e)).1 (scaled (1000 * m) 1 (-e)).2 with
    | undefined => exact hpos
    | infinite _ => exact hpos
    | finite negative' m' e' =>
      obtain ⟨hm, he⟩ := ofRatio_range hq
      calc (((finite negative' m' e').truncate?).getD 0).natAbs
          ≤ m' * 2 ^ e'.toNat := natAbs_truncate?_le
        _ ≤ 2 ^ 54 * 2 ^ e'.toNat := Nat.mul_le_mul_right _ hm
        _ = 2 ^ (54 + e'.toNat) := (Nat.pow_add 2 54 e'.toNat).symm
        _ < 10 ^ (54 + e'.toNat) := Nat.pow_lt_pow_left (by decide) (by omega)
        _ ≤ 10 ^ mostDigits := Nat.pow_le_pow_right (by decide) (by unfold mostDigits; omega)

end RouteImpact.Number.Binary64
