import LoxLexer.Number.Rounding
import Mathlib.Order.Monotone.Basic
import Mathlib.Tactic.Ring

/-!
# Magnitudes and the midpoints between them

A decimal is read as a magnitude because it lies between two midpoints: the one to the magnitude
below and the one to the magnitude above. On a midpoint the even magnitude has it. This is said in
whole numbers, for a quotient `numerator / denominator` of units, with both sides multiplied out:
`AtLeast` for the midpoint below and `AtMost` for the one above. The remainder of the magnitude by
two stands on the smaller side, so that the two sides may be equal only if the magnitude is even.

A magnitude is a number `significand` of steps of `2 ^ scale` units. From one to the next the value
grows by such a step, also from the last significand of one scale to the first of the next.

## Main results

* `Binary64.units_scaled`: the value of a magnitude, from its scale and its significand.
* `Binary64.strictMono_units`: magnitudes are in the order of their values.
* `Binary64.le_of_atLeast_of_atMost`: no quotient is read as two magnitudes.
* `Decimal.atLeast_nearestMagnitude`, `Decimal.atMost_nearestMagnitude`: the magnitude that is read
  is the one between whose midpoints the decimal lies.
-/

namespace LoxLexer

/-! ## Rounding a quotient -/

section RoundHalfEven

variable {numerator denominator : Nat}

/-- A rounded quotient is at most half of one away from the quotient, and even when it is half of
one away. -/
theorem roundHalfEven_bounds (numerator : Nat) (h : 0 < denominator) :
    2 * (roundHalfEven numerator denominator * denominator) +
          roundHalfEven numerator denominator % 2 ≤ 2 * numerator + denominator ∧
      2 * numerator + roundHalfEven numerator denominator % 2 ≤
        2 * (roundHalfEven numerator denominator * denominator) + denominator := by
  have hDivide := Nat.div_add_mod' numerator denominator
  have hRest := Nat.mod_lt numerator h
  simp only [roundHalfEven]
  generalize numerator / denominator = below at *
  generalize numerator % denominator = rest at *
  cases hCompare : compare (2 * rest) denominator with
  | lt =>
    have hLess := Nat.compare_eq_lt.1 hCompare
    simp only
    omega
  | eq =>
    have hHalf := Nat.compare_eq_eq.1 hCompare
    simp only
    -- The even one of the two neighbours is taken.
    rcases Nat.mod_two_eq_zero_or_one below with hEven | hOdd
    · rw [hEven, Nat.add_zero, hEven]
      omega
    · rw [hOdd, Nat.add_mul, Nat.one_mul]
      omega
  | gt =>
    have hMore := Nat.compare_eq_gt.1 hCompare
    simp only
    rw [Nat.add_mul, Nat.one_mul]
    omega

theorem le_roundHalfEven {n : Nat} (h : 0 < denominator) (hLe : n * denominator ≤ numerator) :
    n ≤ roundHalfEven numerator denominator := by
  have hBelow : n ≤ numerator / denominator := (Nat.le_div_iff_mul_le h).2 hLe
  simp only [roundHalfEven]
  split <;> omega

theorem roundHalfEven_le {n : Nat} (h : 0 < denominator) (hLe : numerator ≤ n * denominator) :
    roundHalfEven numerator denominator ≤ n := by
  rcases Nat.eq_or_lt_of_le hLe with hWhole | hLess
  · rw [hWhole, roundHalfEven_of_dvd h (Nat.dvd_mul_left _ _), Nat.mul_div_cancel _ h]
  · have hBelow : numerator / denominator < n := (Nat.div_lt_iff_lt_mul h).2 hLess
    simp only [roundHalfEven]
    split <;> omega

end RoundHalfEven

namespace Binary64

/-! ## Scales and significands -/

/-- The value of a magnitude is its significand, moved up by its scale. Only the significands of the
first scale may be small. The last significand of a scale is the first of the next. -/
theorem units_scaled {scale significand : Nat} (hLow : scale = 0 ∨ 2 ^ 52 ≤ significand)
    (hHigh : significand ≤ 2 ^ 53) :
    units (scale * 2 ^ 52 + significand) = significand * 2 ^ scale := by
  rcases Nat.lt_or_ge significand (2 ^ 52) with hSmall | hLarge
  · obtain rfl : scale = 0 := hLow.resolve_right (Nat.not_le.2 hSmall)
    rw [Nat.zero_mul, Nat.zero_add, units_of_lt hSmall, Nat.pow_zero, Nat.mul_one]
  rcases Nat.lt_or_ge significand (2 ^ 53) with hInner | hLast
  · have hExponent : (scale * 2 ^ 52 + significand) >>> 52 = scale + 1 := by
      rw [Nat.shiftRight_eq_div_pow]
      omega
    have hFraction : (scale * 2 ^ 52 + significand) % 0x10000000000000 = significand - 2 ^ 52 := by
      omega
    have hHidden : 0x10000000000000 + (significand - 2 ^ 52) = significand := by omega
    simp only [units]
    rw [hExponent, hFraction, hHidden, if_neg (Nat.succ_ne_zero scale), Nat.shiftLeft_eq,
      Nat.add_sub_cancel]
  · obtain rfl : significand = 2 ^ 53 := Nat.le_antisymm hHigh hLast
    have hExponent : (scale * 2 ^ 52 + 2 ^ 53) >>> 52 = scale + 2 := by
      rw [Nat.shiftRight_eq_div_pow]
      omega
    have hFraction : (scale * 2 ^ 52 + 2 ^ 53) % 0x10000000000000 = 0 := by omega
    simp only [units]
    rw [hExponent, hFraction, if_neg (Nat.succ_ne_zero _), Nat.shiftLeft_eq]
    show 2 ^ 52 * 2 ^ (scale + 1) = 2 ^ 53 * 2 ^ scale
    ring

/-- The value of a magnitude over a denominator, in steps of its scale. -/
theorem units_scaled_mul {scale significand : Nat} (hLow : scale = 0 ∨ 2 ^ 52 ≤ significand)
    (hHigh : significand ≤ 2 ^ 53) (denominator : Nat) :
    units (scale * 2 ^ 52 + significand) * denominator =
      significand * (denominator * 2 ^ scale) := by
  rw [units_scaled hLow hHigh]
  ring

/-- Every magnitude has a scale and a significand. -/
theorem exists_scaled (magnitude : Nat) :
    ∃ scale significand, magnitude = scale * 2 ^ 52 + significand ∧
      (scale = 0 ∨ 2 ^ 52 ≤ significand) ∧ significand < 2 ^ 53 := by
  refine ⟨magnitude / 2 ^ 52 - 1, magnitude - (magnitude / 2 ^ 52 - 1) * 2 ^ 52, ?_, ?_, ?_⟩
  all_goals omega

theorem units_lt_units_succ (magnitude : Nat) : units magnitude < units (magnitude + 1) := by
  obtain ⟨scale, significand, rfl, hLow, hHigh⟩ := exists_scaled magnitude
  have hLow' : scale = 0 ∨ 2 ^ 52 ≤ significand + 1 := by omega
  rw [Nat.add_assoc, units_scaled hLow (Nat.le_of_lt hHigh), units_scaled hLow' hHigh]
  exact Nat.mul_lt_mul_of_pos_right (Nat.lt_succ_self significand) (Nat.two_pow_pos scale)

/-- Magnitudes are in the order of their values. -/
theorem strictMono_units : StrictMono units := strictMono_nat_of_lt_succ units_lt_units_succ

/-! ## Midpoints -/

/-- The quotient is not nearer to the magnitude below, and on the midpoint to it only if the
magnitude is even. -/
def AtLeast (numerator denominator magnitude : Nat) : Prop :=
  (units (magnitude - 1) + units magnitude) * denominator + magnitude % 2 ≤ 2 * numerator

/-- The quotient is not nearer to the magnitude above, and on the midpoint to it only if the
magnitude is even. -/
def AtMost (numerator denominator magnitude : Nat) : Prop :=
  2 * numerator + magnitude % 2 ≤ (units magnitude + units (magnitude + 1)) * denominator

variable {numerator denominator magnitude : Nat}

/-- The midpoints below a magnitude rise with it. -/
theorem add_units_le_add_units {m n : Nat} (h : m ≤ n) :
    units (m - 1) + units m ≤ units (n - 1) + units n :=
  Nat.add_le_add (strictMono_units.monotone (Nat.sub_le_sub_right h 1))
    (strictMono_units.monotone h)

/-- A quotient that reaches a magnitude and does not get beyond another: the first is no larger. -/
theorem le_of_atLeast_of_atMost {m n : Nat} (hDenominator : 0 < denominator)
    (hLeast : AtLeast numerator denominator m) (hMost : AtMost numerator denominator n) : m ≤ n := by
  by_contra hLess
  simp only [AtLeast, AtMost] at hLeast hMost
  rcases Nat.lt_or_ge (n + 1) m with hBeyond | hNext
  · have hMidpoint : units n + units (n + 1) < units (m - 1) + units m :=
      Nat.add_lt_add (strictMono_units (by omega)) (strictMono_units hBeyond)
    have hProduct := Nat.mul_lt_mul_of_pos_right hMidpoint hDenominator
    omega
  · -- Of two neighbours one is odd, and does not have the midpoint between them.
    obtain rfl : m = n + 1 := by omega
    rw [Nat.add_sub_cancel] at hLeast
    omega

section Scaled

variable {scale significand : Nat}

/-- A significand that is not rounded up by more than half a step is not beyond the midpoint below
its magnitude. At the first significand of a scale the step below is the shorter one of the scale
before, and the quotient has to be known not to reach down there. -/
theorem atLeast_scaled (hLarge : scale = 0 ∨ 2 ^ 52 ≤ significand) (hSmall : significand ≤ 2 ^ 53)
    (hLow : scale = 0 ∨ 2 ^ 52 * (denominator * 2 ^ scale) ≤ numerator)
    (hRounded : 2 * (significand * (denominator * 2 ^ scale)) + significand % 2 ≤
      2 * numerator + denominator * 2 ^ scale) :
    AtLeast numerator denominator (scale * 2 ^ 52 + significand) := by
  have hParity : (scale * 2 ^ 52 + significand) % 2 = significand % 2 := by omega
  have hValue := units_scaled_mul hLarge hSmall denominator
  rw [AtLeast, hParity, Nat.add_mul, hValue]
  by_cases hInner : significand ≠ 0 ∧ (scale = 0 ∨ 2 ^ 52 < significand)
  · -- The magnitude below is of the same scale.
    obtain ⟨below, rfl⟩ : ∃ below, significand = below + 1 := ⟨significand - 1, by omega⟩
    have hNext : scale * 2 ^ 52 + (below + 1) - 1 = scale * 2 ^ 52 + below := by omega
    have hNextLarge : scale = 0 ∨ 2 ^ 52 ≤ below := hInner.2.imp_right Nat.le_of_lt_succ
    rw [hNext, units_scaled_mul hNextLarge (Nat.le_of_succ_le hSmall)]
    rw [Nat.succ_mul below] at hRounded ⊢
    omega
  · have hFirst : significand * (denominator * 2 ^ scale) ≤ numerator := by
      rcases Nat.eq_zero_or_pos significand with rfl | hPos
      · rw [Nat.zero_mul]
        exact Nat.zero_le numerator
      · obtain rfl : significand = 2 ^ 52 := by omega
        exact hLow.resolve_left (by omega)
    have hEven : significand % 2 = 0 := by omega
    have hNext : units (scale * 2 ^ 52 + significand - 1) * denominator ≤
        significand * (denominator * 2 ^ scale) := by
      rw [← hValue]
      exact Nat.mul_le_mul_right _ (strictMono_units.monotone (Nat.sub_le _ 1))
    omega

/-- A significand that is not rounded down by more than half a step is not beyond the midpoint above
its magnitude. The step above is never shorter. -/
theorem atMost_scaled (hLarge : scale = 0 ∨ 2 ^ 52 ≤ significand) (hSmall : significand ≤ 2 ^ 53)
    (hHigh : numerator < 2 ^ 53 * (denominator * 2 ^ scale))
    (hRounded : 2 * numerator + significand % 2 ≤
      2 * (significand * (denominator * 2 ^ scale)) + denominator * 2 ^ scale) :
    AtMost numerator denominator (scale * 2 ^ 52 + significand) := by
  have hParity : (scale * 2 ^ 52 + significand) % 2 = significand % 2 := by omega
  have hValue := units_scaled_mul hLarge hSmall denominator
  rw [AtMost, hParity, Nat.add_mul, hValue]
  rcases Nat.lt_or_ge significand (2 ^ 53) with hInner | hLast
  · -- The magnitude above is of the same scale.
    have hNextLarge : scale = 0 ∨ 2 ^ 52 ≤ significand + 1 := hLarge.imp_right Nat.le_succ_of_le
    rw [Nat.add_assoc, units_scaled_mul hNextLarge hInner, Nat.succ_mul significand]
    omega
  · obtain rfl : significand = 2 ^ 53 := Nat.le_antisymm hSmall hLast
    have hNext : 2 ^ 53 * (denominator * 2 ^ scale) ≤
        units (scale * 2 ^ 52 + 2 ^ 53 + 1) * denominator := by
      rw [← hValue]
      exact Nat.mul_le_mul_right _ (strictMono_units.monotone (Nat.le_succ _))
    omega

/-- A rounded number of steps is the magnitude between whose midpoints the quotient lies. The steps
have to be those of the scale on which the quotient stands. -/
theorem between_midpoints (hDenominator : 0 < denominator)
    (hLow : scale = 0 ∨ 2 ^ 52 * (denominator * 2 ^ scale) ≤ numerator)
    (hHigh : numerator < 2 ^ 53 * (denominator * 2 ^ scale)) :
    AtLeast numerator denominator
        (scale * 2 ^ 52 + roundHalfEven numerator (denominator * 2 ^ scale)) ∧
      AtMost numerator denominator
        (scale * 2 ^ 52 + roundHalfEven numerator (denominator * 2 ^ scale)) := by
  have hStep : 0 < denominator * 2 ^ scale := Nat.mul_pos hDenominator (Nat.two_pow_pos scale)
  obtain ⟨hBelow, hAbove⟩ := roundHalfEven_bounds numerator hStep
  have hSmall := roundHalfEven_le hStep (Nat.le_of_lt hHigh)
  have hLarge := hLow.imp_right (le_roundHalfEven hStep)
  exact ⟨atLeast_scaled hLarge hSmall hLow hBelow, atMost_scaled hLarge hSmall hHigh hAbove⟩

end Scaled

/-- The scale on which a quotient stands: what its whole part has more than 53 binary digits. -/
theorem scale_bounds (numerator : Nat) (hDenominator : 0 < denominator) :
    ((numerator / denominator).log2 - 52 = 0 ∨
        2 ^ 52 * (denominator * 2 ^ ((numerator / denominator).log2 - 52)) ≤ numerator) ∧
      numerator < 2 ^ 53 * (denominator * 2 ^ ((numerator / denominator).log2 - 52)) := by
  generalize hScale : (numerator / denominator).log2 - 52 = scale
  constructor
  · by_cases hFirst : scale = 0
    · exact .inl hFirst
    right
    have hSome : numerator / denominator ≠ 0 := by
      intro hNone
      simp [hNone] at hScale
      omega
    have hDigits : (numerator / denominator).log2 = 52 + scale := by omega
    have hWhole := Nat.log2_self_le hSome
    rw [hDigits, Nat.le_div_iff_mul_le hDenominator, Nat.pow_add] at hWhole
    calc
      2 ^ 52 * (denominator * 2 ^ scale) = 2 ^ 52 * 2 ^ scale * denominator := by ring
      _ ≤ numerator := hWhole
  · have hWhole : numerator / denominator < 2 ^ (53 + scale) :=
      Nat.lt_of_lt_of_le Nat.lt_log2_self (Nat.pow_le_pow_right (by decide) (by omega))
    rw [Nat.div_lt_iff_lt_mul hDenominator, Nat.pow_add] at hWhole
    calc
      numerator < 2 ^ 53 * 2 ^ scale * denominator := hWhole
      _ = 2 ^ 53 * (denominator * 2 ^ scale) := by ring

end Binary64

namespace Decimal

open Binary64

/-- The number of units of a decimal, over the denominator of the decimal. -/
def counted (d : Decimal) : Nat := d.coefficient <<< 1074

theorem counted_eq (d : Decimal) {n : Nat} (h : n = 1074) : d.counted = d.coefficient * 2 ^ n := by
  have hShift : d.counted = d.coefficient <<< 1074 := rfl
  rw [hShift, ← h, Nat.shiftLeft_eq]

/-- A magnitude is read between whose midpoints the decimal lies, except that all above the finite
magnitudes is infinity. -/
theorem exists_nearestMagnitude_eq (d : Decimal) :
    ∃ magnitude, d.nearestMagnitude = min magnitude infinity ∧
      AtLeast d.counted (10 ^ d.places) magnitude ∧ AtMost d.counted (10 ^ d.places) magnitude := by
  have hDenominator : 0 < 10 ^ d.places := Nat.pow_pos (by decide)
  obtain ⟨hLow, hHigh⟩ := scale_bounds d.counted hDenominator
  refine ⟨_, ?_, between_midpoints hDenominator hLow hHigh⟩
  unfold nearestMagnitude
  dsimp only
  rw [Nat.shiftLeft_eq _ 52, Nat.shiftLeft_eq (Nat.pow 10 d.places)]
  rfl

/-- A decimal is not nearer to the magnitude below the one that is read. -/
theorem atLeast_nearestMagnitude (d : Decimal) :
    AtLeast d.counted (10 ^ d.places) d.nearestMagnitude := by
  obtain ⟨magnitude, hRead, hLeast, -⟩ := d.exists_nearestMagnitude_eq
  rw [hRead]
  rcases Nat.le_total magnitude infinity with hFinite | hInfinite
  · rwa [Nat.min_eq_left hFinite]
  · rw [Nat.min_eq_right hInfinite]
    have hMidpoint :=
      Nat.mul_le_mul_right (10 ^ d.places) (add_units_le_add_units hInfinite)
    have hEven : infinity % 2 = 0 := by decide
    simp only [AtLeast] at hLeast ⊢
    omega

/-- A decimal is not nearer to the magnitude above the one that is read, if that is finite. -/
theorem atMost_nearestMagnitude {d : Decimal} (hFinite : d.nearestMagnitude < infinity) :
    AtMost d.counted (10 ^ d.places) d.nearestMagnitude := by
  obtain ⟨magnitude, hRead, -, hMost⟩ := d.exists_nearestMagnitude_eq
  obtain rfl : magnitude = d.nearestMagnitude := by omega
  exact hMost

/-- A decimal between the midpoints of a finite magnitude is read as that magnitude. -/
theorem nearestMagnitude_eq {d : Decimal} {magnitude : Nat} (hFinite : magnitude < infinity)
    (hLeast : AtLeast d.counted (10 ^ d.places) magnitude)
    (hMost : AtMost d.counted (10 ^ d.places) magnitude) : d.nearestMagnitude = magnitude := by
  have hDenominator : 0 < 10 ^ d.places := Nat.pow_pos (by decide)
  have hLe := le_of_atLeast_of_atMost hDenominator d.atLeast_nearestMagnitude hMost
  have hRead := atMost_nearestMagnitude (Nat.lt_of_le_of_lt hLe hFinite)
  exact Nat.le_antisymm hLe (le_of_atLeast_of_atMost hDenominator hLeast hRead)

end Decimal

end LoxLexer
