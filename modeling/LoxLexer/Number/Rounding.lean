import LoxLexer.Number.Binary64
import LoxLexer.Number.Decimal

/-!
# The nearest binary number to a decimal

A decimal of any length is read as the binary64 number nearest to it, and a decimal halfway
between two neighbours as the one whose magnitude is even. All arithmetic is on natural numbers,
so that no digit is lost before the one rounding step.

The decimal is counted in units of `2 ^ (-1074)`. A count below `2 ^ 53` is rounded to a whole
unit. A larger count has too many binary digits, and its excess over 53 digits is rounded away.
Either way the rounded quotient and the excess together *are* the magnitude: a carry out of the
fraction runs on into the exponent field, where it means the next power of two. What reaches past
the largest finite magnitude is infinity.

## Main results

* `roundHalfEven_of_dvd`: a whole quotient stays.
* `Decimal.nearestMagnitude_zero`: zero is read as zero.
* `Decimal.isNaN_nearest`: every decimal is read as a number.
-/

namespace LoxLexer

/-- The natural number nearest to `numerator / denominator`; of two equally near the even one. -/
def roundHalfEven (numerator denominator : Nat) : Nat :=
  let below := numerator / denominator
  match compare (2 * (numerator % denominator)) denominator with
  | .lt => below
  | .eq => below + below % 2
  | .gt => below + 1

theorem roundHalfEven_of_dvd {numerator denominator : Nat} (hPos : 0 < denominator)
    (h : denominator ∣ numerator) :
    roundHalfEven numerator denominator = numerator / denominator := by
  have hMod : numerator % denominator = 0 := Nat.mod_eq_zero_of_dvd h
  have hLt : compare (2 * (numerator % denominator)) denominator = .lt := by
    rw [hMod, Nat.compare_eq_lt]
    omega
  simp only [roundHalfEven, hLt]

theorem roundHalfEven_zero (denominator : Nat) : roundHalfEven 0 denominator = 0 := by
  cases denominator with
  | zero => rfl
  | succ n => simpa using roundHalfEven_of_dvd (Nat.succ_pos n) (Nat.dvd_zero (n + 1))

namespace Decimal

/-- The magnitude of the binary64 number nearest to a decimal. -/
def nearestMagnitude (d : Decimal) : Nat :=
  let counted := d.coefficient <<< 1074
  let denominator := Nat.pow 10 d.places
  let excess := (counted / denominator).log2 - 52
  min (excess <<< 52 + roundHalfEven counted (denominator <<< excess)) Binary64.infinity

theorem nearestMagnitude_le (d : Decimal) : d.nearestMagnitude ≤ Binary64.infinity :=
  Nat.min_le_right ..

/-- The binary64 number nearest to a decimal, which is never negative and never `NaN`. -/
def nearest (d : Decimal) : Binary64 where
  negative := false
  magnitude := d.nearestMagnitude
  magnitude_lt := Nat.lt_of_le_of_lt d.nearestMagnitude_le (by decide)

theorem negative_nearest (d : Decimal) : d.nearest.negative = false := rfl

theorem isNaN_nearest (d : Decimal) : d.nearest.isNaN = false := by
  simp only [Binary64.isNaN, decide_eq_false_iff_not, Nat.not_lt]
  exact d.nearestMagnitude_le

theorem nearestMagnitude_zero (places : Nat) : nearestMagnitude ⟨0, places⟩ = 0 := by
  simp only [nearestMagnitude, Nat.zero_shiftLeft, Nat.zero_div, roundHalfEven_zero]
  rfl

end Decimal

end LoxLexer
