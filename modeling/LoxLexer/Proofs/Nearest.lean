import LoxLexer.Proofs.Magnitudes
import LoxLexer.Proofs.RoundTrip
import Mathlib.Algebra.Order.Field.Rat
import Mathlib.Data.Rat.Cast.Order
import Mathlib.Tactic.FieldSimp
import Mathlib.Tactic.Linarith
import Mathlib.Tactic.NormNum

/-!
# Number literals are the nearest numbers

The number that a numeral denotes is a rational number, and a finite datum stands for one. So it can
be said without magnitudes or midpoints what the literal of a number has to be: the finite datum at
the least distance, of two at the same distance the even one, and infinity from the number on that
is halfway between the largest finite datum and the next power of two.

Only one datum meets this, the one that is read. It is never negative and always a number, and so
every stream of tokens is equal to itself.

## Main definitions

* `Binary64.value`, `Decimal.value`: the numbers that data and decimals stand for.
* `Binary64.IsNearest`: a datum is what a number rounds to.
* `Text.numeralValue`: the number that a numeral denotes.

## Main results

* `Decimal.isNearest_nearest`, `Binary64.IsNearest.eq`: a decimal is read as the one datum that it
  rounds to.
* `Scan.numbers_are_nearest`: the literals of the numbers of a text.
-/

namespace LoxLexer

open Text

/-- Of two numbers with a third on the side of the first of the midpoint between them, the first is
no further away. -/
theorem abs_sub_le_abs_sub_of_midpoint {q x y : ℚ} (hBelow : y < x → x + y ≤ 2 * q)
    (hAbove : x < y → 2 * q ≤ x + y) : |q - x| ≤ |q - y| := by
  rcases lt_trichotomy y x with hLess | rfl | hMore
  · have hMidpoint := hBelow hLess
    rw [abs_of_nonneg (a := q - y) (by linarith), abs_le]
    constructor <;> linarith
  · exact le_rfl
  · have hMidpoint := hAbove hMore
    rw [abs_of_nonpos (a := q - y) (by linarith), abs_le]
    constructor <;> linarith

/-- A number at the same distance from two others is their midpoint. -/
theorem add_eq_of_abs_sub_eq {q x y : ℚ} (hNe : y ≠ x) (h : |q - y| = |q - x|) :
    x + y = 2 * q := by
  rcases abs_eq_abs.1 h with hSame | hOpposite
  · exact absurd (by linarith) hNe
  · linarith

namespace Binary64

/-! ## Values -/

/-- The least positive number that a datum stands for. -/
def unit : ℚ := 2 ^ (-1074 : ℤ)

theorem unit_pos : 0 < unit := zpow_pos (by norm_num) _

/-- A power of two in units. -/
theorem two_pow_mul_unit (n : Nat) : (2 : ℚ) ^ (n + 1074) * unit = 2 ^ n := by
  rw [unit, pow_add, zpow_neg, mul_assoc, ← zpow_natCast (2 : ℚ) 1074]
  rw [Nat.cast_ofNat, mul_inv_cancel₀ (zpow_ne_zero _ two_ne_zero), mul_one]

theorem two_pow_1074_mul_unit : (2 : ℚ) ^ 1074 * unit = 1 :=
  (two_pow_mul_unit 0).trans (pow_zero 2)

/-- The number that a finite datum stands for. -/
def value (x : Binary64) : ℚ :=
  if x.negative then -(units x.magnitude * unit) else units x.magnitude * unit

/-- What a number that is not negative rounds to. Up to the point halfway between the largest finite
number and the next power of two this is the nearest number, and of two that are equally near the
one with the even significand. From there on it is infinity. -/
structure IsNearest (x : Binary64) (q : ℚ) : Prop where
  isNaN : x.isNaN = false
  negative : x.negative = false
  isInfinite_iff : x.isInfinite = true ↔ 2 ^ 1024 - 2 ^ 970 ≤ q
  distance_le : x.isFinite = true → ∀ y : Binary64, y.isFinite = true →
    |q - x.value| ≤ |q - y.value|
  even_of_tie : x.isFinite = true → ∀ y : Binary64, y.isFinite = true → y.value ≠ x.value →
    |q - y.value| = |q - x.value| → x.magnitude % 2 = 0

theorem value_of_negative_eq_false {x : Binary64} (h : x.negative = false) :
    x.value = units x.magnitude * unit := by
  rw [value, h]
  rfl

theorem units_mul_unit_le {m n : Nat} (h : m ≤ n) : (units m : ℚ) * unit ≤ units n * unit := by
  have hUnits : (units m : ℚ) ≤ units n := by exact_mod_cast strictMono_units.monotone h
  exact mul_le_mul_of_nonneg_right hUnits unit_pos.le

theorem units_mul_unit_lt {m n : Nat} (h : m < n) : (units m : ℚ) * unit < units n * unit := by
  have hUnits : (units m : ℚ) < units n := by exact_mod_cast strictMono_units h
  exact mul_lt_mul_of_pos_right hUnits unit_pos

theorem lt_of_units_mul_unit_lt {m n : Nat} (h : (units m : ℚ) * unit < units n * unit) :
    m < n := by
  by_contra hNot
  exact absurd (units_mul_unit_le (Nat.not_lt.1 hNot)) (not_le.2 h)

theorem units_mul_unit_nonneg (magnitude : Nat) : (0 : ℚ) ≤ units magnitude * unit :=
  mul_nonneg (Nat.cast_nonneg _) unit_pos.le

/-- A datum below another that is not negative is no larger than the next magnitude below. -/
theorem value_le_of_value_lt {x y : Binary64} (hNegative : x.negative = false)
    (h : y.value < x.value) : y.value ≤ units (x.magnitude - 1) * unit := by
  rw [value_of_negative_eq_false hNegative] at h
  cases hSign : y.negative with
  | true =>
    rw [value, hSign, if_pos rfl]
    have hLeft := units_mul_unit_nonneg y.magnitude
    have hRight := units_mul_unit_nonneg (x.magnitude - 1)
    linarith
  | false =>
    rw [value_of_negative_eq_false hSign] at h ⊢
    exact units_mul_unit_le (Nat.le_sub_one_of_lt (lt_of_units_mul_unit_lt h))

/-- A datum above another that is not negative is no smaller than the next magnitude above. -/
theorem le_value_of_lt_value {x y : Binary64} (hNegative : x.negative = false)
    (h : x.value < y.value) : units (x.magnitude + 1) * unit ≤ y.value := by
  rw [value_of_negative_eq_false hNegative] at h
  cases hSign : y.negative with
  | true =>
    rw [value, hSign, if_pos rfl] at h
    have hLeft := units_mul_unit_nonneg y.magnitude
    have hRight := units_mul_unit_nonneg x.magnitude
    linarith
  | false =>
    rw [value_of_negative_eq_false hSign] at h ⊢
    exact units_mul_unit_le (lt_of_units_mul_unit_lt h)

theorem units_scaled_mul_unit {scale significand : Nat}
    (hLow : scale = 0 ∨ 2 ^ 52 ≤ significand) (hHigh : significand ≤ 2 ^ 53) :
    (units (scale * 2 ^ 52 + significand) : ℚ) * unit = significand * (2 ^ scale * unit) := by
  rw [units_scaled hLow hHigh, Nat.cast_mul, Nat.cast_pow, Nat.cast_ofNat, mul_assoc]

/-- The point from which on numbers round to infinity, as a midpoint. -/
theorem overflow_midpoint :
    ((units (infinity - 1) : ℚ) + units infinity) * unit = 2 * (2 ^ 1024 - 2 ^ 970) := by
  have hLast : infinity - 1 = (971 + 1074) * 2 ^ 52 + 9007199254740991 := by decide
  have hNext : infinity = (972 + 1074) * 2 ^ 52 + 4503599627370496 := by decide
  have hLastValue : (units (infinity - 1) : ℚ) * unit = 9007199254740991 * 2 ^ 971 := by
    rw [hLast, units_scaled_mul_unit (.inr (by decide)) (by decide), two_pow_mul_unit,
      Nat.cast_ofNat]
  have hNextValue : (units infinity : ℚ) * unit = 4503599627370496 * 2 ^ 972 := by
    rw [hNext, units_scaled_mul_unit (.inr (by decide)) (by decide), two_pow_mul_unit,
      Nat.cast_ofNat]
  have hPower : (2 : ℚ) ^ 1024 = 18014398509481984 * 2 ^ 970 := by
    rw [pow_add 2 54 970]
    norm_num
  rw [add_mul, hLastValue, hNextValue, hPower, pow_succ (2 : ℚ) 971, pow_succ (2 : ℚ) 970]
  generalize (2 : ℚ) ^ 970 = power
  ring

theorem isFinite_of_isNaN_of_isInfinite {x : Binary64} (hNaN : x.isNaN = false)
    (hInfinite : x.isInfinite = false) : x.isFinite = true := by
  simp only [isNaN, isInfinite, isFinite, decide_eq_false_iff_not, beq_eq_false_iff_ne,
    decide_eq_true_eq] at *
  omega

theorem value_injective {x y : Binary64} (hx : x.negative = false) (hy : y.negative = false)
    (h : x.value = y.value) : x = y := by
  rw [value_of_negative_eq_false hx, value_of_negative_eq_false hy] at h
  have hUnits := mul_right_cancel₀ unit_pos.ne' h
  have hMagnitude := strictMono_units.injective (by exact_mod_cast hUnits)
  cases x
  cases y
  simp_all

/-- Between two data with even significands there is one with an odd significand. -/
theorem exists_value_between {x y : Binary64} (hx : x.negative = false) (hy : y.negative = false)
    (hxEven : x.magnitude % 2 = 0) (hyEven : y.magnitude % 2 = 0) (hFinite : y.isFinite = true)
    (h : x.value < y.value) :
    ∃ z : Binary64, z.isFinite = true ∧ x.value < z.value ∧ z.value < y.value := by
  rw [value_of_negative_eq_false hx, value_of_negative_eq_false hy] at *
  have hApart := lt_of_units_mul_unit_lt h
  have hBound : y.magnitude < infinity := of_decide_eq_true hFinite
  have hLater := y.magnitude_lt
  refine ⟨⟨false, x.magnitude + 1, by omega⟩, ?_, ?_, ?_⟩
  · exact decide_eq_true (show x.magnitude + 1 < infinity by omega)
  · rw [value_of_negative_eq_false rfl]
    exact units_mul_unit_lt (Nat.lt_succ_self _)
  · rw [value_of_negative_eq_false rfl]
    exact units_mul_unit_lt (show x.magnitude + 1 < y.magnitude by omega)

/-- Of two finite data to which a number rounds none is above the other: both would be even, and the
odd one next to the lower one would be nearer. -/
theorem IsNearest.value_le {x y : Binary64} {q : ℚ} (hx : x.IsNearest q) (hy : y.IsNearest q)
    (hxFinite : x.isFinite = true) (hyFinite : y.isFinite = true) : y.value ≤ x.value := by
  by_contra hNot
  have hLess : x.value < y.value := not_le.1 hNot
  have hTie : |q - y.value| = |q - x.value| :=
    le_antisymm (hy.distance_le hyFinite x hxFinite) (hx.distance_le hxFinite y hyFinite)
  have hMidpoint := add_eq_of_abs_sub_eq hLess.ne' hTie
  have hxEven := hx.even_of_tie hxFinite y hyFinite hLess.ne' hTie
  have hyEven := hy.even_of_tie hyFinite x hxFinite hLess.ne hTie.symm
  obtain ⟨between, hBetween, hBelow, hAbove⟩ :=
    exists_value_between hx.negative hy.negative hxEven hyEven hyFinite hLess
  have hNearer := hx.distance_le hxFinite between hBetween
  rw [abs_of_nonneg (a := q - x.value) (by linarith), le_abs'] at hNearer
  rcases hNearer with hLeft | hRight <;> linarith

/-- No number rounds to two data. -/
theorem IsNearest.eq {x y : Binary64} {q : ℚ} (hx : x.IsNearest q) (hy : y.IsNearest q) :
    x = y := by
  by_cases hOverflow : 2 ^ 1024 - 2 ^ 970 ≤ q
  · have hxMagnitude := beq_iff_eq.1 (hx.isInfinite_iff.2 hOverflow)
    have hyMagnitude := beq_iff_eq.1 (hy.isInfinite_iff.2 hOverflow)
    refine value_injective hx.negative hy.negative ?_
    rw [value_of_negative_eq_false hx.negative, value_of_negative_eq_false hy.negative,
      hxMagnitude, hyMagnitude]
  · have hxFinite := isFinite_of_isNaN_of_isInfinite hx.isNaN
      (Bool.eq_false_iff.2 fun h => hOverflow (hx.isInfinite_iff.1 h))
    have hyFinite := isFinite_of_isNaN_of_isInfinite hy.isNaN
      (Bool.eq_false_iff.2 fun h => hOverflow (hy.isInfinite_iff.1 h))
    exact value_injective hx.negative hy.negative
      (le_antisymm (hy.value_le hx hyFinite hxFinite) (hx.value_le hy hxFinite hyFinite))

end Binary64

namespace Decimal

open Binary64

theorem cast_shiftLeft (m n : Nat) : ((m <<< n : Nat) : ℚ) = m * 2 ^ n := by
  rw [Nat.shiftLeft_eq, Nat.cast_mul, Nat.cast_pow, Nat.cast_ofNat]

/-- The number that a decimal stands for. -/
def value (d : Decimal) : ℚ := d.coefficient / 10 ^ d.places

/-- The number of one count, when the units of a decimal are counted over its denominator. -/
def count (d : Decimal) : ℚ := unit / 10 ^ d.places

theorem count_pos (d : Decimal) : 0 < d.count := div_pos unit_pos (pow_pos (by norm_num) _)

theorem denominator_mul_count (d : Decimal) : (10 ^ d.places : Nat) * d.count = unit := by
  rw [count, Nat.cast_pow, Nat.cast_ofNat]
  exact mul_div_cancel₀ unit (pow_ne_zero _ (by norm_num))

theorem cast_counted (d : Decimal) : (d.counted : ℚ) = d.coefficient * 2 ^ 1074 :=
  cast_shiftLeft _ _

theorem counted_mul_count (d : Decimal) : d.counted * d.count = d.value := by
  rw [cast_counted, count, value, mul_div_assoc', mul_assoc, two_pow_1074_mul_unit, mul_one]

/-- A decimal does not lie below the midpoint below a magnitude. -/
theorem atLeast_iff {d : Decimal} {magnitude : Nat} :
    AtLeast d.counted (10 ^ d.places) magnitude ↔
      ((units (magnitude - 1) : ℚ) + units magnitude) * unit + (magnitude % 2 : Nat) * d.count ≤
        2 * d.value := by
  rw [← d.denominator_mul_count, ← d.counted_mul_count, ← mul_assoc, ← mul_assoc, ← add_mul,
    mul_le_mul_iff_left₀ d.count_pos]
  exact_mod_cast Iff.rfl

/-- A decimal does not lie above the midpoint above a magnitude. -/
theorem atMost_iff {d : Decimal} {magnitude : Nat} :
    AtMost d.counted (10 ^ d.places) magnitude ↔
      2 * d.value + (magnitude % 2 : Nat) * d.count ≤
        ((units magnitude : ℚ) + units (magnitude + 1)) * unit := by
  rw [← d.denominator_mul_count, ← d.counted_mul_count, ← mul_assoc, ← mul_assoc, ← add_mul,
    mul_le_mul_iff_left₀ d.count_pos]
  exact_mod_cast Iff.rfl

/-- The decimals that are read as infinity. -/
theorem nearestMagnitude_eq_infinity_iff {d : Decimal} :
    d.nearestMagnitude = infinity ↔ 2 ^ 1024 - 2 ^ 970 ≤ d.value := by
  have hEven : ((infinity % 2 : Nat) : ℚ) = 0 := by norm_num [infinity]
  have hReaches : AtLeast d.counted (10 ^ d.places) infinity ↔ 2 ^ 1024 - 2 ^ 970 ≤ d.value := by
    rw [atLeast_iff, overflow_midpoint, hEven, zero_mul, add_zero,
      mul_le_mul_iff_right₀ (by norm_num)]
  rw [← hReaches]
  constructor
  · intro hRead
    rw [← hRead]
    exact d.atLeast_nearestMagnitude
  · intro hLeast
    by_contra hNot
    have hFinite := Nat.lt_of_le_of_ne d.nearestMagnitude_le hNot
    have hLe := le_of_atLeast_of_atMost (Nat.pow_pos (by decide)) hLeast
      (atMost_nearestMagnitude hFinite)
    omega

theorem value_nearest (d : Decimal) : d.nearest.value = units d.nearestMagnitude * unit :=
  value_of_negative_eq_false d.negative_nearest

/-- Below the datum that is read, the midpoint to any other is not above the decimal, and on it only
if the datum is even. -/
theorem value_add_le_of_value_lt {d : Decimal} {y : Binary64} (h : y.value < d.nearest.value) :
    d.nearest.value + y.value + (d.nearestMagnitude % 2 : Nat) * d.count ≤ 2 * d.value := by
  have hMidpoint := atLeast_iff.1 d.atLeast_nearestMagnitude
  have hBelow : y.value ≤ units (d.nearestMagnitude - 1) * unit :=
    value_le_of_value_lt (x := d.nearest) d.negative_nearest h
  have hHere := d.value_nearest
  linarith

/-- Above the datum that is read, the midpoint to any other is not below the decimal, and on it only
if the datum is even. -/
theorem le_value_add_of_lt_value {d : Decimal} {y : Binary64} (hFinite : d.nearest.isFinite = true)
    (h : d.nearest.value < y.value) :
    2 * d.value + (d.nearestMagnitude % 2 : Nat) * d.count ≤ d.nearest.value + y.value := by
  have hMidpoint := atMost_iff.1 (atMost_nearestMagnitude (of_decide_eq_true hFinite))
  have hAbove : units (d.nearestMagnitude + 1) * unit ≤ y.value :=
    le_value_of_lt_value (x := d.nearest) d.negative_nearest h
  have hHere := d.value_nearest
  linarith

/-- A decimal is read as the datum that it rounds to. -/
theorem isNearest_nearest (d : Decimal) : d.nearest.IsNearest d.value := by
  have hSlack : 0 ≤ (d.nearestMagnitude % 2 : Nat) * d.count :=
    mul_nonneg (Nat.cast_nonneg _) d.count_pos.le
  refine ⟨d.isNaN_nearest, d.negative_nearest, ?_, ?_, ?_⟩
  · rw [isInfinite, beq_iff_eq]
    exact nearestMagnitude_eq_infinity_iff
  · intro hFinite y _
    refine abs_sub_le_abs_sub_of_midpoint (fun hLess => ?_) (fun hMore => ?_)
    · have hMidpoint := value_add_le_of_value_lt hLess
      linarith
    · have hMidpoint := le_value_add_of_lt_value hFinite hMore
      linarith
  · intro hFinite y _ hNe hTie
    have hSame := add_eq_of_abs_sub_eq hNe hTie
    -- There is no room left for an odd magnitude.
    have hEven : (d.nearestMagnitude % 2 : Nat) * d.count ≤ 0 := by
      rcases lt_or_gt_of_ne hNe with hLess | hMore
      · have hMidpoint := value_add_le_of_value_lt hLess
        linarith
      · have hMidpoint := le_value_add_of_lt_value hFinite hMore
        linarith
    have hZero : ((d.nearestMagnitude % 2 : Nat) : ℚ) ≤ 0 :=
      nonpos_of_mul_nonpos_left hEven d.count_pos
    exact Nat.le_zero.1 (by exact_mod_cast hZero)

end Decimal

/-! ## Numerals -/

namespace Text

/-- The number that a numeral denotes: that of the digits in front of the point, and that of the
digits behind it over a power of ten. -/
def numeralValue (cs : List Char) : ℚ :=
  let whole := cs.takeWhile (· != '.')
  let fraction := (cs.dropWhile (· != '.')).drop 1
  Nat.ofDigitChars 10 whole 0 + Nat.ofDigitChars 10 fraction 0 / 10 ^ fraction.length

end Text

namespace Element

/-- The decimal of a number stands for what the text of the number denotes. -/
theorem numeralValue_numberText {whole fraction : List Char}
    (h : (number whole fraction).WellFormed) :
    numeralValue (numberText whole fraction) = (Decimal.ofDigits whole fraction).value := by
  have hWhole : '.' ∉ whole := by
    intro hPoint
    have hDigit := h.2.1 '.' hPoint
    simp at hDigit
  have hStop : (pointed fraction).head?.any (· != '.') = false := by
    cases fraction <;> rfl
  have hFraction : (pointed fraction).drop 1 = fraction := by
    cases fraction <;> rfl
  have hText : numberText whole fraction = whole ++ pointed fraction := rfl
  have hPow : (10 : ℚ) ^ fraction.length ≠ 0 := pow_ne_zero _ (by norm_num)
  simp only [numeralValue]
  rw [hText, takeWhile_append_of_stop (bne_of_not_mem hWhole) hStop,
    dropWhile_append_of_stop (bne_of_not_mem hWhole) hStop, hFraction, Decimal.value,
    Decimal.ofDigits]
  simp only
  rw [Nat.ofDigitChars_append,
    @Nat.ofDigitChars_eq_ofDigitChars_zero fraction (Nat.ofDigitChars 10 whole 0)]
  push_cast
  field_simp

end Element

/-! ## Tokens -/

namespace Token

/-- The literal of a well-formed number is what its lexeme rounds to. -/
theorem exists_isNearest_of_wellFormed {t : Token} (h : t.WellFormed) (hKind : t.kind = .number) :
    ∃ x : Binary64, t.literal = some (.number x) ∧ x.IsNearest (numeralValue t.lexeme.toList) := by
  rw [WellFormed, hKind] at h
  obtain ⟨hNumeral, d, hParse, hLiteral⟩ := h
  obtain ⟨whole, fraction, hForm, hText⟩ := Element.exists_number_of_isNumeral hNumeral
  rw [← hText, Element.parse?_numberText hForm] at hParse
  obtain rfl := Option.some.inj hParse
  refine ⟨_, hLiteral, ?_⟩
  rw [← hText, Element.numeralValue_numberText hForm]
  exact Decimal.isNearest_nearest _

/-- A well-formed token is equal to itself: its literal is a number if it is a datum at all. -/
theorem beq_self_of_wellFormed {t : Token} (h : t.WellFormed) : (t == t) = true := by
  have hLiteral : (t.literal == t.literal) = true := by
    obtain ⟨kind, lexeme, literal, line⟩ := t
    cases kind with
    | number =>
      obtain ⟨-, d, -, rfl⟩ := h
      exact (Binary64.beq_self _).trans (by rw [d.isNaN_nearest]; rfl)
    | string =>
      obtain ⟨body, -, -, rfl⟩ := h
      exact beq_self_eq_true body
    | punctuator _ | keyword _ =>
      obtain ⟨-, rfl⟩ := h
      rfl
    | identifier =>
      obtain ⟨-, -, rfl⟩ := h
      rfl
    | endOfText => exact absurd h id
  simp [beq_def, hLiteral]

theorem beq_self_endOfText (line : Nat) : (endOfText line == endOfText line) = true := by
  simp [beq_def, endOfText]

end Token

/-- A stream whose tokens are equal to themselves is equal to itself. -/
theorem TokenStream.beq_self_of_tokens {s : TokenStream} (h : ∀ t ∈ s.tokens, (t == t) = true) :
    (s == s) = true := by
  have hAll : ∀ t ∈ s.toList, (t == t) = true := by
    intro t hMem
    rcases List.mem_append.1 hMem with hToken | hEnd
    · exact h t hToken
    · rw [List.mem_singleton.1 hEnd]
      exact Token.beq_self_endOfText s.endLine
  change (s.toList == s.toList) = true
  generalize s.toList = ts at hAll
  induction ts with
  | nil => rfl
  | cons t ts ih =>
    rw [List.cons_beq_cons, hAll t List.mem_cons_self, Bool.true_and]
    exact ih fun u hu => hAll u (List.mem_cons_of_mem t hu)

namespace Scan

/-- The literal of a number is the datum that its lexeme rounds to, and only that: the nearest, of
two nearest the even one, and infinity from halfway above the largest finite number on. It is a
number and has no sign. And so the stream of a text is equal to itself. -/
theorem numbers_are_nearest (source : String) :
    (∀ t ∈ (ofSource source).stream.tokens, t.kind = .number →
      ∃ x : Binary64, t.literal = some (.number x) ∧ x.isNaN = false ∧ x.negative = false ∧
        ∀ y : Binary64, y.IsNearest (numeralValue t.lexeme.toList) ↔ y = x) ∧
      ((ofSource source).stream == (ofSource source).stream) = true := by
  constructor
  · intro t hMem hKind
    obtain ⟨x, hLiteral, hNearest⟩ :=
      Token.exists_isNearest_of_wellFormed (wellFormed_of_mem_tokens hMem) hKind
    refine ⟨x, hLiteral, hNearest.isNaN, hNearest.negative, fun y => ⟨fun hy => ?_, ?_⟩⟩
    · exact hy.eq hNearest
    · rintro rfl
      exact hNearest
  · refine TokenStream.beq_self_of_tokens fun t hMem => ?_
    exact Token.beq_self_of_wellFormed (wellFormed_of_mem_tokens hMem)

/-- The number is halfway between two data, of which the upper one is odd. -/
theorem numbers_are_nearest_halfway :
    (ofSource "9007199254740993").stream.tokens =
        [⟨.number, "9007199254740993", some (.number ⟨false, 0x4340000000000000, by decide⟩), 1⟩] ∧
      ∀ y : Binary64, y.IsNearest (numeralValue "9007199254740993".toList) ↔
        y = ⟨false, 0x4340000000000000, by decide⟩ := by
  have hTokens : (ofSource "9007199254740993").stream.tokens =
      [⟨.number, "9007199254740993", some (.number ⟨false, 0x4340000000000000, by decide⟩), 1⟩] := by
    decide +kernel
  obtain ⟨x, hLiteral, -, -, hNearest⟩ :=
    (numbers_are_nearest "9007199254740993").1 _ (by rw [hTokens]; exact List.mem_singleton_self _)
      rfl
  cases hLiteral
  exact ⟨hTokens, hNearest⟩

end Scan

end LoxLexer
