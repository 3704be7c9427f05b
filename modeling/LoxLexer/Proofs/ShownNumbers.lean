import LoxLexer.Proofs.Magnitudes
import LoxLexer.Proofs.Sequence
import LoxLexer.Proofs.RoundTrip
import Mathlib.Tactic.Ring

/-!
# Numbers that are shown

The shortest decimal of a number is found on a grid, at a point of the interval from which numbers
are read as this one. So it is read back as the number. Its text is a numeral: digits, and behind a
point as many digits as the decimal has places. A scan finds one number there, and in front of it
the minus of a negative number, which stops in front of a digit.

## Main results

* `Neighbourhood.contains_search`: the search ends inside the interval.
* `Decimal.nearestMagnitude_of_contains`: what is inside the interval is read as the number.
* `Binary64.nearestMagnitude_shortest`: the shortest decimal of a number is read as the number.
* `Decimal.ofDigits_digits`, `Decimal.token?_element`: the digits of a decimal denote the decimal,
  and a number with these digits is the decimal.
* `Binary64.nearest_decimal`: the decimal in the text of a number is read as the number, less its
  sign.
* `Scan.ofSource_shown`: the scan of a number that is shown.
-/

namespace LoxLexer

open Text

/-! ## The search -/

namespace Neighbourhood

variable {n : Neighbourhood}

theorem contains_of_onGrid? {step m : Nat} (h : n.onGrid? step = some m) :
    n.contains (m * step) = true := by
  simp only [onGrid?] at h
  split at h
  · rename_i hBelow hAbove
    split at h <;> obtain rfl := Option.some.inj h
    · exact hBelow
    · exact hAbove
  · rename_i hBelow _
    obtain rfl := Option.some.inj h
    exact hBelow
  · rename_i _ hAbove
    obtain rfl := Option.some.inj h
    exact hAbove
  · simp at h

/-- The search ends inside the interval: on some grid, or at the number itself. -/
theorem contains_search (h : n.contains n.value = true) (j : Nat) :
    n.contains ((n.search j).1 * 10 ^ (n.search j).2) = true := by
  induction j with
  | zero => simpa [search] using h
  | succ j ih =>
    cases hGrid : n.onGrid? (Nat.pow 10 (j + 1)) with
    | none => simpa only [search, hGrid] using ih
    | some m =>
      simp only [search, hGrid]
      exact contains_of_onGrid? hGrid

/-- The ticks in half a unit. -/
@[irreducible] def halfUnit : Nat := Nat.pow 5 1075

/-! In these lemmas an exponent is a variable with a known value, so that no power is computed. -/

theorem halfUnit_eq {n : Nat} (h : n = 1075) : halfUnit = 5 ^ n := by
  unfold halfUnit
  rw [← h]
  rfl

theorem halfUnit_pos : 0 < halfUnit := by
  obtain ⟨n, h⟩ : ∃ n, n = 1075 := ⟨_, rfl⟩
  rw [halfUnit_eq h]
  exact Nat.pow_pos (by decide)

theorem low_ofMagnitude (magnitude : Nat) :
    (ofMagnitude magnitude).low =
      (Binary64.units (magnitude - 1) + Binary64.units magnitude) * halfUnit := by
  unfold halfUnit ofMagnitude
  dsimp only

theorem value_ofMagnitude (magnitude : Nat) :
    (ofMagnitude magnitude).value = 2 * Binary64.units magnitude * halfUnit := by
  unfold halfUnit ofMagnitude
  dsimp only

theorem high_ofMagnitude (magnitude : Nat) :
    (ofMagnitude magnitude).high =
      (Binary64.units magnitude + Binary64.units (magnitude + 1)) * halfUnit := by
  unfold halfUnit ofMagnitude
  dsimp only

/-- The interval, with both of its ends said alike: a point on an end is inside if the magnitude is
even. -/
theorem contains_ofMagnitude_iff {magnitude ticks : Nat} :
    (ofMagnitude magnitude).contains ticks = true ↔
      (Binary64.units (magnitude - 1) + Binary64.units magnitude) * halfUnit + magnitude % 2 ≤
          ticks ∧
        ticks + magnitude % 2 ≤
          (Binary64.units magnitude + Binary64.units (magnitude + 1)) * halfUnit := by
  have hClosed : (ofMagnitude magnitude).isClosed = (magnitude % 2 == 0) := rfl
  rw [contains, hClosed, low_ofMagnitude, high_ofMagnitude]
  rcases Nat.mod_two_eq_zero_or_one magnitude with hEven | hOdd
  · rw [hEven, if_pos (by decide), Bool.and_eq_true, decide_eq_true_eq, decide_eq_true_eq]
    exact Iff.rfl
  · rw [hOdd, if_neg (by decide), Bool.and_eq_true, decide_eq_true_eq, decide_eq_true_eq]
    exact Iff.rfl

/-- A number above zero lies between its neighbours. -/
theorem contains_value_ofMagnitude {magnitude : Nat} (h : 0 < magnitude) :
    (ofMagnitude magnitude).contains (ofMagnitude magnitude).value = true := by
  have hBelow : Binary64.units (magnitude - 1) < Binary64.units magnitude :=
    Binary64.strictMono_units (by omega)
  have hAbove := Binary64.units_lt_units_succ magnitude
  refine contains_value ?_ ?_
  · rw [low_ofMagnitude, value_ofMagnitude]
    exact Nat.mul_lt_mul_of_pos_right (by omega) halfUnit_pos
  · rw [value_ofMagnitude, high_ofMagnitude]
    exact Nat.mul_lt_mul_of_pos_right (by omega) halfUnit_pos

end Neighbourhood

/-! ## Reading back -/

namespace Decimal

open Binary64

/-- The ticks of a decimal, and its units over its denominator. -/
theorem counted_ofTicks_mul (m j : Nat) :
    2 * (ofTicks m j).counted * Neighbourhood.halfUnit =
      m * 10 ^ j * 10 ^ (ofTicks m j).places := by
  obtain ⟨n, hUnits⟩ : ∃ n, n = 1074 := ⟨_, rfl⟩
  have hTicks : n + 1 = 1075 := by omega
  have hCoefficient :
      (ofTicks m j).coefficient * 10 ^ (n + 1) = m * 10 ^ j * 10 ^ (ofTicks m j).places := by
    unfold ofTicks
    rw [← hTicks]
    split
    · rename_i hWhole
      show m * 10 ^ (j - (n + 1)) * 10 ^ (n + 1) = m * 10 ^ j * 10 ^ 0
      rw [Nat.mul_assoc, ← Nat.pow_add, Nat.sub_add_cancel hWhole, Nat.pow_zero, Nat.mul_one]
    · rename_i hPlaces
      show m * 10 ^ (n + 1) = m * 10 ^ j * 10 ^ (n + 1 - j)
      rw [Nat.mul_assoc, ← Nat.pow_add, Nat.add_sub_cancel' (Nat.le_of_not_le hPlaces)]
  have hTen : 10 ^ (n + 1) = 2 * 2 ^ n * 5 ^ (n + 1) := by
    rw [← Nat.pow_succ', ← Nat.mul_pow]
  rw [← hCoefficient, hTen, Neighbourhood.halfUnit_eq hTicks, counted_eq _ hUnits]
  ring

/-- A factor is cancelled, when a remainder below two was multiplied by another. -/
theorem add_le_of_mul_add_mul_le {a b rest factor other : Nat} (hRest : rest < 2)
    (hFactor : 0 < factor) (hOther : 0 < other)
    (h : a * factor + rest * other ≤ b * factor) : a + rest ≤ b := by
  rcases Nat.eq_zero_or_pos rest with rfl | hPos
  · rw [Nat.zero_mul, Nat.add_zero] at h
    exact Nat.le_of_mul_le_mul_right h hFactor
  · obtain rfl : rest = 1 := by omega
    exact Nat.lt_of_mul_lt_mul_right (a := factor) (by omega)

/-- A decimal inside the interval of a finite magnitude is read as that magnitude. -/
theorem nearestMagnitude_of_contains {magnitude m j : Nat} (hFinite : magnitude < infinity)
    (h : (Neighbourhood.ofMagnitude magnitude).contains (m * 10 ^ j) = true) :
    (ofTicks m j).nearestMagnitude = magnitude := by
  obtain ⟨hLow, hHigh⟩ := Neighbourhood.contains_ofMagnitude_iff.1 h
  have hTicks := counted_ofTicks_mul m j
  have hRest : magnitude % 2 < 2 := Nat.mod_lt _ (by decide)
  have hDenominator : 0 < 10 ^ (ofTicks m j).places := Nat.pow_pos (by decide)
  refine nearestMagnitude_eq hFinite ?_ ?_
  · refine add_le_of_mul_add_mul_le hRest Neighbourhood.halfUnit_pos hDenominator ?_
    calc
      _ = ((units (magnitude - 1) + units magnitude) * Neighbourhood.halfUnit + magnitude % 2) *
          10 ^ (ofTicks m j).places := by ring
      _ ≤ m * 10 ^ j * 10 ^ (ofTicks m j).places := Nat.mul_le_mul_right _ hLow
      _ = _ := hTicks.symm
  · refine add_le_of_mul_add_mul_le hRest Neighbourhood.halfUnit_pos hDenominator ?_
    calc
      _ = (m * 10 ^ j + magnitude % 2) * 10 ^ (ofTicks m j).places := by rw [hTicks, Nat.add_mul]
      _ ≤ (units magnitude + units (magnitude + 1)) * Neighbourhood.halfUnit *
          10 ^ (ofTicks m j).places := Nat.mul_le_mul_right _ hHigh
      _ = _ := by ring

end Decimal

namespace Binary64

/-- The shortest decimal of a number is read as the number. -/
theorem nearestMagnitude_shortest {magnitude : Nat} (hPos : 0 < magnitude)
    (hFinite : magnitude < infinity) : (shortest magnitude).nearestMagnitude = magnitude :=
  Decimal.nearestMagnitude_of_contains hFinite
    (Neighbourhood.contains_search (Neighbourhood.contains_value_ofMagnitude hPos) _)

end Binary64

/-! ## Digits -/

namespace Decimal

theorem isDigit_of_mem_wholeDigits {d : Decimal} {c : Char} (h : c ∈ d.wholeDigits) :
    c.isDigit = true :=
  Nat.isDigit_of_mem_toDigits (by decide) (by decide) h

theorem isDigit_of_mem_fractionDigits {d : Decimal} {c : Char} (h : c ∈ d.fractionDigits) :
    c.isDigit = true := by
  simp only [fractionDigits] at h
  split at h
  · simp at h
  · rcases List.mem_append.1 h with hZero | hDigit
    · rw [List.eq_of_mem_replicate hZero]
      rfl
    · exact Nat.isDigit_of_mem_toDigits (by decide) (by decide) hDigit

theorem fractionDigits_eq_nil_iff {d : Decimal} : d.fractionDigits = [] ↔ d.places = 0 := by
  rw [← List.length_eq_zero_iff, length_fractionDigits]

/-- The digits of a decimal behind the point denote what it has there. -/
theorem ofDigitChars_fractionDigits (d : Decimal) :
    Nat.ofDigitChars 10 d.fractionDigits 0 = d.coefficient % 10 ^ d.places := by
  by_cases hWhole : d.places = 0
  · rw [fractionDigits_eq_nil_iff.2 hWhole, hWhole, Nat.pow_zero, Nat.mod_one]
    rfl
  · simp only [fractionDigits, if_neg hWhole]
    rw [Nat.ofDigitChars_append, Nat.ofDigitChars_replicate_zero, Nat.mul_zero,
      Nat.ofDigitChars_ten_toDigits]
    rfl

/-- The digits of a decimal denote the decimal. -/
theorem ofDigits_digits (d : Decimal) : ofDigits d.wholeDigits d.fractionDigits = d := by
  have hCoefficient :
      Nat.ofDigitChars 10 (d.wholeDigits ++ d.fractionDigits) 0 = d.coefficient := by
    rw [Nat.ofDigitChars_append, Nat.ofDigitChars_eq_ofDigitChars_zero,
      ofDigitChars_fractionDigits, length_fractionDigits, wholeDigits,
      Nat.ofDigitChars_ten_toDigits]
    exact Nat.div_add_mod d.coefficient (10 ^ d.places)
  rw [ofDigits, hCoefficient, length_fractionDigits]

/-- The number whose text is that of the decimal. -/
def element (d : Decimal) : Element := .number d.wholeDigits d.fractionDigits

theorem wellFormed_element (d : Decimal) : d.element.WellFormed :=
  ⟨Nat.toDigits_ne_nil, fun _ => isDigit_of_mem_wholeDigits,
    fun _ => isDigit_of_mem_fractionDigits⟩

theorem text_element (d : Decimal) : d.element.text = d.text := by
  simp only [element, Element.text, Element.numberText, text, fractionDigits_eq_nil_iff]

/-- Nothing is missing where the text ends. -/
theorem stops_element (d : Decimal) : d.element.stops [] = true := by
  simp [element, Element.stops]

theorem token?_element (d : Decimal) (line : Nat) :
    d.element.token? line =
      some ⟨.number, String.ofList d.text, some (.number d.nearest), line⟩ := by
  rw [← text_element, element, Element.token?, ofDigits_digits]
  rfl

theorem lineFeeds_text (d : Decimal) : lineFeeds d.text = 0 := by
  rw [← text_element]
  exact Element.lineFeeds_text_number d.wellFormed_element

end Decimal

namespace Binary64

/-- The number without its sign. -/
def absolute (x : Binary64) : Binary64 := { x with negative := false }

/-- The bits of a number without its sign are those below the sign. -/
theorem toNat_toBits_absolute (x : Binary64) :
    x.absolute.toBits.toNat = x.toBits.toNat % 0x8000000000000000 := by
  have hBits := Nat.mod_eq_of_lt x.magnitude_lt
  rw [toNat_toBits, toNat_toBits, absolute]
  cases x.negative <;> simp [hBits]

/-- The decimal in the text of a finite number. -/
def decimal (x : Binary64) : Decimal := if x.isZero then ⟨0, 0⟩ else shortest x.magnitude

/-- The text of a finite number: its decimal behind its sign. -/
theorem text_of_isFinite {x : Binary64} (h : x.isFinite = true) :
    x.text = (if x.negative then "-" else "") ++ String.ofList x.decimal.text := by
  have hMagnitude : x.magnitude < infinity := of_decide_eq_true h
  have hNumber : x.isNaN = false := decide_eq_false (Nat.lt_asymm hMagnitude)
  have hEnd : x.isInfinite = false := beq_false_of_ne (Nat.ne_of_lt hMagnitude)
  cases hZero : x.isZero
  · simp [text, decimal, hNumber, hEnd, hZero]
  · have hDigit : String.ofList (Decimal.text ⟨0, 0⟩) = "0" := by decide
    simp [text, decimal, hNumber, hEnd, hZero, hDigit]

/-- The decimal in the text of a number is read as the number without its sign. -/
theorem nearest_decimal {x : Binary64} (h : x.isFinite = true) :
    x.decimal.nearest = x.absolute := by
  have hMagnitude : x.decimal.nearestMagnitude = x.magnitude := by
    cases hZero : x.isZero
    · rw [decimal, if_neg (Bool.eq_false_iff.1 hZero)]
      exact nearestMagnitude_shortest (Nat.pos_of_ne_zero (ne_of_beq_false hZero))
        (of_decide_eq_true h)
    · rw [decimal, if_pos hZero, Decimal.nearestMagnitude_zero]
      exact (beq_iff_eq.1 hZero).symm
  simp only [Decimal.nearest, absolute, hMagnitude]

theorem text_absolute {x : Binary64} (h : x.isFinite = true) :
    x.absolute.text = String.ofList x.decimal.text := by
  rw [text_of_isFinite (x := x.absolute) h]
  exact String.empty_append

end Binary64

/-! ## Scans -/

namespace Element

/-- The elements of a sign. A number that is not negative has none. -/
def ofSign (negative : Bool) : List Element := if negative then [punctuator .minus] else []

/-- Whatever stands behind a minus does not belong to it. -/
theorem settled_ofSign (negative : Bool) (rest : List Char) : Settled rest (ofSign negative) := by
  cases negative with
  | false => exact .nil
  | true =>
    refine .cons trivial ?_ .nil
    cases rest <;> rfl

theorem texts_ofSign (negative : Bool) :
    texts (ofSign negative) = (if negative then "-" else "").toList := by
  cases negative <;> rfl

theorem lineFeeds_texts_ofSign (negative : Bool) : lineFeeds (texts (ofSign negative)) = 0 := by
  cases negative <;> rfl

end Element

namespace Scan

open Element in
/-- The scan of a finite number that is shown: a minus if the number has its sign, and the number
without it. -/
theorem ofSource_shown {x : Binary64} (hFinite : x.isFinite = true) :
    (ofSource (Literal.number x).text).errors = [] ∧
      (ofSource (Literal.number x).text).stream.toList =
        (if x.negative then [⟨.punctuator .minus, "-", none, 1⟩] else []) ++
          [⟨.number, (Literal.number x.absolute).text, some (.number x.absolute), 1⟩,
            .endOfText 1] := by
  have hText : texts (ofSign x.negative) ++ x.decimal.element.text =
      (Literal.number x).text.toList := by
    rw [Literal.text, Binary64.text_of_isFinite hFinite, texts_ofSign, Decimal.text_element]
    simp
  have hLines : lineFeeds (Literal.number x).text.toList = 0 := by
    rw [← hText, lineFeeds_append, lineFeeds_texts_ofSign, Decimal.text_element,
      Decimal.lineFeeds_text]
  have hToken : x.decimal.element.token? 1 =
      some ⟨.number, (Literal.number x.absolute).text, some (.number x.absolute), 1⟩ := by
    rw [Decimal.token?_element, Binary64.nearest_decimal hFinite, Literal.text,
      Binary64.text_absolute hFinite]
  rw [ofSource_of_settled_concat (settled_ofSign _ _) x.decimal.wellFormed_element
    x.decimal.stops_element hText, hLines, lineFeeds_texts_ofSign, Nat.add_zero, hToken]
  cases x.negative <;> exact ⟨rfl, rfl⟩

/-- A power of two, which is nearer to the number below it than to the one above it. It is shown
with fewer digits than it has. -/
theorem ofSource_shown_negative :
    (ofSource "-1152921504606847000").errors = [] ∧
      (ofSource "-1152921504606847000").stream.toList =
        [⟨.punctuator .minus, "-", none, 1⟩,
          ⟨.number, "1152921504606847000",
            some (.number ⟨false, 0x43B0000000000000, by decide⟩), 1⟩,
          .endOfText 1] := by
  have hText : (Literal.number ⟨true, 0x43B0000000000000, by decide⟩).text =
      "-1152921504606847000" := by
    decide +kernel
  have hAbsolute : (Literal.number ⟨false, 0x43B0000000000000, by decide⟩).text =
      "1152921504606847000" := by
    decide +kernel
  have hShown := ofSource_shown (x := ⟨true, 0x43B0000000000000, by decide⟩) (by decide)
  rw [hText] at hShown
  refine ⟨hShown.1, hShown.2.trans ?_⟩
  rw [← hAbsolute]
  rfl

end Scan

end LoxLexer
