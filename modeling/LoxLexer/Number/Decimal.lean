/-!
# Decimal numbers

A decimal is a natural coefficient over a power of ten. It is read from the digits in front of and
behind a decimal point and written back positionally, without an exponent. There is no sign.

## Main definitions

* `Decimal.ofDigits`: the decimal that two runs of digits denote.
* `Decimal.parse?`: the decimal that a text denotes.
* `Decimal.text`: the digits of a decimal, with a point when it has places behind the point.
-/

namespace LoxLexer

/-- The number `coefficient / 10 ^ places`. -/
structure Decimal where
  coefficient : Nat
  places : Nat
deriving DecidableEq, Repr

namespace Decimal

/-- The decimal whose digits in front of the point are `whole` and whose digits behind it are
`fraction`. Each digit of the fraction is one place. -/
def ofDigits (whole fraction : List Char) : Decimal where
  coefficient := Nat.ofDigitChars 10 (whole ++ fraction) 0
  places := fraction.length

/-- The decimal that a text denotes: digits, and a point with digits behind it if there is one. -/
def parse? (cs : List Char) : Option Decimal :=
  let whole := cs.takeWhile Char.isDigit
  if whole = [] then none
  else
    match cs.dropWhile Char.isDigit with
    | [] => some (ofDigits whole [])
    | '.' :: fraction =>
      if fraction ≠ [] ∧ fraction.all Char.isDigit then some (ofDigits whole fraction) else none
    | _ => none

theorem parse?_whole {whole : List Char} (hWhole : whole ≠ [])
    (hDigits : ∀ c ∈ whole, c.isDigit = true) : parse? whole = some (ofDigits whole []) := by
  have hTake : (whole ++ []).takeWhile Char.isDigit = whole ++ [] :=
    List.takeWhile_append_of_pos hDigits
  have hDrop : (whole ++ []).dropWhile Char.isDigit = [] := List.dropWhile_append_of_pos hDigits
  rw [List.append_nil] at hTake hDrop
  simp [parse?, hTake, hDrop, hWhole]

theorem parse?_fraction {whole fraction : List Char} (hWhole : whole ≠ [])
    (hDigits : ∀ c ∈ whole, c.isDigit = true) (hFraction : fraction ≠ [])
    (hPlaces : ∀ c ∈ fraction, c.isDigit = true) :
    parse? (whole ++ '.' :: fraction) = some (ofDigits whole fraction) := by
  have hTake : (whole ++ '.' :: fraction).takeWhile Char.isDigit = whole := by
    rw [List.takeWhile_append_of_pos hDigits, List.takeWhile_cons_of_neg (by decide),
      List.append_nil]
  have hDrop : (whole ++ '.' :: fraction).dropWhile Char.isDigit = '.' :: fraction := by
    rw [List.dropWhile_append_of_pos hDigits, List.dropWhile_cons_of_neg (by decide)]
  simpa [parse?, hTake, hDrop, hWhole, hFraction] using hPlaces

/-- The digits of a decimal in front of the point. -/
def wholeDigits (d : Decimal) : List Char := Nat.toDigits 10 (d.coefficient / Nat.pow 10 d.places)

/-- The digits of a decimal behind the point, as many as it has places. -/
def fractionDigits (d : Decimal) : List Char :=
  if d.places = 0 then []
  else
    let digits := Nat.toDigits 10 (d.coefficient % Nat.pow 10 d.places)
    List.replicate (d.places - digits.length) '0' ++ digits

/-- The positional notation of a decimal. A whole number has no point. -/
def text (d : Decimal) : List Char :=
  d.wholeDigits ++ if d.places = 0 then [] else '.' :: d.fractionDigits

theorem length_fractionDigits (d : Decimal) : d.fractionDigits.length = d.places := by
  by_cases h : d.places = 0
  · simp [fractionDigits, h]
  · have hlt : d.coefficient % Nat.pow 10 d.places < Nat.pow 10 d.places :=
      Nat.mod_lt _ (Nat.pow_pos (by decide))
    have hLength : (Nat.toDigits 10 (d.coefficient % Nat.pow 10 d.places)).length ≤ d.places :=
      (Nat.length_toDigits_le_iff (by decide) (Nat.pos_of_ne_zero h)).2 hlt
    simp only [fractionDigits, if_neg h, List.length_append, List.length_replicate]
    omega

end Decimal

end LoxLexer
