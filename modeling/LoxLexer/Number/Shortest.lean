import LoxLexer.Number.Binary64
import LoxLexer.Number.Decimal

/-!
# The shortest decimal of a binary number

A binary64 number is written with the fewest digits that no other number is nearer to: the digits
that `Decimal.nearest` reads back as the same number. Of the decimals with that many digits the
nearest to the number is taken, and of two equally near the upper one.

Lengths are measured in *ticks* of `10 ^ (-1075)`. A unit of `2 ^ (-1074)` is `2 * 5 ^ 1075` ticks,
so every number, and every midpoint between two neighbours, is a whole number of ticks. The reals
that are read as a given magnitude reach from the midpoint below it to the midpoint above it; the
midpoints themselves belong to the even magnitudes.

The search runs over the grids of the multiples of `10 ^ j` ticks, the coarsest first. On each
grid only the two neighbours of the number have to be looked at: when any point of a grid lies in
the interval, one of these two does. The grid of single ticks holds the number itself, so the
search always ends with a hit.

## Main results

* `Neighbourhood.contains_value`: a number lies in its own interval.
-/

namespace LoxLexer

/-- A number between the midpoints to its two neighbours, counted in ticks of `10 ^ (-1075)`. -/
structure Neighbourhood where
  low : Nat
  value : Nat
  high : Nat
  /-- The midpoints themselves are read as the number. -/
  isClosed : Bool
deriving DecidableEq, Repr

namespace Neighbourhood

/-- The neighbourhood of a magnitude above zero. -/
def ofMagnitude (magnitude : Nat) : Neighbourhood where
  low := (Binary64.units (magnitude - 1) + Binary64.units magnitude) * Nat.pow 5 1075
  value := 2 * Binary64.units magnitude * Nat.pow 5 1075
  high := (Binary64.units magnitude + Binary64.units (magnitude + 1)) * Nat.pow 5 1075
  isClosed := magnitude % 2 == 0

/-- A point that is read as the number. -/
def contains (n : Neighbourhood) (ticks : Nat) : Bool :=
  if n.isClosed then n.low ≤ ticks && ticks ≤ n.high else n.low < ticks && ticks < n.high

theorem contains_value {n : Neighbourhood} (hLow : n.low < n.value) (hHigh : n.value < n.high) :
    n.contains n.value = true := by
  simp only [contains]
  split <;> simp <;> omega

/-- The multiple of `step` nearest to the number, divided by `step`, when one of the two next to
the number is read as the number. -/
def onGrid? (n : Neighbourhood) (step : Nat) : Option Nat :=
  let below := n.value / step
  let above := below + 1
  match n.contains (below * step), n.contains (above * step) with
  | true, true => if n.value - below * step < above * step - n.value then some below else some above
  | true, false => some below
  | false, true => some above
  | false, false => none

/-- The shortest decimal of a number, found on the grids of `10 ^ j` ticks and finer. The answer
`(m, i)` stands for `m * 10 ^ i` ticks. -/
def search (n : Neighbourhood) : (j : Nat) → Nat × Nat
  | 0 => (n.value, 0)
  | j + 1 =>
    match n.onGrid? (Nat.pow 10 (j + 1)) with
    | some m => (m, j + 1)
    | none => n.search j

end Neighbourhood

/-- The decimal of `m * 10 ^ j` ticks. -/
def Decimal.ofTicks (m j : Nat) : Decimal :=
  if 1075 ≤ j then ⟨m * Nat.pow 10 (j - 1075), 0⟩ else ⟨m, 1075 - j⟩

namespace Binary64

/-- The shortest decimal that is read as the given finite magnitude above zero. The search starts
on a grid that has no point but zero below the upper midpoint. -/
def shortest (magnitude : Nat) : Decimal :=
  let n := Neighbourhood.ofMagnitude magnitude
  let found := n.search (Nat.toDigits 10 n.high).length
  Decimal.ofTicks found.1 found.2

/-- The text of a number: its shortest decimal in positional notation behind its sign, a zero as
one digit, and words for what is no finite number. -/
def text (x : Binary64) : String :=
  if x.isNaN then "NaN"
  else
    let sign := if x.negative then "-" else ""
    if x.isInfinite then sign ++ "inf"
    else if x.isZero then sign ++ "0"
    else sign ++ String.ofList (shortest x.magnitude).text

end Binary64

end LoxLexer
