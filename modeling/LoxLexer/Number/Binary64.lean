/-!
# Binary floating-point numbers of 64 bits

A number is held as its sign and its *magnitude*, the lower 63 bits of the interchange format read
as a natural number. Magnitudes are in the order of the values they stand for: first zero, then
the subnormal and normal numbers, then infinity at `infinity`, then the data that are no number.

Nothing here computes with machine floats. The value of a finite magnitude is a whole number of
*units*, where one unit is the least positive value, `2 ^ (-1074)`.

Two relations are kept apart. `x = y` says that the data are the same, bit for bit. `x == y` is the
equality of arithmetic, in which the two zeros are equal and a datum that is no number is equal to
nothing, itself included.

## Main results

* `toBits_ofBits`, `ofBits_toBits`: the type is the set of 64-bit patterns.
* `units_zero`, `units_of_lt`: the values of the subnormal numbers are consecutive.
-/

namespace LoxLexer

/-- A binary floating-point datum of 64 bits. -/
structure Binary64 where
  negative : Bool
  magnitude : Nat
  magnitude_lt : magnitude < 0x8000000000000000 := by decide
deriving DecidableEq, Repr

namespace Binary64

/-! ## Bit patterns -/

/-- The datum with the given bits: the sign on top, the magnitude below it. -/
def ofBits (bits : UInt64) : Binary64 where
  negative := 0x8000000000000000 ≤ bits.toNat
  magnitude := bits.toNat % 0x8000000000000000
  magnitude_lt := Nat.mod_lt _ (by decide)

/-- The bits of a datum. -/
def toBits (x : Binary64) : UInt64 :=
  UInt64.ofNat ((if x.negative then 0x8000000000000000 else 0) + x.magnitude)

theorem toNat_toBits (x : Binary64) :
    x.toBits.toNat = (if x.negative then 0x8000000000000000 else 0) + x.magnitude := by
  have := x.magnitude_lt
  rw [toBits, UInt64.toNat_ofNat']
  split <;> omega

@[simp] theorem toBits_ofBits (bits : UInt64) : (ofBits bits).toBits = bits := by
  have := bits.toNat_lt
  apply UInt64.toNat_inj.1
  rw [toNat_toBits]
  simp only [ofBits, decide_eq_true_eq]
  split <;> omega

@[simp] theorem ofBits_toBits (x : Binary64) : ofBits x.toBits = x := by
  obtain ⟨negative, magnitude, h⟩ := x
  have hBits := toNat_toBits ⟨negative, magnitude, h⟩
  cases negative <;> simp [ofBits, hBits] <;> omega

/-! ## Classes of data -/

/-- The magnitude of infinity, one above that of the largest finite number. -/
def infinity : Nat := 0x7FF0000000000000

/-- The datum stands for no number. -/
def isNaN (x : Binary64) : Bool := infinity < x.magnitude

/-- The datum is one of the two infinities. -/
def isInfinite (x : Binary64) : Bool := x.magnitude == infinity

/-- The datum stands for a finite number. -/
def isFinite (x : Binary64) : Bool := x.magnitude < infinity

/-- The datum is one of the two zeros. -/
def isZero (x : Binary64) : Bool := x.magnitude == 0

/-! ## Values -/

/-- The value of a magnitude in units of `2 ^ (-1074)`. The upper bits are the exponent field and
the lower 52 the fraction. A field of zero marks the subnormal numbers, which have no hidden bit.

The rule is followed beyond the finite magnitudes, so that `units infinity` is the value that
would come next, `2 ^ 1024`. -/
def units (magnitude : Nat) : Nat :=
  let exponent := magnitude >>> 52
  let fraction := magnitude % 0x10000000000000
  if exponent = 0 then fraction else (0x10000000000000 + fraction) <<< (exponent - 1)

@[simp] theorem units_zero : units 0 = 0 := by decide

theorem units_of_lt {magnitude : Nat} (h : magnitude < 0x10000000000000) :
    units magnitude = magnitude := by
  have hExponent : magnitude >>> 52 = 0 := by omega
  simp only [units]
  rw [hExponent, Nat.mod_eq_of_lt h, if_pos rfl]

/-! ## Comparison -/

/-- The place of a datum on the number line: magnitudes to the right, their opposites to the
left, and both zeros in the middle. -/
def position (x : Binary64) : Int := if x.negative then -(x.magnitude : Int) else x.magnitude

/-- The equality of arithmetic: the same number, where the sign of a zero does not count. -/
def equal (x y : Binary64) : Bool := !x.isNaN && (decide (x = y) || x.isZero && y.isZero)

instance : BEq Binary64 := ⟨equal⟩

/-- How two numbers stand to each other, when both are numbers. -/
def compare? (x y : Binary64) : Option Ordering :=
  if x.isNaN || y.isNaN then none else some (compare x.position y.position)

theorem beq_def (x y : Binary64) :
    (x == y) = (!x.isNaN && (decide (x = y) || x.isZero && y.isZero)) := rfl

theorem beq_self (x : Binary64) : (x == x) = !x.isNaN := by
  simp [beq_def]

end Binary64

end LoxLexer
