import LoxLexer.Proofs.Nearest
import LoxLexer.Proofs.TextOrder
import Mathlib.Data.EReal.Basic

/-!
# The order of literals

Not every two literals stand in an order: a datum that is no number stands in none to a number, nor
to itself. What is left is a partial order all the same. Its laws are stated once, of a comparison
and a test for equality, and they hold of every comparison by a key that some members may lack. For
a string the key is the string, and for a number its position. As every string comes before every
number, the laws of the two carry over to literals.

Of numbers this is the order of the extended real numbers that they stand for, and of strings that
of their code points, or of their bytes.

## Main definitions

* `CoherentOrder`: the laws of a partial order, of a comparison and a test for equality.
* `Binary64.extendedValue`: the extended real number that a datum stands for.

## Main results

* `CoherentOrder.of_key`: comparing by a key that may be missing is coherent.
* `Binary64.compare_position`: positions are in the order of the values.
* `Literal.ordered_by_value`: how literals compare.
-/

namespace LoxLexer

/-! ## Partial orders -/

/-- A comparison that may leave pairs undecided is that of a partial order, and `==` tells the same
members equal as it does. -/
structure CoherentOrder {α : Type} [BEq α] (order? : α → α → Option Ordering) : Prop where
  eq_iff : ∀ a b, order? a b = some .eq ↔ (a == b) = true
  swap : ∀ a b, order? b a = (order? a b).map Ordering.swap
  lt_trans : ∀ a b c, order? a b = some .lt → order? b c = some .lt → order? a c = some .lt
  congr : ∀ a b c, (a == b) = true → order? a c = order? b c

namespace CoherentOrder

section Key

variable {α β : Type} [BEq α] [Ord β] [Std.TransOrd β] [Std.LawfulEqOrd β]
  {order? : α → α → Option Ordering}

/-- A comparison by a key is coherent. A member without a key is equal to nothing and stands in no
order. -/
theorem of_key (key : α → Option β)
    (hOrder : ∀ a b, order? a b = (key a).bind fun x => (key b).map fun y => compare x y)
    (hEqual : ∀ a b, (a == b) = true ↔ ∃ x, key a = some x ∧ key b = some x) :
    CoherentOrder order? where
  eq_iff a b := by
    rw [hOrder, hEqual]
    cases key a with
    | none => simp
    | some x =>
      cases key b with
      | none => simp
      | some y =>
        simp only [Option.bind_some, Option.map_some, Option.some.injEq]
        rw [Std.LawfulEqOrd.compare_eq_iff_eq, exists_eq_left']
        exact eq_comm
  swap a b := by
    rw [hOrder, hOrder]
    cases key a with
    | none => cases key b <;> rfl
    | some x =>
      cases key b with
      | none => rfl
      | some y => exact congrArg some Std.OrientedOrd.eq_swap
  lt_trans a b c hLess hMore := by
    rw [hOrder] at hLess hMore ⊢
    cases hA : key a with
    | none => simp [hA] at hLess
    | some x =>
      cases hB : key b with
      | none => simp [hB] at hMore
      | some y =>
        cases hC : key c with
        | none => simp [hC] at hMore
        | some z =>
          simp only [hA, hB, hC, Option.bind_some, Option.map_some, Option.some.injEq]
            at hLess hMore ⊢
          exact Std.TransCmp.lt_trans hLess hMore
  congr a b c h := by
    obtain ⟨x, hA, hB⟩ := (hEqual a b).1 h
    rw [hOrder, hOrder, hA, hB]

/-- A total order is coherent. -/
theorem of_compare [LawfulBEq α] [Ord α] [Std.TransOrd α] [Std.LawfulEqOrd α] :
    CoherentOrder fun a b : α => some (compare a b) := by
  refine of_key some (fun _ _ => rfl) fun a b => ?_
  rw [beq_iff_eq]
  simp only [Option.some.injEq, exists_eq_left']
  exact eq_comm

end Key

end CoherentOrder

/-! ## Numbers -/

namespace Binary64

theorem natAbs_position (x : Binary64) : x.position.natAbs = x.magnitude := by
  rw [position]
  split <;> omega

theorem isNaN_eq_of_position_eq {x y : Binary64} (h : x.position = y.position) :
    x.isNaN = y.isNaN := by
  rw [isNaN, isNaN, ← natAbs_position, ← natAbs_position, h]

/-- No two data are at the same position but the zeros. -/
theorem position_eq_iff {x y : Binary64} :
    x.position = y.position ↔ x = y ∨ x.isZero = true ∧ y.isZero = true := by
  obtain ⟨xNegative, xMagnitude, hx⟩ := x
  obtain ⟨yNegative, yMagnitude, hy⟩ := y
  cases xNegative <;> cases yNegative <;> simp [position, isZero] <;> omega

/-- The position of a datum that stands for a number. -/
def position? (x : Binary64) : Option Int := if x.isNaN then none else some x.position

theorem position?_eq_some_iff {x : Binary64} {p : Int} :
    x.position? = some p ↔ x.isNaN = false ∧ x.position = p := by
  rw [position?]
  cases x.isNaN <;> simp

theorem compare?_eq (x y : Binary64) :
    x.compare? y = x.position?.bind fun p => y.position?.map fun q => compare p q := by
  rw [compare?, position?, position?]
  cases x.isNaN <;> cases y.isNaN <;> rfl

theorem beq_iff_position? {x y : Binary64} :
    (x == y) = true ↔ ∃ p, x.position? = some p ∧ y.position? = some p := by
  simp only [position?_eq_some_iff]
  rw [beq_def, Bool.and_eq_true, Bool.not_eq_true', Bool.or_eq_true, Bool.and_eq_true,
    decide_eq_true_eq, ← position_eq_iff]
  constructor
  · intro ⟨hNumber, hPosition⟩
    have hOther : y.isNaN = false := (isNaN_eq_of_position_eq hPosition).symm.trans hNumber
    exact ⟨x.position, ⟨hNumber, rfl⟩, hOther, hPosition.symm⟩
  · intro ⟨p, ⟨hNumber, hHere⟩, _, hThere⟩
    exact ⟨hNumber, hHere.trans hThere.symm⟩

theorem coherent_compare? : CoherentOrder compare? :=
  .of_key position? compare?_eq fun _ _ => beq_iff_position?

/-! ### Values -/

/-- The extended real number that a datum stands for, if it stands for one. -/
noncomputable def extendedValue (x : Binary64) : EReal :=
  if x.isInfinite then (if x.negative then ⊥ else ⊤) else ((x.value : ℝ) : EReal)

/-- The number at a position. -/
def valueAt (p : Int) : ℚ := if p < 0 then -(units p.natAbs * unit) else units p.natAbs * unit

theorem value_eq_valueAt (x : Binary64) : x.value = valueAt x.position := by
  rw [value, valueAt, position]
  cases x.negative with
  | false => simp
  | true =>
    rcases Nat.eq_zero_or_pos x.magnitude with hZero | hPos
    · simp [hZero]
    · simp [hPos]

theorem valueAt_lt {p q : Int} (h : p < q) : valueAt p < valueAt q := by
  rw [valueAt, valueAt]
  split_ifs with hp hq hq
  · exact neg_lt_neg (units_mul_unit_lt (by omega))
  · have hBelow : (0 : ℚ) < units p.natAbs * unit := by
      simpa using units_mul_unit_lt (show 0 < p.natAbs by omega)
    have hAbove := units_mul_unit_nonneg q.natAbs
    linarith
  · omega
  · exact units_mul_unit_lt (by omega)

/-- The extended real number at a position: the infinities are the ends of the line. -/
noncomputable def extendedValueAt (p : Int) : EReal :=
  if p = -infinity then ⊥ else if p = infinity then ⊤ else ((valueAt p : ℝ) : EReal)

theorem extendedValue_eq_extendedValueAt (x : Binary64) :
    x.extendedValue = extendedValueAt x.position := by
  have hPos : 0 < infinity := by decide
  rw [extendedValue, extendedValueAt, ← value_eq_valueAt, position, isInfinite]
  cases x.negative with
  | false =>
    have hLeft : (x.magnitude : Int) ≠ -infinity := by omega
    simp [hLeft]
  | true =>
    have hRight : -(x.magnitude : Int) ≠ infinity := by omega
    simp [hRight]

/-- From one infinity to the other the values at the positions grow. -/
theorem extendedValueAt_lt {p q : Int} (hLow : -infinity ≤ p) (hHigh : q ≤ infinity) (h : p < q) :
    extendedValueAt p < extendedValueAt q := by
  have hpRight : p ≠ infinity := by omega
  have hqLeft : q ≠ -infinity := by omega
  rw [extendedValueAt, extendedValueAt, if_neg hpRight, if_neg hqLeft]
  split_ifs
  · exact bot_lt_top
  · exact EReal.bot_lt_coe _
  · exact EReal.coe_lt_top _
  · exact EReal.coe_lt_coe_iff.2 (Rat.cast_lt.2 (valueAt_lt h))

theorem position_bounds {x : Binary64} (h : x.isNaN = false) :
    -infinity ≤ x.position ∧ x.position ≤ infinity := by
  have hMagnitude : x.magnitude ≤ infinity := Nat.not_lt.1 (of_decide_eq_false h)
  rw [← natAbs_position] at hMagnitude
  omega

/-- Data that stand for numbers are in the order of these numbers. -/
theorem compare_position {x y : Binary64} (hx : x.isNaN = false) (hy : y.isNaN = false) :
    compare x.position y.position = compare x.extendedValue y.extendedValue := by
  have hLess {x y : Binary64} (hx : x.isNaN = false) (hy : y.isNaN = false)
      (h : compare x.position y.position = .lt) :
      compare (extendedValueAt x.position) (extendedValueAt y.position) = .lt :=
    compare_lt_iff_lt.2 (extendedValueAt_lt (position_bounds hx).1 (position_bounds hy).2
      (compare_lt_iff_lt.1 h))
  rw [extendedValue_eq_extendedValueAt, extendedValue_eq_extendedValueAt]
  exact (compare_image (hLess hx hy) (hLess hy hx)).symm

theorem compare?_eq_compare_extendedValue {x y : Binary64} (hx : x.isNaN = false)
    (hy : y.isNaN = false) : x.compare? y = some (compare x.extendedValue y.extendedValue) := by
  rw [← compare_position hx hy, compare?, hx, hy]
  rfl

theorem compare?_eq_none_iff {x y : Binary64} :
    x.compare? y = none ↔ x.isNaN = true ∨ y.isNaN = true := by
  rw [compare?]
  cases x.isNaN <;> cases y.isNaN <;> simp

end Binary64

/-! ## Literals -/

namespace Literal

/-- Strings have all of their order among themselves and so have numbers, and between the two there
is but one way to compare. -/
theorem coherent_compare? : CoherentOrder compare? where
  eq_iff a b := by
    cases a with
    | string s =>
      cases b with
      | string t => exact CoherentOrder.of_compare.eq_iff s t
      | number y => simp [compare?]
    | number x =>
      cases b with
      | string t => simp [compare?]
      | number y => exact Binary64.coherent_compare?.eq_iff x y
  swap a b := by
    cases a with
    | string s =>
      cases b with
      | string t => exact CoherentOrder.of_compare.swap s t
      | number y => rfl
    | number x =>
      cases b with
      | string t => rfl
      | number y => exact Binary64.coherent_compare?.swap x y
  lt_trans a b c hLess hMore := by
    cases a with
    | string s =>
      cases c with
      | string u =>
        cases b with
        | string t => exact CoherentOrder.of_compare.lt_trans s t u hLess hMore
        | number y => simp [compare?] at hMore
      | number z => rfl
    | number x =>
      cases b with
      | string t => simp [compare?] at hLess
      | number y =>
        cases c with
        | string u => simp [compare?] at hMore
        | number z => exact Binary64.coherent_compare?.lt_trans x y z hLess hMore
  congr a b c h := by
    cases a with
    | string s =>
      cases b with
      | string t =>
        cases c with
        | string u => exact CoherentOrder.of_compare.congr s t u h
        | number z => rfl
      | number y => simp at h
    | number x =>
      cases b with
      | string t => simp at h
      | number y =>
        cases c with
        | string u => rfl
        | number z => exact Binary64.coherent_compare?.congr x y z h

theorem compare?_eq_none_iff {a b : Literal} :
    a.compare? b = none ↔
      ∃ x y, a = number x ∧ b = number y ∧ (x.isNaN = true ∨ y.isNaN = true) := by
  cases a with
  | string s => cases b <;> simp [compare?]
  | number x =>
    cases b with
    | string t => simp [compare?]
    | number y => simp [compare?, Binary64.compare?_eq_none_iff]

/-- Literals are partially ordered by their values. Only a number and one that is none stand in no
order, every string comes before every number, numbers are ordered as the extended real numbers that
they are, and strings as the sequences of their code points, which is also the order of the
sequences of their bytes. -/
theorem ordered_by_value :
    CoherentOrder compare? ∧
      (∀ a b : Literal, a.compare? b = none ↔
        ∃ x y, a = number x ∧ b = number y ∧ (x.isNaN = true ∨ y.isNaN = true)) ∧
      (∀ (s : String) (x : Binary64), (string s).compare? (number x) = some .lt) ∧
      (∀ x y : Binary64, x.isNaN = false → y.isNaN = false →
        (number x).compare? (number y) = some (compare x.extendedValue y.extendedValue)) ∧
      ∀ s t : String,
        (string s).compare? (string t) =
            some (compare (s.toList.map Char.toNat) (t.toList.map Char.toNat)) ∧
          (string s).compare? (string t) =
            some (compare s.toUTF8.data.toList t.toUTF8.data.toList) := by
  refine ⟨coherent_compare?, fun a b => compare?_eq_none_iff, fun s x => rfl, ?_, ?_⟩
  · intro x y hx hy
    exact Binary64.compare?_eq_compare_extendedValue hx hy
  · intro s t
    exact ⟨congrArg some (Text.compare_codePoints s t), congrArg some (Text.compare_bytes s t)⟩

/-- The least code point of four bytes comes after the greatest of three, and both come before what
is no number. The two zeros are equal, and to the least positive number they stand alike. Negative
infinity comes before it. -/
theorem ordered_by_value_no_number_and_zeros :
    ((string "\uffff").compare? (string "𐀀") = some .lt ∧
        (string "𐀀").compare? (number (.ofBits 0x7FF8000000000000)) = some .lt ∧
        (string "\uffff").compare? (number (.ofBits 0x7FF8000000000000)) = some .lt) ∧
      ((number (.ofBits 0x8000000000000000) == number (.ofBits 0)) = true ∧
        (number (.ofBits 0x8000000000000000)).compare? (number (.ofBits 1)) =
          (number (.ofBits 0)).compare? (number (.ofBits 1))) ∧
      (Binary64.ofBits 0xFFF0000000000000).isNaN = false ∧ (Binary64.ofBits 1).isNaN = false ∧
        some .lt = some (compare (Binary64.ofBits 0xFFF0000000000000).extendedValue
          (Binary64.ofBits 1).extendedValue) := by
  have hStrings : (string "\uffff").compare? (string "𐀀") = some .lt := by decide +kernel
  have hAbove : (string "𐀀").compare? (number (.ofBits 0x7FF8000000000000)) = some .lt := rfl
  have hZeros : (number (.ofBits 0x8000000000000000) == number (.ofBits 0)) = true := by decide
  have hLowest : (Binary64.ofBits 0xFFF0000000000000).isNaN = false := by decide
  have hLeast : (Binary64.ofBits 1).isNaN = false := by decide
  obtain ⟨hCoherent, _, _, hNumbers, _⟩ := ordered_by_value
  refine ⟨⟨hStrings, hAbove, ?_⟩, ⟨hZeros, ?_⟩, hLowest, hLeast, ?_⟩
  · exact hCoherent.lt_trans _ _ _ hStrings hAbove
  · exact hCoherent.congr _ _ (number (.ofBits 1)) hZeros
  · exact hNumbers _ _ hLowest hLeast

end Literal

end LoxLexer
