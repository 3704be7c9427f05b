import LoxLexer.Number.Shortest

/-!
# Literals

The value that a string or a number denotes. Literals compare as their values do: strings by
their code points, numbers as arithmetic compares them, and every string before every number.
A number literal that is no number is equal to no literal and stands in no order to other numbers.
-/

namespace LoxLexer

/-- The value of a token. -/
inductive Literal where
  | string (value : String)
  | number (value : Binary64)
deriving DecidableEq, Repr

namespace Literal

/-- The text of a literal: a string as it is, a number by its shortest decimal. -/
def text : Literal → String
  | string value => value
  | number value => value.text

/-- The string that a literal holds. -/
def string? : Literal → Option String
  | string value => some value
  | number _ => none

/-- The number that a literal holds. -/
def number? : Literal → Option Binary64
  | string _ => none
  | number value => some value

/-- Equality of values. -/
def equal : Literal → Literal → Bool
  | string a, string b => a == b
  | number a, number b => a == b
  | _, _ => false

instance : BEq Literal := ⟨equal⟩

/-- How two literals stand to each other, when they stand in an order at all. -/
def compare? : Literal → Literal → Option Ordering
  | string a, string b => some (compare a b)
  | string _, number _ => some .lt
  | number _, string _ => some .gt
  | number a, number b => a.compare? b

@[simp] theorem string_beq_string (a b : String) : (string a == string b) = (a == b) := rfl

@[simp] theorem number_beq_number (a b : Binary64) : (number a == number b) = (a == b) := rfl

@[simp] theorem string_beq_number (a : String) (b : Binary64) : (string a == number b) = false :=
  rfl

@[simp] theorem number_beq_string (a : Binary64) (b : String) : (number a == string b) = false :=
  rfl

end Literal

end LoxLexer
