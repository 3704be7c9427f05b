/-!
# Keywords

The sixteen reserved words. A word is a keyword when its letters are exactly those of one,
capitals included; every other word is an identifier.

## Main results

* `ofLetters?_eq_some_iff`: a word is read as a keyword exactly when it is its spelling.
-/

namespace LoxLexer

/-- A reserved word. Keywords are ordered as they are listed here. -/
inductive Keyword where
  | andWord | classWord | elseWord | falseWord | forWord | funWord | ifWord | nilWord
  | orWord | printWord | returnWord | superWord | thisWord | trueWord | varWord | whileWord
deriving DecidableEq, Ord, Repr

namespace Keyword

/-- All keywords in their order. -/
def all : List Keyword :=
  [andWord, classWord, elseWord, falseWord, forWord, funWord, ifWord, nilWord,
    orWord, printWord, returnWord, superWord, thisWord, trueWord, varWord, whileWord]

theorem mem_all (k : Keyword) : k ∈ all := by
  cases k <;> decide

/-- The letters of a keyword. -/
def letters : Keyword → List Char
  | andWord => ['a', 'n', 'd']
  | classWord => ['c', 'l', 'a', 's', 's']
  | elseWord => ['e', 'l', 's', 'e']
  | falseWord => ['f', 'a', 'l', 's', 'e']
  | forWord => ['f', 'o', 'r']
  | funWord => ['f', 'u', 'n']
  | ifWord => ['i', 'f']
  | nilWord => ['n', 'i', 'l']
  | orWord => ['o', 'r']
  | printWord => ['p', 'r', 'i', 'n', 't']
  | returnWord => ['r', 'e', 't', 'u', 'r', 'n']
  | superWord => ['s', 'u', 'p', 'e', 'r']
  | thisWord => ['t', 'h', 'i', 's']
  | trueWord => ['t', 'r', 'u', 'e']
  | varWord => ['v', 'a', 'r']
  | whileWord => ['w', 'h', 'i', 'l', 'e']

/-- The text of a keyword. -/
def spelling (k : Keyword) : String := String.ofList k.letters

/-- The name of a keyword among the kinds of tokens: its letters in upper case. -/
def name (k : Keyword) : String := String.ofList (k.letters.map Char.toUpper)

/-- The position of a keyword among all keywords, counted from zero. -/
def index (k : Keyword) : Nat := all.idxOf k

/-- The keyword with the given letters. -/
def ofLetters? (cs : List Char) : Option Keyword := all.find? fun k => k.letters == cs

theorem ofLetters?_letters (k : Keyword) : ofLetters? k.letters = some k := by
  cases k <;> decide

theorem ofLetters?_eq_some_iff {cs : List Char} {k : Keyword} :
    ofLetters? cs = some k ↔ cs = k.letters := by
  constructor
  · intro h
    have hFound := List.find?_some h
    exact (beq_iff_eq.1 hFound).symm
  · rintro rfl
    exact ofLetters?_letters k

/-- The reason why a text was refused as a keyword. There is only one. -/
inductive ParseError where
  | notReserved
deriving DecidableEq, Repr

/-- The wording of a refusal. -/
def ParseError.message : ParseError → String
  | notReserved => "invalid string representation of keyword."

/-- Reads a text as a keyword. -/
def parse (s : String) : Except ParseError Keyword :=
  match ofLetters? s.toList with
  | some k => .ok k
  | none => .error .notReserved

theorem parse_spelling (k : Keyword) : parse k.spelling = .ok k := by
  simp [parse, spelling, ofLetters?_letters]

end Keyword

end LoxLexer
