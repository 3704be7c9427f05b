/-!
# Punctuators

The nineteen spellings of punctuation and operators. Four of them are two characters long, and
each of these begins with the spelling of a shorter one, so that reading has to look for the long
spellings first.

## Main results

* `ofCharacters?_eq_some_iff`: a punctuator is read exactly from its spelling.
* `read?_append`: `read?` takes a spelling off the front of a text.
-/

namespace LoxLexer

/-- A mark of punctuation or an operator. Punctuators are ordered as they are listed here. -/
inductive Punctuator where
  | leftParen | rightParen | leftBrace | rightBrace | comma | dot | minus | plus | semicolon
  | slash | star | bang | bangEqual | equal | equalEqual | greater | greaterEqual | less | lessEqual
deriving DecidableEq, Ord, Repr

namespace Punctuator

/-- All punctuators in their order. -/
def all : List Punctuator :=
  [leftParen, rightParen, leftBrace, rightBrace, comma, dot, minus, plus, semicolon,
    slash, star, bang, bangEqual, equal, equalEqual, greater, greaterEqual, less, lessEqual]

theorem mem_all (p : Punctuator) : p ∈ all := by
  cases p <;> decide

/-- The characters of a punctuator. -/
def characters : Punctuator → List Char
  | leftParen => ['(']
  | rightParen => [')']
  | leftBrace => ['\x7b']
  | rightBrace => ['\x7d']
  | comma => [',']
  | dot => ['.']
  | minus => ['-']
  | plus => ['+']
  | semicolon => [';']
  | slash => ['/']
  | star => ['*']
  | bang => ['!']
  | bangEqual => ['!', '=']
  | equal => ['=']
  | equalEqual => ['=', '=']
  | greater => ['>']
  | greaterEqual => ['>', '=']
  | less => ['<']
  | lessEqual => ['<', '=']

theorem characters_ne_nil (p : Punctuator) : p.characters ≠ [] := by
  cases p <;> decide

/-- The text of a punctuator. -/
def spelling (p : Punctuator) : String := String.ofList p.characters

/-- The name of a punctuator among the kinds of tokens. -/
def name : Punctuator → String
  | leftParen => "LEFT_PAREN"
  | rightParen => "RIGHT_PAREN"
  | leftBrace => "LEFT_BRACE"
  | rightBrace => "RIGHT_BRACE"
  | comma => "COMMA"
  | dot => "DOT"
  | minus => "MINUS"
  | plus => "PLUS"
  | semicolon => "SEMICOLON"
  | slash => "SLASH"
  | star => "STAR"
  | bang => "BANG"
  | bangEqual => "BANG_EQUAL"
  | equal => "EQUAL"
  | equalEqual => "EQUAL_EQUAL"
  | greater => "GREATER"
  | greaterEqual => "GREATER_EQUAL"
  | less => "LESS"
  | lessEqual => "LESS_EQUAL"

/-- The punctuator with the given characters. -/
def ofCharacters? (cs : List Char) : Option Punctuator := all.find? fun p => p.characters == cs

theorem ofCharacters?_characters (p : Punctuator) : ofCharacters? p.characters = some p := by
  cases p <;> decide

theorem ofCharacters?_eq_some_iff {cs : List Char} {p : Punctuator} :
    ofCharacters? cs = some p ↔ cs = p.characters := by
  constructor
  · intro h
    have hFound := List.find?_some h
    exact (beq_iff_eq.1 hFound).symm
  · rintro rfl
    exact ofCharacters?_characters p

theorem ofCharacters?_eq_none_iff {cs : List Char} :
    ofCharacters? cs = none ↔ ∀ p : Punctuator, p.characters ≠ cs := by
  simp [ofCharacters?, mem_all]

/-- The long spellings end in an equals sign. -/
theorem eq_of_characters_eq_pair {p : Punctuator} {c d : Char} (h : p.characters = [c, d]) :
    d = '=' ∧ (c = '!' ∨ c = '=' ∨ c = '<' ∨ c = '>') := by
  cases p <;> simp only [characters, List.cons.injEq, List.nil_eq, reduceCtorEq, and_false] at h <;>
    simp [← h.1, ← h.2.1]

/-- Takes a punctuator off the front of the text `c :: cs`, a long one if there is one. -/
def read? (c : Char) : List Char → Option (Punctuator × List Char)
  | [] => (ofCharacters? [c]).map (·, [])
  | d :: cs =>
    match ofCharacters? [c, d] with
    | some p => some (p, cs)
    | none => (ofCharacters? [c]).map (·, d :: cs)

theorem read?_append {c : Char} {cs : List Char} {p : Punctuator} {rest : List Char}
    (h : read? c cs = some (p, rest)) : p.characters ++ rest = c :: cs := by
  cases cs with
  | nil =>
    obtain ⟨q, hq, h⟩ := Option.map_eq_some_iff.1 h
    cases h
    simp [← ofCharacters?_eq_some_iff.1 hq]
  | cons d cs =>
    simp only [read?] at h
    split at h
    · rename_i q hq
      cases h
      simp [← ofCharacters?_eq_some_iff.1 hq]
    · obtain ⟨q, hq, h⟩ := Option.map_eq_some_iff.1 h
      cases h
      simp [← ofCharacters?_eq_some_iff.1 hq]

/-- A spelling of two characters is taken whole. -/
theorem read?_pair {c d : Char} {p : Punctuator} (h : p.characters = [c, d]) (cs : List Char) :
    read? c (d :: cs) = some (p, cs) := by
  simp [read?, ofCharacters?_eq_some_iff.2 h.symm]

/-- A spelling of one character is taken when no longer one stands there. -/
theorem read?_single {c : Char} {cs : List Char} {p : Punctuator} (h : p.characters = [c])
    (hLong : ∀ (q : Punctuator) (d : Char), cs.head? = some d → q.characters ≠ [c, d]) :
    read? c cs = some (p, cs) := by
  have hOne : ofCharacters? [c] = some p := ofCharacters?_eq_some_iff.2 h.symm
  cases cs with
  | nil => simp [read?, hOne]
  | cons d ds =>
    have hTwo : ofCharacters? [c, d] = none :=
      ofCharacters?_eq_none_iff.2 fun q => hLong q d rfl
    simp [read?, hOne, hTwo]

/-- Where no spelling begins none is taken. -/
theorem read?_none {c : Char} (h : ∀ p : Punctuator, p.characters.head? ≠ some c)
    (cs : List Char) : read? c cs = none := by
  have hNone (ds : List Char) : ofCharacters? (c :: ds) = none :=
    ofCharacters?_eq_none_iff.2 fun p hp => h p (by rw [hp]; rfl)
  cases cs <;> simp [read?, hNone]

/-- A character that `read?` finds no punctuator at begins none. -/
theorem head?_ne_of_read? {c : Char} {cs : List Char} (h : read? c cs = none) (p : Punctuator) :
    p.characters.head? ≠ some c := by
  have hOne : ofCharacters? [c] = none := by
    cases cs with
    | nil => simpa [read?] using h
    | cons d cs =>
      simp only [read?] at h
      split at h
      · simp at h
      · simpa using h
  have hAll := List.find?_eq_none.1 hOne
  intro hHead
  obtain rfl : p.characters.head (characters_ne_nil p) = c := by
    simpa [List.head?_eq_some_head (characters_ne_nil p)] using hHead
  revert hAll
  cases p <;> decide

end Punctuator

end LoxLexer
