import LoxLexer.Token.Basic

/-!
# Token streams

A stream is the tokens of a text in their order, behind which stands one more token for the end of
the text. A stream is therefore never empty.

## Main results

* `get?_eq_none_iff`: a token is missing exactly where `index` reports the bounds.
* `getLast?_toList`: the last token is the end of the text.
-/

namespace LoxLexer

/-- The tokens of a text, and the number of the line on which the text ends. -/
structure TokenStream where
  tokens : List Token
  endLine : Nat
deriving DecidableEq, Repr

/-- The complaint about a position behind the last token. -/
structure IndexOutOfBounds where
  size : Nat
  index : Nat
deriving DecidableEq, Repr

/-- The wording of the complaint. -/
def IndexOutOfBounds.message (e : IndexOutOfBounds) : String :=
  "index out of bounds: the len is " ++ toString e.size ++ " but the index is " ++ toString e.index

namespace TokenStream

/-- The token that ends the stream. -/
def endToken (s : TokenStream) : Token := .endOfText s.endLine

/-- All tokens of the stream, the last one included. -/
def toList (s : TokenStream) : List Token := s.tokens ++ [s.endToken]

/-- The number of tokens, the last one included. -/
def size (s : TokenStream) : Nat := s.toList.length

/-- The token at a position, counted from zero. -/
def get? (s : TokenStream) (i : Nat) : Option Token := s.toList[i]?

/-- The token at a position, counted from zero, or a complaint. -/
def index (s : TokenStream) (i : Nat) : Except IndexOutOfBounds Token :=
  match s.get? i with
  | some t => .ok t
  | none => .error ⟨s.size, i⟩

/-- The first token. -/
def first (s : TokenStream) : Token := s.tokens.headD s.endToken

/-- The last token. -/
def last (s : TokenStream) : Token := s.endToken

/-- The kinds of all tokens. -/
def kinds (s : TokenStream) : List TokenKind := s.toList.map Token.kind

/-- Streams are equal when their tokens are. -/
def equal (a b : TokenStream) : Bool := a.toList == b.toList

instance : BEq TokenStream := ⟨equal⟩

@[simp] theorem size_eq (s : TokenStream) : s.size = s.tokens.length + 1 := by
  simp [size, toList]

theorem get?_eq_none_iff (s : TokenStream) (i : Nat) : s.get? i = none ↔ s.size ≤ i := by
  simp [get?, size]

theorem head?_toList (s : TokenStream) : s.toList.head? = some s.first := by
  cases h : s.tokens <;> simp [toList, first, h]

theorem getLast?_toList (s : TokenStream) : s.toList.getLast? = some s.last := by
  simp [toList, last]

end TokenStream

end LoxLexer
