import LoxLexer.Token.Kind
import LoxLexer.Token.Literal

/-!
# Tokens

A token is a classified piece of a text: its kind, the piece itself, the value it denotes, and the
line on which it begins.
-/

namespace LoxLexer

/-- A classified piece of a text. Lines are counted from 1. Only strings and numbers have a
literal. The token that ends every stream has an empty lexeme. -/
structure Token where
  kind : TokenKind
  lexeme : String
  literal : Option Literal
  line : Nat
deriving DecidableEq, Repr

namespace Token

/-- The token that stands behind all others, on the last line of the text. -/
def endOfText (line : Nat) : Token := ⟨.endOfText, "", none, line⟩

/-- The text that shows a token: kind, lexeme and literal. -/
def text (t : Token) : String :=
  t.kind.name ++ " " ++ t.lexeme ++ " " ++ t.literal.elim "nil" Literal.text

/-- Tokens are equal when all their parts are; literals are compared by value. -/
def equal (a b : Token) : Bool :=
  a.kind == b.kind && a.lexeme == b.lexeme && a.literal == b.literal && a.line == b.line

instance : BEq Token := ⟨equal⟩

theorem beq_def (a b : Token) :
    (a == b) =
      (a.kind == b.kind && a.lexeme == b.lexeme && a.literal == b.literal && a.line == b.line) :=
  rfl

/-- The same token, `n` lines further down. -/
def shift (n : Nat) (t : Token) : Token := { t with line := t.line + n }

end Token

end LoxLexer
