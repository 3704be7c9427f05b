import LoxLexer.Token.Keyword
import LoxLexer.Token.Punctuator

/-!
# Kinds of tokens

A kind says what a token is. Kinds are ordered: the punctuators, then identifiers, strings and
numbers, then the keywords, and the end of the text last.
-/

namespace LoxLexer

/-- What a token is. -/
inductive TokenKind where
  | punctuator (p : Punctuator)
  | identifier
  | string
  | number
  | keyword (k : Keyword)
  | endOfText
deriving DecidableEq, Ord, Repr

namespace TokenKind

/-- All kinds in their order. -/
def all : List TokenKind :=
  Punctuator.all.map punctuator ++ [identifier, string, number] ++ Keyword.all.map keyword ++
    [endOfText]

theorem mem_all (kind : TokenKind) : kind ∈ all := by
  cases kind <;> simp [all, Punctuator.mem_all, Keyword.mem_all]

/-- The name of a kind, in upper case. -/
def name : TokenKind → String
  | punctuator p => p.name
  | identifier => "IDENTIFIER"
  | string => "STRING"
  | number => "NUMBER"
  | keyword k => k.name
  | endOfText => "EOF"

/-- The kind with the given name. -/
def ofName? (s : String) : Option TokenKind := all.find? fun kind => kind.name == s

/-- The kind is that of a reserved word. -/
def isKeyword : TokenKind → Bool
  | keyword _ => true
  | _ => false

end TokenKind

end LoxLexer
