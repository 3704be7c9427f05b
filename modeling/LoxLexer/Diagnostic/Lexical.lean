import LoxLexer.Diagnostic.Basic

/-!
# Lexical errors

Three things can be wrong with a text. None of them stops the scan: the part at fault gives no
token and is passed over. The first concerns a character in the midst of the text, the other two
an element that the text leaves open, and so they are found on its last line.
-/

namespace LoxLexer

/-- What is wrong with a text, and on which line that showed. Errors are ordered by their cause as
listed here, then by line, then by the character or depth. -/
inductive LexicalError where
  /-- A character that begins no element. -/
  | unexpectedCharacter (line : Nat) (character : Char)
  /-- The text ended inside a string. -/
  | unterminatedString (line : Nat)
  /-- The text ended inside this many nested block comments. -/
  | unterminatedBlockComment (line : Nat) (openDepth : Nat)
deriving DecidableEq, Ord, Repr

namespace LexicalError

/-- The line on which the error showed. -/
def line : LexicalError → Nat
  | unexpectedCharacter line _ => line
  | unterminatedString line => line
  | unterminatedBlockComment line _ => line

/-- The error is an element that was left open. -/
def isUnterminated : LexicalError → Bool
  | unexpectedCharacter _ _ => false
  | unterminatedString _ => true
  | unterminatedBlockComment _ _ => true

/-- What is wrong, in words. -/
def message : LexicalError → String
  | unexpectedCharacter _ character => "unexpected character `" ++ String.singleton character ++ "`"
  | unterminatedString _ => "unterminated string"
  | unterminatedBlockComment _ openDepth =>
    if openDepth = 1 then "1 comment block unterminated"
    else toString openDepth ++ " comment blocks unterminated"

/-- What to do about it. There is no remedy for a stray character. -/
def help : LexicalError → Option String
  | unexpectedCharacter _ _ => none
  | unterminatedString _ => some "add a closing `\"` to the string"
  | unterminatedBlockComment _ openDepth =>
    some ("add " ++ toString openDepth ++ " `*/` to close the open comments")

/-- The diagnostic that reports an error. -/
def toDiagnostic (error : LexicalError) : Diagnostic := ⟨error.line, error.message, error.help⟩

/-- There is a help for an element that was left open, and for nothing else. -/
theorem exists_help_iff {error : LexicalError} :
    (∃ remedy, error.help = some remedy) ↔
      (∃ line, error = .unterminatedString line) ∨
        ∃ line openDepth, error = .unterminatedBlockComment line openDepth := by
  cases error <;> simp [help]

/-- The same error, `n` lines further down. -/
def shift (n : Nat) : LexicalError → LexicalError
  | unexpectedCharacter line character => unexpectedCharacter (line + n) character
  | unterminatedString line => unterminatedString (line + n)
  | unterminatedBlockComment line openDepth => unterminatedBlockComment (line + n) openDepth

end LexicalError

end LoxLexer
