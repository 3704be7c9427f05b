import LoxLexer.Text.DefaultIgnorable
import LoxLexer.Text.GraphemeExtend
import LoxLexer.Text.Unprintable

/-!
# Quoted text

A text between double quotes, in which a reader can tell every character. What would end the
quotation or break the line is written with a backslash and a letter. What cannot be seen, or is
seen only as a part of the character in front of it, is written by its number. Everything else
stays as it is, single quotes and the letters of every script included.
-/

namespace LoxLexer.Text

/-- The character by its number, in base sixteen and without leading zeros. -/
def numberedChar (c : Char) : List Char :=
  ['\\', 'u', '\x7b'] ++ Nat.toDigits 16 c.toNat ++ ['\x7d']

/-- The character cannot be seen, or only as a part of the one in front of it. -/
def isHidden (c : Char) : Bool := isExtendingMark c || isDefaultIgnorable c || isUnprintable c

/-- A character as it is written inside quotes. -/
def quotedChar (c : Char) : List Char :=
  if c = '"' then ['\\', '"']
  else if c = '\\' then ['\\', '\\']
  else if c = '\t' then ['\\', 't']
  else if c = '\r' then ['\\', 'r']
  else if c = '\n' then ['\\', 'n']
  else if c = '\x00' then ['\\', '0']
  else if isHidden c then numberedChar c
  else [c]

/-- A text between quotes. -/
def quote (s : String) : String := String.ofList ('"' :: s.toList.flatMap quotedChar ++ ['"'])

end LoxLexer.Text
