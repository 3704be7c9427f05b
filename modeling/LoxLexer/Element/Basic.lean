import LoxLexer.Text.Characters
import LoxLexer.Token.Punctuator

/-!
# Elements of a text

Every text is a sequence of elements, with nothing between them and nothing left over. An element
is a blank, a comment, a string, a number, a word, a punctuator, or a stray character that begins
none of these. A comment or a string that the text does not close is an element too, and the last.

`Element.text` is the way back: it gives the characters that an element was read from.
-/

namespace LoxLexer

/-- A piece of a text, with the parts that matter. -/
inductive Element where
  /-- A space, a tab, a carriage return or a line feed. -/
  | blank (c : Char)
  /-- Two slashes and the characters behind them on their line. -/
  | lineComment (body : List Char)
  /-- The characters between the outermost delimiters of a block comment. -/
  | blockComment (body : List Char)
  /-- The characters behind the opening delimiter of a block comment that is not closed, and the
  number of comments that are open at the end of the text. -/
  | openComment (body : List Char) (depth : Nat)
  /-- The characters between two quotes. -/
  | string (body : List Char)
  /-- The characters behind a quote that no other quote follows. -/
  | openString (body : List Char)
  /-- The digits in front of a decimal point and those behind it. Without a point there are no
  digits behind it. -/
  | number (whole fraction : List Char)
  /-- A keyword or an identifier. -/
  | word (letters : List Char)
  /-- A mark of punctuation or an operator. -/
  | punctuator (p : Punctuator)
  /-- A character that begins no element. -/
  | stray (c : Char)
deriving DecidableEq, Repr

namespace Element

/-- The text of a number. -/
def numberText (whole fraction : List Char) : List Char :=
  whole ++ if fraction = [] then [] else '.' :: fraction

/-- The characters of an element. -/
def text : Element → List Char
  | blank c => [c]
  | lineComment body => '/' :: '/' :: body
  | blockComment body => '/' :: '*' :: body ++ ['*', '/']
  | openComment body _ => '/' :: '*' :: body
  | string body => '"' :: body ++ ['"']
  | openString body => '"' :: body
  | number whole fraction => numberText whole fraction
  | word letters => letters
  | punctuator p => p.characters
  | stray c => [c]

/-- The text of a sequence of elements. -/
def texts (es : List Element) : List Char := es.flatMap text

@[simp] theorem texts_nil : texts [] = [] := rfl

@[simp] theorem texts_cons (e : Element) (es : List Element) :
    texts (e :: es) = e.text ++ texts es := by
  simp [texts]

@[simp] theorem texts_append (es fs : List Element) : texts (es ++ fs) = texts es ++ texts fs := by
  simp [texts]

end Element

end LoxLexer
