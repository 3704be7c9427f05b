/-!
# Styles

The styles of a terminal. A styled text is wrapped in the code that turns the style on and the code
that turns all styles off. Styles nest from the inside out: the reset of the inner style comes
first, so that what an outer style adds behind it is plain.
-/

namespace LoxLexer

/-- A weight, a decoration or a color of text on a terminal. -/
inductive Style where
  | bold | underline | red | yellow | cyan
deriving DecidableEq, Repr

namespace Style

/-- The code that turns a style on. -/
def code : Style → String
  | bold => "\x1b[1m"
  | underline => "\x1b[4m"
  | red => "\x1b[31m"
  | yellow => "\x1b[33m"
  | cyan => "\x1b[36m"

/-- The code that turns all styles off. -/
def reset : String := "\x1b[0m"

/-- A text in a style. -/
def apply (style : Style) (s : String) : String := style.code ++ s ++ reset

end Style

end LoxLexer
