import LoxLexer.Text.Bytes
import LoxLexer.Text.Characters

/-!
# The lines of a text

Lines end at line feeds and nowhere else. A text with `n` line feeds has `n + 1` lines, the last
of which may be empty. The line table holds the byte range of every line without its line feed;
a carriage return in front of the line feed is still in the range, and is dropped when the line
is read out.

## Main results

* `length_lineRanges`: there is one line more than there are line feeds.
-/

namespace LoxLexer.Text

/-- The byte ranges of the lines of `cs`, where the current line began at byte `start` and the
first character of `cs` stands at byte `position`. -/
def lineRangesFrom (start position : Nat) : List Char → List ByteRange
  | [] => [⟨start, position⟩]
  | c :: cs =>
    if c = '\n' then ⟨start, position⟩ :: lineRangesFrom (position + 1) (position + 1) cs
    else lineRangesFrom start (position + c.utf8Size) cs

/-- The line table of a text. -/
def lineRanges (cs : List Char) : List ByteRange := lineRangesFrom 0 0 cs

theorem length_lineRangesFrom (start position : Nat) (cs : List Char) :
    (lineRangesFrom start position cs).length = lineFeeds cs + 1 := by
  induction cs generalizing start position with
  | nil => rfl
  | cons c cs ih =>
    by_cases h : c = '\n' <;> simp [lineRangesFrom, lineFeeds_cons, h, ih]

theorem length_lineRanges (cs : List Char) : (lineRanges cs).length = lineFeeds cs + 1 :=
  length_lineRangesFrom 0 0 cs

/-- A line without the carriage return that may end it. Of several in a row only the last goes. -/
def dropCarriageReturn (cs : List Char) : List Char :=
  if cs.getLast? = some '\r' then cs.dropLast else cs

end LoxLexer.Text
