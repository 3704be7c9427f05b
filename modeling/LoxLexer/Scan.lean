import LoxLexer.Element.Placed
import LoxLexer.Scan.Pass

/-!
# Scanning a text

A scan is what one pass over a text finds: the tokens, and the errors that were kept in a log.

The same can be said without a pass. A text is a sequence of elements; put in their places, some of
them give a token and some an error, both in the order of the text.

## Main definitions

* `Scan.ofSource`: the scan of a text, by a pass.
* `Scan.ofText`: the scan of a text, by its elements.
* `Scan.placed`: the elements of a text in their places.
-/

namespace LoxLexer

open Text

/-- What a scan finds in a text: its tokens, and what is wrong with it. -/
structure Scan where
  stream : TokenStream
  errors : List LexicalError
deriving DecidableEq, Repr

namespace Scan

/-- The elements of a text in their places. The first line has the number 1. -/
def placed (cs : List Char) : List Placed := Placed.place 1 0 (Element.elements cs)

/-- The scan of a text, read off its elements. -/
def ofText (cs : List Char) : Scan where
  stream := ⟨(placed cs).filterMap Placed.token?, 1 + lineFeeds cs⟩
  errors := (placed cs).filterMap Placed.error?

/-- The scan of a text, found by one pass over it. -/
def ofSource (source : String) : Scan :=
  let pass := (Pass.ofSource source ({} : ErrorLog)).run
  ⟨pass.stream, pass.sink.errors⟩

end Scan

/-- The tokens of a text. -/
def TokenStream.ofSource (source : String) : TokenStream := (Scan.ofSource source).stream

end LoxLexer
