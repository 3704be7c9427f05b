import LoxLexer.Proofs.OpenElement

/-!
# Line breaks

A line feed ends every element but a string or a block comment, and belongs to none that it ends.
So the elements of a text that leaves nothing open are read in the same way when a line feed and
more text come behind them, and the text behind is read as if it stood alone, further down.

## Main results

* `Element.stops_append_lineFeed`: a line feed ends what the end of the text ends.
* `Element.token?_add`, `Element.error?_add`: what an element gives on a later line.
* `Scan.ofSource_append_lineFeed`: the scan of two texts with a line feed between them.
-/

namespace LoxLexer

open Text

namespace Element

theorem looksLike_append_lineFeed (cs after : List Char) :
    LooksLike cs (cs ++ '\n' :: after) := by
  match cs with
  | [] => exact .first rfl
  | [_] => exact .second rfl
  | _ :: _ :: _ => exact .both

/-- In front of a line feed stops what stops at the end of the text, unless that left it open. -/
theorem stops_append_lineFeed {e : Element} {cs : List Char} (hClosed : e.isOpen = false)
    (h : e.stops cs = true) (after : List Char) : e.stops (cs ++ '\n' :: after) = true := by
  cases e with
  | lineComment _ => cases cs <;> simp_all [stops]
  | openComment _ _ | openString _ => simp [isOpen] at hClosed
  | _ => exact stops_of_looksLike (looksLike_append_lineFeed cs after) rfl h

/-- What leaves nothing open is settled in front of a line feed. -/
theorem Settled.append_lineFeed {es : List Element} (h : Settled [] es)
    (hClosed : ∀ e ∈ es, e.isOpen = false) (after : List Char) : Settled ('\n' :: after) es := by
  refine h.imp fun e hMem cs hStops => ?_
  rw [List.append_nil] at hStops
  exact stops_append_lineFeed (hClosed e hMem) hStops after

/-- Further down an element has the same token, further down. -/
theorem token?_add (n line : Nat) (e : Element) :
    e.token? (line + n) = (e.token? line).map (Token.shift n) := by
  cases e <;> rfl

/-- Further down an element has the same error, further down. -/
theorem error?_add (n line : Nat) (e : Element) :
    e.error? (line + n) = (e.error? line).map (LexicalError.shift n) := by
  have hEnd (f : Element) : f.endLine (line + n) = f.endLine line + n := by
    simp only [endLine]
    omega
  cases e <;> simp [error?, LexicalError.shift, hEnd]

end Element

namespace Scan

/-- Of two texts with a line feed between them the scan finds what it finds in the first, and then
what it finds in the second, as many lines further down as end in the first and with the line feed.
Only the first must not leave anything open. -/
theorem ofSource_append_lineFeed (a b : String)
    (h : ∀ error ∈ (ofSource a).errors, error.isUnterminated = false) :
    (ofSource (a ++ "\n" ++ b)).stream.toList =
        (ofSource a).stream.tokens ++
          (ofSource b).stream.toList.map (Token.shift (1 + lineFeeds a.toList)) ∧
      (ofSource (a ++ "\n" ++ b)).errors =
        (ofSource a).errors ++
          (ofSource b).errors.map (LexicalError.shift (1 + lineFeeds a.toList)) := by
  obtain ⟨es, hFirst, hFirstText, hFirstScan⟩ := exists_settled a
  obtain ⟨fs, hSecond, hSecondText, hSecondScan⟩ := exists_settled b
  rw [hFirstScan, ofElements_eq] at h
  have hFeed : Element.Settled [] (.blank '\n' :: fs) := .cons rfl rfl hSecond
  have hBoth : Element.Settled [] (es ++ .blank '\n' :: fs) := by
    refine Element.Settled.append_iff.2 ⟨?_, hFeed⟩
    exact hFirst.append_lineFeed (Element.forall_isUnterminated_iff.1 h) _
  have hText : Element.texts (es ++ .blank '\n' :: fs) = (a ++ "\n" ++ b).toList := by
    simp [hFirstText, hSecondText, Element.text]
  have hLine : (Element.blank '\n').endLine (1 + lineFeeds a.toList) =
      1 + (1 + lineFeeds a.toList) := by
    simp [Element.endLine, Element.text, lineFeeds_cons, Nat.add_comm]
  rw [ofSource_of_settled hBoth hText, hFirstScan, hSecondScan]
  simp only [ofElements_eq, Element.collect_append, Element.collect, hFirstText, hLine,
    Element.collect_add (Element.token?_add _), Element.collect_add (Element.error?_add _)]
  constructor
  · simp [TokenStream.toList, TokenStream.endToken, Token.endOfText, Token.shift, Element.token?,
      Element.text, hFirstText, hSecondText, lineFeeds_cons]
    omega
  · rfl

/-- The first text ends in a line comment, in the second a string is left open. -/
theorem ofSource_append_lineFeed_lineComment :
    (∀ error ∈ (ofSource "1.@//").errors, error.isUnterminated = false) ∧
      (ofSource ("1.@//" ++ "\n" ++ "5\"")).stream.toList =
          (ofSource "1.@//").stream.tokens ++
            (ofSource "5\"").stream.toList.map (Token.shift 1) ∧
        (ofSource ("1.@//" ++ "\n" ++ "5\"")).errors =
          (ofSource "1.@//").errors ++ (ofSource "5\"").errors.map (LexicalError.shift 1) := by
  have hClosed : ∀ error ∈ (ofSource "1.@//").errors, error.isUnterminated = false := by
    decide +kernel
  exact ⟨hClosed, ofSource_append_lineFeed "1.@//" "5\"" hClosed⟩

end Scan

end LoxLexer
