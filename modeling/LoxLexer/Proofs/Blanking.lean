import LoxLexer.Proofs.OpenElement
import Mathlib.Data.List.Forall2

/-!
# Blanking out comments and stray characters

Comments and stray characters separate what stands around them as blanks do, and mean nothing else.
With a space in place of each of their characters, line feeds apart, a text has the same tokens on
the same lines, and only a string can still be wrong in it.

The proof follows the elements. Those that are kept stop in front of the same characters or of
blanks, and an element that is kept stops in front of a blank.

## Main results

* `Element.stops_of_forall₂`: what stops still stops when characters behind it become blanks.
* `Element.Settled.flatMap_blanked`: the elements of a text that was blanked out.
* `Scan.ofSource_blankedTexts`: the scan of a text that was blanked out.
-/

namespace LoxLexer

open Text

/-- What takes the place of a character that is blanked out: line feeds stay, all else becomes a
space. -/
def Text.blankOut (c : Char) : Char := if c = '\n' then '\n' else ' '

/-- The error reports that the text ended inside a string. -/
def LexicalError.isUnterminatedString : LexicalError → Bool
  | unterminatedString _ => true
  | _ => false

theorem LexicalError.length_filter_isUnterminatedString_le (errors : List LexicalError) :
    (errors.filter isUnterminatedString).length ≤ (errors.filter isUnterminated).length := by
  rw [← List.countP_eq_length_filter, ← List.countP_eq_length_filter]
  refine List.countP_mono_left fun error _ h => ?_
  cases error <;> simp_all [isUnterminatedString, isUnterminated]

namespace Text

theorem isBlank_blankOut (c : Char) : isBlank (blankOut c) = true := by
  unfold blankOut
  split <;> rfl

/-- Blanking out leaves the lines as they are. -/
theorem lineFeeds_map_blankOut (cs : List Char) : lineFeeds (cs.map blankOut) = lineFeeds cs := by
  induction cs with
  | nil => rfl
  | cons c cs ih =>
    by_cases hFeed : c = '\n' <;> simp [lineFeeds_cons, ih, blankOut, hFeed]

/-- The second character is the first, or a blank in its place. -/
def IsKeptOrBlank (c d : Char) : Prop := d = c ∨ isBlank d = true

end Text

namespace Element

/-- The element is a comment, be it closed or not, or a stray character. -/
def isBlankedOut : Element → Bool
  | lineComment _ | blockComment _ | openComment _ _ | stray _ => true
  | _ => false

/-- The text of the element, blanked out if it is a comment or a stray character. -/
def blankedText (e : Element) : List Char :=
  if e.isBlankedOut then e.text.map blankOut else e.text

/-- The text of a sequence of elements, in which comments and stray characters are blanked out. -/
def blankedTexts (es : List Element) : List Char := es.flatMap blankedText

/-- The elements in place of one: blanks for a comment or a stray character. -/
def blanked (e : Element) : List Element :=
  if e.isBlankedOut then e.text.map fun c => blank (blankOut c) else [e]

theorem texts_map_blank (cs : List Char) : texts (cs.map blank) = cs := by
  induction cs with
  | nil => rfl
  | cons c cs ih => simp [ih, text]

theorem blanked_of_isBlankedOut {e : Element} (h : e.isBlankedOut = true) :
    e.blanked = (e.text.map blankOut).map blank := by
  rw [blanked, if_pos h, List.map_map]
  rfl

theorem blanked_of_kept {e : Element} (h : e.isBlankedOut = false) : e.blanked = [e] := by
  simp [blanked, h]

theorem texts_blanked (e : Element) : texts e.blanked = e.blankedText := by
  cases h : e.isBlankedOut with
  | true => rw [blanked_of_isBlankedOut h, texts_map_blank, blankedText, if_pos h]
  | false => simp [blanked_of_kept h, blankedText, h]

theorem texts_flatMap_blanked (es : List Element) :
    texts (es.flatMap blanked) = blankedTexts es := by
  induction es with
  | nil => rfl
  | cons e es ih => simp [List.flatMap_cons, ih, texts_blanked, blankedTexts]

theorem lineFeeds_blankedText (e : Element) : lineFeeds e.blankedText = lineFeeds e.text := by
  unfold blankedText
  split
  · exact lineFeeds_map_blankOut e.text
  · rfl

theorem lineFeeds_blankedTexts (es : List Element) :
    lineFeeds (blankedTexts es) = lineFeeds (texts es) := by
  induction es with
  | nil => rfl
  | cons e es ih =>
    rw [blankedTexts, List.flatMap_cons, lineFeeds_append, lineFeeds_blankedText, texts_cons,
      lineFeeds_append, ← ih, blankedTexts]

/-! ## The elements stop as before -/

theorem forall₂_blankedText (e : Element) :
    List.Forall₂ IsKeptOrBlank e.text e.blankedText := by
  unfold blankedText
  split
  · rw [List.forall₂_map_right_iff, List.forall₂_same]
    exact fun c _ => .inr (isBlank_blankOut c)
  · exact List.forall₂_same.2 fun c _ => .inl rfl

/-- Blanking out keeps every character or puts a blank in its place. -/
theorem forall₂_blankedTexts (es : List Element) :
    List.Forall₂ IsKeptOrBlank (texts es) (blankedTexts es) := by
  induction es with
  | nil => exact .nil
  | cons e es ih =>
    rw [texts_cons]
    exact List.rel_append (forall₂_blankedText e) ih

/-- A text looks as before when blanks take the place of some of its characters. -/
theorem looksLike_of_forall₂ {cs ds : List Char} (h : List.Forall₂ IsKeptOrBlank cs ds) :
    LooksLike cs ds := by
  match h with
  | .nil => exact .first rfl
  | .cons (.inr hBlank) _ => exact .first hBlank
  | .cons (.inl rfl) .nil => exact .second rfl
  | .cons (.inl rfl) (.cons (.inr hBlank) _) => exact .second hBlank
  | .cons (.inl rfl) (.cons (.inl rfl) _) => exact .both

/-- What is kept and stops in front of a text still stops when blanks take the place of some of its
characters. -/
theorem stops_of_forall₂ {e : Element} {cs ds : List Char} (hKept : e.isBlankedOut = false)
    (h : List.Forall₂ IsKeptOrBlank cs ds) (hStops : e.stops cs = true) : e.stops ds = true := by
  cases e with
  | openString body => cases h <;> simp_all [stops]
  | lineComment _ | openComment _ _ => simp [isBlankedOut] at hKept
  | _ => exact stops_of_looksLike (looksLike_of_forall₂ h) rfl hStops

namespace Settled

variable {rest : List Char} {es : List Element}

theorem map_blank {cs : List Char} (h : ∀ c ∈ cs, isBlank c = true) (rest : List Char) :
    Settled rest (cs.map blank) := by
  induction cs with
  | nil => exact .nil
  | cons c cs ih =>
    exact .cons (h c List.mem_cons_self) rfl (ih fun d hd => h d (List.mem_cons_of_mem c hd))

/-- Blanked out, the elements of a text are those that were kept, and blanks. -/
theorem flatMap_blanked (h : Settled [] es) : Settled [] (es.flatMap blanked) := by
  induction h with
  | nil => exact .nil
  | @cons e es wellFormed stops tail ih =>
    rw [List.flatMap_cons, append_iff, texts_flatMap_blanked]
    refine ⟨?_, ih⟩
    cases hKept : e.isBlankedOut with
    | true =>
      rw [blanked_of_isBlankedOut hKept]
      refine map_blank (fun c hMem => ?_) _
      obtain ⟨d, -, rfl⟩ := List.mem_map.1 hMem
      exact isBlank_blankOut d
    | false =>
      rw [blanked_of_kept hKept]
      rw [List.append_nil] at stops ⊢
      exact .cons wellFormed (stops_of_forall₂ hKept (forall₂_blankedTexts es) stops) .nil

end Settled

/-! ## What is found -/

theorem collect_map_blank {α : Type} {find : Nat → Element → Option α}
    (hBlank : ∀ line c, find line (blank c) = none) (line : Nat) (cs : List Char) :
    collect find line (cs.map blank) = [] := by
  refine collect_eq_nil (fun e hMem line => ?_) line
  obtain ⟨c, -, rfl⟩ := List.mem_map.1 hMem
  exact hBlank line c

/-- In place of an element the same token is found. -/
theorem collect_token?_blanked (line : Nat) (e : Element) :
    collect token? line e.blanked = (e.token? line).toList := by
  cases hKept : e.isBlankedOut with
  | true =>
    have hNone : e.token? line = none := by
      cases e <;> first | rfl | cases hKept
    rw [blanked_of_isBlankedOut hKept, collect_map_blank fun _ _ => rfl, hNone, Option.toList_none]
  | false => simp [blanked_of_kept hKept, collect]

/-- In place of an element no error is found but that of a string. -/
theorem collect_error?_blanked (line : Nat) (e : Element) :
    collect error? line e.blanked =
      ((e.error? line).filter LexicalError.isUnterminatedString).toList := by
  cases hKept : e.isBlankedOut with
  | true =>
    have hNone : (e.error? line).filter LexicalError.isUnterminatedString = none := by
      cases e <;> first | rfl | cases hKept
    rw [blanked_of_isBlankedOut hKept, collect_map_blank fun _ _ => rfl, hNone, Option.toList_none]
  | false =>
    rw [blanked_of_kept hKept]
    cases e <;> first | rfl | cases hKept

end Element

namespace Scan

/-- With comments and stray characters blanked out, a scan finds the same tokens on the same lines,
and of the errors it finds the one of a string that is left open, if there is one. -/
theorem ofSource_blankedTexts {source : String} {es : List Element}
    (h : Element.Cuts source.toList es) :
    (ofSource (String.ofList (Element.blankedTexts es))).stream = (ofSource source).stream ∧
      (ofSource (String.ofList (Element.blankedTexts es))).errors =
        (ofSource source).errors.filter LexicalError.isUnterminatedString ∧
      ((ofSource source).errors.filter LexicalError.isUnterminatedString).length ≤ 1 := by
  have hSettled : Element.Settled [] es := by
    rw [Element.cuts_iff.1 h]
    exact Element.settled_elements source.toList
  have hBlanked : ofSource (String.ofList (Element.blankedTexts es)) =
      ofElements (es.flatMap Element.blanked) :=
    ofSource_of_settled hSettled.flatMap_blanked
      (by rw [Element.texts_flatMap_blanked, String.toList_ofList])
  have hLines (e : Element) : lineFeeds (Element.texts e.blanked) = lineFeeds e.text := by
    rw [Element.texts_blanked, Element.lineFeeds_blankedText]
  rw [hBlanked, ofSource_eq_ofElements h, ofElements_eq, ofElements_eq]
  refine ⟨?_, ?_, ?_⟩
  · rw [Element.collect_flatMap Element.collect_token?_blanked hLines,
      Element.texts_flatMap_blanked, Element.lineFeeds_blankedTexts]
  · rw [Element.filter_collect]
    exact Element.collect_flatMap Element.collect_error?_blanked hLines 1 es
  · refine Nat.le_trans ?_ (Element.length_filter_isUnterminated_le hSettled 1)
    exact LexicalError.length_filter_isUnterminatedString_le _

/-- Two words with a stray character and a comment between them stay two, and the quotes inside the
comment begin no string. -/
theorem ofSource_blankedTexts_quoted :
    Element.Cuts "a@b/*\"\n\"*/c\"".toList
        [.word ['a'], .stray '@', .word ['b'], .blockComment ['"', '\n', '"'], .word ['c'],
          .openString []] ∧
      (ofSource "a b   \n   c\"").stream = (ofSource "a@b/*\"\n\"*/c\"").stream ∧
      (ofSource "a b   \n   c\"").errors =
        (ofSource "a@b/*\"\n\"*/c\"").errors.filter LexicalError.isUnterminatedString ∧
      ((ofSource "a@b/*\"\n\"*/c\"").errors.filter
        LexicalError.isUnterminatedString).length ≤ 1 := by
  have hCuts : Element.Cuts "a@b/*\"\n\"*/c\"".toList
      [.word ['a'], .stray '@', .word ['b'], .blockComment ['"', '\n', '"'], .word ['c'],
        .openString []] :=
    Element.cuts_iff.2 (by decide +kernel)
  exact ⟨hCuts, ofSource_blankedTexts hCuts⟩

end Scan

end LoxLexer
