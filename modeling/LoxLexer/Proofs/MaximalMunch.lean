import LoxLexer.Proofs.Extent
import LoxLexer.Proofs.Pass
import Mathlib.Logic.ExistsUnique

/-!
# Maximal munch

The grammar says which elements may stand at the front of a text. Of these the longest is the one
that is read: an element that stops where it ends is read, and one that does not is shorter than
what is read. So the longest element is unique, the text in front of which it stands can be cut into
longest elements in one way only, and a scan is read off that cut.

## Main results

* `Element.isLongest_iff`: the longest element at the front of a text is the one that is read.
* `Element.cuts_iff`: the cut into longest elements is the one that is read.
* `Scan.existsUnique_cuts_ofSource`: a scan finds what the only cut into longest elements gives.
* `Scan.exists_mem_tokens_of_word`: a word is a keyword exactly when its letters are those of it.
-/

namespace LoxLexer

open Text

namespace Element

/-- An element at the front of a text is read there, or a longer one is. -/
theorem eq_read_or_length_lt {f : Element} {c : Char} {cs : List Char} (h : f.Begins (c :: cs)) :
    f = (read c cs).1 ∨ f.text.length < (read c cs).1.text.length := by
  obtain ⟨hForm, rest, hText, hOpen⟩ := h
  cases hStops : f.stops rest with
  | true =>
    left
    rw [read_of_stops hForm hStops hText]
  | false =>
    right
    exact length_lt_of_not_stops hForm hOpen hStops hText

/-- No element stands at the front of an empty text. -/
theorem not_begins_nil (f : Element) : ¬f.Begins [] := by
  rintro ⟨hForm, rest, hText, -⟩
  exact text_ne_nil hForm (List.append_eq_nil_iff.1 hText).1

/-- The longest element at the front of a text is the one that is read. -/
theorem isLongest_iff {e : Element} {c : Char} {cs : List Char} :
    e.IsLongest (c :: cs) ↔ e = (read c cs).1 := by
  constructor
  · rintro ⟨hBegins, hLongest⟩
    have hRead := hLongest _ (begins_read c cs)
    refine (eq_read_or_length_lt hBegins).resolve_right ?_
    omega
  · rintro rfl
    refine ⟨begins_read c cs, fun f hf => ?_⟩
    obtain rfl | hLess := eq_read_or_length_lt hf
    · exact Nat.le_refl _
    · omega

theorem cuts_elements (cs : List Char) : Cuts cs (elements cs) := by
  fun_induction elements cs with
  | case1 => exact .nil
  | case2 c cs ih => exact .cons (isLongest_iff.2 rfl) (text_append_rest_read c cs) ih

theorem eq_elements_of_cuts {cs : List Char} {es : List Element} (h : Cuts cs es) :
    es = elements cs := by
  induction h with
  | nil => exact elements_nil.symm
  | @cons cs rest e es longest split tail ih =>
    cases cs with
    | nil => exact absurd longest.1 (not_begins_nil e)
    | cons c cs =>
      obtain rfl := isLongest_iff.1 longest
      -- The element is the same as the one that is read, and so is what is left behind it.
      have hRest : rest = (read c cs).2 :=
        List.append_cancel_left (split.trans (text_append_rest_read c cs).symm)
      rw [elements_cons, ih, hRest]

/-- The cut of a text into longest elements is the one that is read. -/
theorem cuts_iff {cs : List Char} {es : List Element} : Cuts cs es ↔ es = elements cs := by
  constructor
  · exact eq_elements_of_cuts
  · rintro rfl
    exact cuts_elements cs

theorem text_ne_nil_of_cuts {cs : List Char} {es : List Element} (h : Cuts cs es) :
    ∀ e ∈ es, e.text ≠ [] := by
  induction h with
  | nil => simp
  | cons longest split tail ih =>
    rintro e (_ | ⟨_, hMem⟩)
    · exact text_ne_nil longest.1.1
    · exact ih e hMem

theorem texts_eq_of_cuts {cs : List Char} {es : List Element} (h : Cuts cs es) : texts es = cs := by
  rw [cuts_iff.1 h, texts_elements]

/-- A word is the keyword whose letters it has, or an identifier if no keyword has its letters. -/
theorem exists_token?_word (line : Nat) (letters : List Char) :
    ∃ t, (word letters).token? line = some t ∧ t.lexeme = String.ofList letters ∧
      (∀ k, t.kind = .keyword k ↔ letters = k.letters) ∧
      (t.kind = .identifier ↔ ∀ k : Keyword, letters ≠ k.letters) := by
  refine ⟨_, rfl, rfl, ?_⟩
  cases hFound : Keyword.ofLetters? letters with
  | none =>
    have hNone : ∀ k : Keyword, letters ≠ k.letters := by
      intro k hLetters
      rw [Keyword.ofLetters?_eq_some_iff.2 hLetters] at hFound
      cases hFound
    simp [hNone]
  | some found =>
    have hLetters := Keyword.ofLetters?_eq_some_iff.1 hFound
    constructor
    · intro k
      rw [← Keyword.ofLetters?_eq_some_iff, hFound]
      simp
    · simp [hLetters]

end Element

namespace Scan

/-- The scan of a text that has been cut into elements. -/
def ofElements (es : List Element) : Scan where
  stream := ⟨(Placed.place 1 0 es).filterMap Placed.token?, 1 + lineFeeds (Element.texts es)⟩
  errors := (Placed.place 1 0 es).filterMap Placed.error?

/-- A scan is read off the cut of its text. -/
theorem ofSource_eq_ofElements {source : String} {es : List Element}
    (h : Element.Cuts source.toList es) : ofSource source = ofElements es := by
  rw [ofSource_eq, ofElements, Element.texts_eq_of_cuts h, Element.cuts_iff.1 h]
  rfl

/-- Every text can be cut in exactly one way into elements each of which is the longest at the front
of what is left. None of them is empty, together they are the text, and a pass over the text finds
the tokens and the errors of these elements, in their order. -/
theorem existsUnique_cuts_ofSource (source : String) :
    (∃! es, Element.Cuts source.toList es) ∧
      ∀ es, Element.Cuts source.toList es →
        (∀ e ∈ es, e.text ≠ []) ∧ Element.texts es = source.toList ∧
          ofSource source = ofElements es := by
  constructor
  · exact ⟨Element.elements source.toList, Element.cuts_elements _,
      fun es h => Element.eq_elements_of_cuts h⟩
  · intro es h
    exact ⟨Element.text_ne_nil_of_cuts h, Element.texts_eq_of_cuts h, ofSource_eq_ofElements h⟩

/-- Every word of the cut has its token in the scan. It is the keyword whose letters it has, or an
identifier if no keyword has its letters. -/
theorem exists_mem_tokens_of_word {source : String} {es : List Element}
    (h : Element.Cuts source.toList es) {letters : List Char} (hMem : .word letters ∈ es) :
    ∃ t ∈ (ofSource source).stream.tokens, t.lexeme = String.ofList letters ∧
      (∀ k, t.kind = .keyword k ↔ letters = k.letters) ∧
      (t.kind = .identifier ↔ ∀ k : Keyword, letters ≠ k.letters) := by
  rw [← Placed.map_element_place 1 0 es] at hMem
  obtain ⟨p, hPlaced, hWord⟩ := List.mem_map.1 hMem
  obtain ⟨t, hToken, hKind⟩ := Element.exists_token?_word p.line letters
  refine ⟨t, ?_, hKind⟩
  rw [ofSource_eq_ofElements h]
  refine List.mem_filterMap.2 ⟨p, hPlaced, ?_⟩
  rw [Placed.token?, hWord, hToken]

end Scan

end LoxLexer
