import LoxLexer.Proofs.OpenElement
import Mathlib.Data.List.DropRight

/-!
# Text that is appended

An element sees at most two characters of what comes behind it. So text that is appended can only
change how a text ends: the last element may go on, and a whole number with a point behind it may
become a number with a fraction. All elements in front of these stop as before, and what a scan has
found in them it finds again. No stray character is among what changes, since it stops in front of
any text.

## Main results

* `Element.eq_nil_or_point_of_not_stops`: where an element goes on only after text was appended.
* `Element.Settled.exists_kept`: the elements of a text that appended text leaves as they are.
* `Scan.prefix_ofSource_append`: what a scan finds again when text is appended.
-/

namespace LoxLexer

open Text

/-- The error reports a character that begins no element. -/
def LexicalError.isUnexpectedCharacter : LexicalError → Bool
  | unexpectedCharacter _ _ => true
  | _ => false

namespace Element

/-- An element that stops in front of a text, and goes on when more text is appended to that, has
nothing in front of it, or just a point. The same is so if it was left open. -/
theorem eq_nil_or_point_of_not_stops {e : Element} {cs ds : List Char} (hStops : e.stops cs = true)
    (h : ¬(e.isOpen = false ∧ e.stops (cs ++ ds) = true)) : cs = [] ∨ cs = ['.'] := by
  rcases cs with _ | ⟨c, cs⟩
  · exact .inl rfl
  right
  cases e with
  | openComment _ _ | openString _ => simp [stops] at hStops
  | number whole fraction =>
    -- A number looks beyond the next character only if that is a point.
    rcases cs with _ | ⟨d, cs⟩
    · by_cases hPoint : c = '.'
      · rw [hPoint]
      · refine absurd ⟨rfl, ?_⟩ h
        simpa [stops, hPoint] using hStops
    · exact absurd ⟨rfl, hStops⟩ h
  | _ => exact absurd ⟨rfl, hStops⟩ h

theorem stops_stray (c : Char) (cs : List Char) : (stray c).stops cs = true := rfl

namespace Settled

/-- The elements of a point are a dot. -/
theorem eq_dot {es : List Element} (h : Settled [] es) (hText : texts es = ['.']) :
    es = [punctuator .dot] := by
  rw [← h.elements_texts, hText, elements_cons]
  show punctuator .dot :: elements [] = _
  rw [elements_nil]

/-- When text is appended, all elements stay as they are but two at most, which are the last. None
of these is a stray character, and none of those that stay was left open. -/
theorem exists_kept {es : List Element} (h : Settled [] es) (ds : List Char) :
    ∃ kept changed, es = kept ++ changed ∧ Settled (texts changed ++ ds) kept ∧
      changed.length ≤ 2 ∧ (∀ e ∈ kept, e.isOpen = false) ∧ ∀ c, stray c ∉ changed := by
  induction h with
  | nil => exact ⟨[], [], rfl, .nil, by simp, by simp, by simp⟩
  | @cons e es wellFormed stops tail ih =>
    rw [List.append_nil] at stops
    by_cases hKeep : e.isOpen = false ∧ e.stops (texts es ++ ds) = true
    · obtain ⟨kept, changed, rfl, hKept, hShort, hClosed, hStray⟩ := ih
      refine ⟨e :: kept, changed, rfl, .cons wellFormed ?_ hKept, hShort, ?_, hStray⟩
      · rw [← List.append_assoc, ← texts_append]
        exact hKeep.2
      · intro f hMem
        rcases List.mem_cons.1 hMem with rfl | hBehind
        · exact hKeep.1
        · exact hClosed f hBehind
    · have hNotStray : ∀ c, stray c ≠ e := by
        rintro c rfl
        exact hKeep ⟨rfl, stops_stray c _⟩
      rcases eq_nil_or_point_of_not_stops stops hKeep with hText | hText
      · have hNil : es = [] := by
          rw [← tail.elements_texts, hText, elements_nil]
        subst hNil
        exact ⟨[], [e], rfl, .nil, by simp, by simp, by simpa using hNotStray⟩
      · have hDot := tail.eq_dot hText
        subst hDot
        exact ⟨[], [e, punctuator .dot], rfl, .nil, by simp, by simp, by simpa using hNotStray⟩

end Settled

/-- Among elements that are not left open only stray characters are wrong. -/
theorem filter_collect_of_isOpen_eq_false {es : List Element} (h : ∀ e ∈ es, e.isOpen = false)
    (line : Nat) :
    (collect error? line es).filter LexicalError.isUnexpectedCharacter =
      collect error? line es := by
  rw [List.filter_eq_self]
  intro error hMem
  obtain ⟨before, e, after, rfl, hError⟩ := mem_collect_iff.1 hMem
  have hClosed := h e (by simp)
  cases e <;> simp [error?, isOpen] at hError hClosed
  subst hError
  rfl

/-- Where no character is stray none is reported. -/
theorem filter_collect_of_not_stray {es : List Element} (h : ∀ c, stray c ∉ es) (line : Nat) :
    (collect error? line es).filter LexicalError.isUnexpectedCharacter = [] := by
  rw [List.filter_eq_nil_iff]
  intro error hMem hUnexpected
  obtain ⟨before, e, after, rfl, hError⟩ := mem_collect_iff.1 hMem
  cases e with
  | stray c => exact h c (by simp)
  | openComment _ _ | openString _ =>
    obtain rfl := Option.some.inj hError
    simp [LexicalError.isUnexpectedCharacter] at hUnexpected
  | _ => simp [error?] at hError

/-- No more is found than there are elements. -/
theorem length_collect_le {α : Type} (find : Nat → Element → Option α) (line : Nat)
    (es : List Element) : (collect find line es).length ≤ es.length := by
  induction es generalizing line with
  | nil => exact Nat.le_refl 0
  | cons e es ih =>
    have hBehind := ih (e.endLine line)
    have hHere : (find line e).toList.length ≤ 1 := Option.length_toList_le
    simp only [collect, List.length_append, List.length_cons]
    omega

end Element

/-- Of two lists, one behind the other, the first is left when the last elements are taken off, or a
part of it. -/
theorem rdrop_append_prefix {α : Type} {xs ys : List α} {n : Nat} (h : ys.length ≤ n) :
    (xs ++ ys).rdrop n <+: xs := by
  refine List.prefix_of_prefix_length_le (List.take_prefix _ _) (List.prefix_append xs ys) ?_
  rw [List.rdrop, List.length_take, List.length_append]
  omega

namespace Scan

/-- When text is appended, a scan finds all tokens again but two at most, which are the last, and it
finds all stray characters again; each of them on the same line, and nothing in front of them or
between them. -/
theorem prefix_ofSource_append (s t : String) :
    (ofSource s).stream.tokens.rdrop 2 <+: (ofSource (s ++ t)).stream.tokens ∧
      (ofSource s).errors.filter LexicalError.isUnexpectedCharacter <+:
        (ofSource (s ++ t)).errors := by
  obtain ⟨es, hSettled, hText, hScan⟩ := exists_settled s
  obtain ⟨kept, changed, rfl, hKept, hShort, hClosed, hStray⟩ := hSettled.exists_kept t.toList
  rw [Element.texts_append] at hText
  -- What changes is read anew, together with the text that was appended.
  have hAnew := Element.settled_elements (Element.texts changed ++ t.toList)
  have hAnewText := Element.texts_elements (Element.texts changed ++ t.toList)
  generalize Element.elements (Element.texts changed ++ t.toList) = anew at hAnew hAnewText
  have hLonger : ofSource (s ++ t) = ofElements (kept ++ anew) := by
    refine ofSource_of_settled ?_ ?_
    · rw [Element.Settled.append_iff, List.append_nil, hAnewText]
      exact ⟨hKept, hAnew⟩
    · rw [Element.texts_append, hAnewText, String.toList_append, ← hText, List.append_assoc]
  rw [hScan, hLonger]
  simp only [ofElements_eq, Element.collect_append]
  constructor
  · refine List.IsPrefix.trans ?_ (List.prefix_append _ _)
    refine rdrop_append_prefix (Nat.le_trans ?_ hShort)
    exact Element.length_collect_le _ _ _
  · rw [List.filter_append, Element.filter_collect_of_isOpen_eq_false hClosed,
      Element.filter_collect_of_not_stray hStray, List.append_nil]
    exact List.prefix_append _ _

/-- One token would be too few: a digit behind a whole number and a point changes both. -/
example : ¬(ofSource "1.").stream.tokens.rdrop 1 <+: (ofSource ("1." ++ "5")).stream.tokens := by
  decide +kernel

end Scan

end LoxLexer
