import LoxLexer.Proofs.Sequence

/-!
# Elements that are left open

An element that is left open takes all the text behind it, so a text has at most one of them, and
it is the last. What stands in front of it stops there, and then it stops at the end of the text
too: without the open element the same elements are read. So a scan reports at most one element as
left open, it does so last, and all else that it finds it finds in the text in front.

## Main results

* `Element.stops_of_append`: what stops in front of a text stops in front of a part of it.
* `Element.exists_isOpen_of_mem_collect`: the elements that are reported as left open.
* `Scan.splits_at_unterminated`: a text with an element that is left open, and the text in front.
-/

namespace LoxLexer

open Text

/-- The text is what the error reports as left open: a quote that no other follows, or the opening
delimiter of a comment and a text that leaves as many comments open as are reported. -/
def LexicalError.Describes : LexicalError → List Char → Prop
  | unexpectedCharacter _ _, _ => False
  | unterminatedString _, cs => ∃ body, cs = '"' :: body ∧ '"' ∉ body
  | unterminatedBlockComment _ openDepth, cs =>
    ∃ body, cs = '/' :: '*' :: body ∧ Element.Nesting 1 body openDepth ∧ 1 ≤ openDepth

namespace Element

theorem looksLike_append (xs ys : List Char) : LooksLike (xs ++ ys) xs := by
  match xs with
  | [] => exact .first rfl
  | [_] => exact .second rfl
  | _ :: _ :: _ => exact .both

/-- What stops in front of a text stops in front of a part of it, be it empty. -/
theorem stops_of_append {e : Element} {xs ys : List Char} (h : e.stops (xs ++ ys) = true) :
    e.stops xs = true := by
  cases e with
  | lineComment _ => cases xs <;> simp_all [stops]
  | openComment _ _ | openString _ => simp_all [stops]
  | _ => exact stops_of_looksLike (looksLike_append xs ys) rfl h

theorem isUnterminated_of_error? {line : Nat} {e : Element} {error : LexicalError}
    (h : e.error? line = some error) : error.isUnterminated = e.isOpen := by
  cases e <;> simp only [error?, Option.some.injEq, reduceCtorEq] at h <;> subst h <;> rfl

theorem isSome_error?_of_isOpen (line : Nat) {e : Element} (h : e.isOpen = true) :
    (e.error? line).isSome = true := by
  cases e <;> first | rfl | cases h

theorem describes_of_error? {line : Nat} {e : Element} {error : LexicalError} (hForm : e.WellFormed)
    (hOpen : e.isOpen = true) (h : e.error? line = some error) : error.Describes e.text := by
  cases e with
  | openString body =>
    obtain rfl := Option.some.inj h
    exact ⟨body, rfl, hForm⟩
  | openComment body depth =>
    obtain rfl := Option.some.inj h
    exact ⟨body, rfl, hForm.1, Nat.one_le_iff_ne_zero.2 hForm.2⟩
  | _ => simp [isOpen] at hOpen

namespace Settled

variable {rest : List Char} {es fs : List Element}

/-- Behind an element that is left open comes nothing. -/
theorem eq_nil_of_isOpen {e : Element} (h : Settled rest (e :: es)) (hOpen : e.isOpen = true) :
    es = [] := by
  obtain ⟨-, hStops, hTail⟩ := cons_iff.1 h
  have hText : texts es = [] := by
    cases e <;> simp_all [stops, isOpen]
  cases hTail with
  | nil => rfl
  | cons wellFormed stops tail => simp [text_ne_nil wellFormed] at hText

/-- In front of another element none is left open. -/
theorem isOpen_eq_false {e : Element} (h : Settled rest (es ++ e :: fs)) :
    ∀ f ∈ es, f.isOpen = false := by
  intro f hMem
  obtain ⟨before, after, rfl⟩ := List.append_of_mem hMem
  rw [List.append_assoc] at h
  rw [Bool.eq_false_iff]
  intro hOpen
  have hBehind := (append_iff.1 h).2.eq_nil_of_isOpen hOpen
  simp at hBehind

/-- The beginning of a settled sequence is settled when nothing comes behind it. -/
theorem of_append (h : Settled rest (es ++ fs)) : Settled [] es := by
  refine (append_iff.1 h).1.imp fun e _ cs hStops => ?_
  rw [List.append_nil]
  exact stops_of_append hStops

end Settled

/-- What is reported as left open is an element that is left open. -/
theorem exists_isOpen_of_mem_collect {line : Nat} {es : List Element} {error : LexicalError}
    (h : error ∈ collect error? line es) (hUnterminated : error.isUnterminated = true) :
    ∃ before e after, es = before ++ e :: after ∧ e.isOpen = true ∧
      e.error? (line + lineFeeds (texts before)) = some error := by
  obtain ⟨before, e, after, hSplit, hError⟩ := mem_collect_iff.1 h
  exact ⟨before, e, after, hSplit, isUnterminated_of_error? hError ▸ hUnterminated, hError⟩

/-- Where nothing is left open nothing is reported as such, and conversely. -/
theorem forall_isUnterminated_iff {line : Nat} {es : List Element} :
    (∀ error ∈ collect error? line es, error.isUnterminated = false) ↔
      ∀ e ∈ es, e.isOpen = false := by
  constructor
  · intro h e hMem
    obtain ⟨before, after, rfl⟩ := List.append_of_mem hMem
    rw [Bool.eq_false_iff]
    intro hOpen
    obtain ⟨error, hError⟩ :=
      Option.isSome_iff_exists.1 (isSome_error?_of_isOpen (line + lineFeeds (texts before)) hOpen)
    have hNot := h error (mem_collect_iff.2 ⟨before, e, after, rfl, hError⟩)
    rw [isUnterminated_of_error? hError, hOpen] at hNot
    simp at hNot
  · intro h error hMem
    rw [Bool.eq_false_iff]
    intro hUnterminated
    obtain ⟨before, e, after, rfl, hOpen, -⟩ := exists_isOpen_of_mem_collect hMem hUnterminated
    simp [h e (by simp)] at hOpen

/-- At most one element is reported as left open. -/
theorem length_filter_isUnterminated_le {rest : List Char} {es : List Element}
    (h : Settled rest es) (line : Nat) :
    ((collect error? line es).filter LexicalError.isUnterminated).length ≤ 1 := by
  induction es generalizing line with
  | nil => simp [collect]
  | cons e es ih =>
    cases hOpen : e.isOpen with
    | true =>
      obtain rfl := h.eq_nil_of_isOpen hOpen
      refine Nat.le_trans (List.length_filter_le ..) ?_
      cases hError : e.error? line <;> simp [collect, hError]
    | false =>
      have hHere : (e.error? line).toList.filter LexicalError.isUnterminated = [] := by
        rw [List.filter_eq_nil_iff]
        intro error hMem
        simp [isUnterminated_of_error? (Option.mem_toList.1 hMem), hOpen]
      rw [collect, List.filter_append, hHere, List.nil_append]
      exact ih (Settled.cons_iff.1 h).2.2 (e.endLine line)

end Element

namespace Scan

/-- At most one error of a scan reports that something was left open, and it is the last. The text
is then in two parts, the second of which was left open. A scan of the first finds the same tokens
and all other errors, and nothing that is left open; only the text ends on an earlier line. -/
theorem splits_at_unterminated (source : String) :
    ((ofSource source).errors.filter LexicalError.isUnterminated).length ≤ 1 ∧
      ∀ error ∈ (ofSource source).errors, error.isUnterminated = true →
        ∃ front back : String, source = front ++ back ∧ error.Describes back.toList ∧
          (ofSource source).errors = (ofSource front).errors ++ [error] ∧
          (∀ other ∈ (ofSource front).errors, other.isUnterminated = false) ∧
          (ofSource source).stream.tokens = (ofSource front).stream.tokens ∧
          (ofSource source).stream.endToken.line =
            (ofSource front).stream.endToken.line + lineFeeds back.toList := by
  obtain ⟨es, hSettled, hText, hScan⟩ := exists_settled source
  rw [hScan, ofElements_eq]
  refine ⟨Element.length_filter_isUnterminated_le hSettled 1, fun error hMem hUnterminated => ?_⟩
  obtain ⟨before, e, after, rfl, hOpen, hError⟩ :=
    Element.exists_isOpen_of_mem_collect hMem hUnterminated
  obtain rfl := (Element.Settled.append_iff.1 hSettled).2.eq_nil_of_isOpen hOpen
  have hForm := (Element.Settled.cons_iff.1 (Element.Settled.append_iff.1 hSettled).2).1
  have hToken : e.token? (1 + lineFeeds (Element.texts before)) = none :=
    (Element.token?_eq_none_or _ e).resolve_right (by simp [hError])
  have hFront := ofSource_of_settled hSettled.of_append (String.toList_ofList).symm
  refine ⟨String.ofList (Element.texts before), String.ofList e.text, ?_, ?_, ?_, ?_, ?_, ?_⟩
  · rw [← String.ofList_append, ← String.ofList_toList (s := source), ← hText]
    simp
  · rw [String.toList_ofList]
    exact Element.describes_of_error? hForm hOpen hError
  · rw [hFront, ofElements_eq]
    simp [Element.collect_append, Element.collect, hError]
  · rw [hFront, ofElements_eq]
    exact Element.forall_isUnterminated_iff.2 hSettled.isOpen_eq_false
  · rw [hFront, ofElements_eq]
    simp [Element.collect_append, Element.collect, hToken]
  · rw [hFront, ofElements_eq]
    simp [TokenStream.endToken, Token.endOfText, Nat.add_assoc]

/-- A stray character, and a comment of two lines that lacks two closing delimiters. -/
theorem splits_at_unterminated_nested :
    LexicalError.unterminatedBlockComment 2 2 ∈ (ofSource "a@/*\n/*").errors ∧
      ∃ front back : String, "a@/*\n/*" = front ++ back ∧
        LexicalError.Describes (.unterminatedBlockComment 2 2) back.toList ∧
        (ofSource "a@/*\n/*").errors =
          (ofSource front).errors ++ [.unterminatedBlockComment 2 2] ∧
        (∀ other ∈ (ofSource front).errors, other.isUnterminated = false) ∧
        (ofSource "a@/*\n/*").stream.tokens = (ofSource front).stream.tokens ∧
        (ofSource "a@/*\n/*").stream.endToken.line =
          (ofSource front).stream.endToken.line + lineFeeds back.toList := by
  have hMem : LexicalError.unterminatedBlockComment 2 2 ∈ (ofSource "a@/*\n/*").errors := by
    decide +kernel
  exact ⟨hMem, (splits_at_unterminated "a@/*\n/*").2 _ hMem rfl⟩

end Scan

end LoxLexer
