import LoxLexer.Proofs.MaximalMunch

/-!
# Line numbers

A pass counts lines in three loops and passes over line comments without counting. What it comes to
is said here by counting line feeds in the text: an element begins on the line whose number is one
more than the number of line feeds in front of it. Tokens and stray characters are on the line where
they begin. An element that is left open is the last of the text, so the line where it ends is the
last one.

## Main results

* `Placed.place_eq_map`: the line and the offset of an element count what stands before it.
* `Element.append_text_of_mem_standing`: in front of and inside an open element is all of the text.
* `Placed.pairwise_place`: an element begins on no earlier line than the one before it ends.
* `Scan.lines_ofSource`: the lines of tokens, errors and the end of the text, and their order.
-/

namespace LoxLexer

open Text

/-! ## Elements and what stands before them -/

namespace Element

/-- The elements of a sequence, each with the text in front of it, when `before` stands in front of
the first. -/
def standing (before : List Char) : List Element → List (List Char × Element)
  | [] => []
  | e :: es => (before, e) :: standing (before ++ e.text) es

/-- The lexeme of an element that makes a token, and the number of the line where it begins. -/
def lexemeAndLine? (before : List Char) (e : Element) : Option (String × Nat) :=
  match e with
  | string _ | number _ _ | word _ | punctuator _ =>
    some (String.ofList e.text, 1 + lineFeeds before)
  | _ => none

/-- What is wrong with an element of a text. A stray character is on the line where it stands, and
an element that is left open on the last line of the text. -/
def errorIn? (cs before : List Char) : Element → Option LexicalError
  | stray c => some (.unexpectedCharacter (1 + lineFeeds before) c)
  | openString _ => some (.unterminatedString (1 + lineFeeds cs))
  | openComment _ depth => some (.unterminatedBlockComment (1 + lineFeeds cs) depth)
  | _ => none

theorem exists_append_of_mem_standing {es : List Element} {before front : List Char} {e : Element}
    (h : (front, e) ∈ standing before es) :
    e ∈ es ∧ ∃ back, before ++ texts es = front ++ (e.text ++ back) := by
  induction es generalizing before with
  | nil => simp [standing] at h
  | cons d es ih =>
    obtain hHere | hBehind := List.mem_cons.1 h
    · obtain ⟨rfl, rfl⟩ := Prod.mk.inj hHere
      exact ⟨List.mem_cons_self, texts es, by rw [texts_cons]⟩
    · obtain ⟨hMem, back, hText⟩ := ih hBehind
      exact ⟨List.mem_cons_of_mem d hMem, back, by rw [← hText, texts_cons, List.append_assoc]⟩

/-- An element that is left open is the last of a cut: with what stands before it, it is all of the
text. -/
theorem append_text_of_mem_standing {cs : List Char} {es : List Element} (h : Cuts cs es)
    {before front : List Char} {e : Element} (hMem : (front, e) ∈ standing before es)
    (hOpen : e.isOpen = true) : front ++ e.text = before ++ cs := by
  induction h generalizing before with
  | nil => simp [standing] at hMem
  | cons longest split tail ih =>
    obtain ⟨⟨-, rest', hText, hLast⟩, -⟩ := longest
    obtain hHere | hBehind := List.mem_cons.1 hMem
    · obtain ⟨rfl, rfl⟩ := Prod.mk.inj hHere
      rw [← hText, hLast hOpen, List.append_nil]
    · rw [ih hBehind, List.append_assoc, split]

theorem lexemeAndLine?_eq (before : List Char) (e : Element) :
    lexemeAndLine? before e =
      (e.token? (1 + lineFeeds before)).map fun t => (t.lexeme, t.line) := by
  cases e <;> rfl

/-- The error of an element, found by its own text, is the error it has in the whole text. -/
theorem errorIn?_eq {cs before : List Char} {e : Element}
    (h : e.isOpen = true → before ++ e.text = cs) :
    errorIn? cs before e = e.error? (1 + lineFeeds before) := by
  have hLast (hOpen : e.isOpen = true) : 1 + lineFeeds cs = e.endLine (1 + lineFeeds before) := by
    rw [← h hOpen, lineFeeds_append, endLine, Nat.add_assoc]
  cases e with
  | openString body => simp [errorIn?, error?, hLast rfl]
  | openComment body depth => simp [errorIn?, error?, hLast rfl]
  | _ => rfl

theorem le_endLine (line : Nat) (e : Element) : line ≤ e.endLine line := Nat.le_add_right ..

/-- An error is found between the lines where the element begins and ends. -/
theorem line_of_error? {line : Nat} {e : Element} {error : LexicalError}
    (h : e.error? line = some error) : line ≤ error.line ∧ error.line ≤ e.endLine line := by
  cases e <;> simp only [error?, Option.some.injEq, reduceCtorEq] at h <;> subst h
  · exact ⟨le_endLine .., Nat.le_refl _⟩
  · exact ⟨le_endLine .., Nat.le_refl _⟩
  · exact ⟨Nat.le_refl _, le_endLine ..⟩

end Element

/-! ## Places -/

namespace Placed

/-- The line and the offset of an element count the text in front of it. -/
theorem place_eq_map_standing (before : List Char) (es : List Element) :
    place (1 + lineFeeds before) (byteLength before) es =
      (Element.standing before es).map fun p => ⟨p.2, 1 + lineFeeds p.1, byteLength p.1⟩ := by
  induction es generalizing before with
  | nil => rfl
  | cons e es ih =>
    have hNext := ih (before ++ e.text)
    rw [lineFeeds_append, byteLength_append, ← Nat.add_assoc] at hNext
    rw [place_cons, Element.endLine, hNext]
    rfl

/-- The places of the elements of a whole text. -/
theorem place_eq_map (es : List Element) :
    place 1 0 es =
      (Element.standing [] es).map fun p => ⟨p.2, 1 + lineFeeds p.1, byteLength p.1⟩ :=
  place_eq_map_standing [] es

/-- The line on which the element ends. -/
def endLine (p : Placed) : Nat := p.element.endLine p.line

theorem line_le_endLine (p : Placed) : p.line ≤ p.endLine := Element.le_endLine ..

theorem line_of_mem_place {line offset : Nat} {es : List Element} {p : Placed}
    (h : p ∈ place line offset es) :
    line ≤ p.line ∧ p.endLine ≤ line + lineFeeds (Element.texts es) := by
  induction es generalizing line offset with
  | nil => simp at h
  | cons e es ih =>
    rw [Element.texts_cons, lineFeeds_append]
    obtain rfl | hTail := List.mem_cons.1 h
    · refine ⟨Nat.le_refl _, ?_⟩
      simp only [endLine, Element.endLine]
      omega
    · obtain ⟨hFirst, hLast⟩ := ih hTail
      simp only [Element.endLine] at hFirst hLast
      omega

/-- An element begins on no earlier line than any before it ends. -/
theorem pairwise_place (line offset : Nat) (es : List Element) :
    (place line offset es).Pairwise fun p q => p.endLine ≤ q.line := by
  induction es generalizing line offset with
  | nil => exact .nil
  | cons e es ih => exact .cons (fun q hq => (line_of_mem_place hq).1) (ih _ _)

theorem line_of_token? {p : Placed} {t : Token} (h : p.token? = some t) : t.line = p.line :=
  Element.line_of_token? h

theorem line_of_error? {p : Placed} {error : LexicalError} (h : p.error? = some error) :
    p.line ≤ error.line ∧ error.line ≤ p.endLine :=
  Element.line_of_error? h

theorem pairwise_line_tokens (line offset : Nat) (es : List Element) :
    ((place line offset es).filterMap token?).Pairwise fun t u => t.line ≤ u.line := by
  refine (pairwise_place line offset es).filterMap _ fun p q hpq t ht u hu => ?_
  rw [line_of_token? ht, line_of_token? hu]
  exact Nat.le_trans p.line_le_endLine hpq

theorem pairwise_line_errors (line offset : Nat) (es : List Element) :
    ((place line offset es).filterMap error?).Pairwise fun a b => a.line ≤ b.line := by
  refine (pairwise_place line offset es).filterMap _ fun p q hpq a ha b hb => ?_
  exact Nat.le_trans (line_of_error? ha).2 (Nat.le_trans hpq (line_of_error? hb).1)

end Placed

/-! ## Scans -/

namespace Scan

theorem tokens_map_of_cuts {source : String} {es : List Element}
    (h : Element.Cuts source.toList es) :
    ((ofSource source).stream.tokens.map fun t => (t.lexeme, t.line)) =
      (Element.standing [] es).filterMap fun p => Element.lexemeAndLine? p.1 p.2 := by
  rw [ofSource_eq_ofElements h]
  show ((Placed.place 1 0 es).filterMap Placed.token?).map _ = _
  rw [Placed.place_eq_map, List.filterMap_map, List.map_filterMap]
  simp only [Element.lexemeAndLine?_eq]
  rfl

theorem errors_of_cuts {source : String} {es : List Element} (h : Element.Cuts source.toList es) :
    (ofSource source).errors =
      (Element.standing [] es).filterMap fun p => Element.errorIn? source.toList p.1 p.2 := by
  rw [ofSource_eq_ofElements h]
  show (Placed.place 1 0 es).filterMap Placed.error? = _
  rw [Placed.place_eq_map, List.filterMap_map]
  refine List.filterMap_congr fun p hp => ?_
  exact (Element.errorIn?_eq (Element.append_text_of_mem_standing h hp)).symm

/-- An element of a text is well formed, stands somewhere in it, and has the line and the offset of
that place. -/
theorem exists_append_of_mem_placed {cs : List Char} {p : Placed} (h : p ∈ placed cs) :
    p.element.WellFormed ∧ ∃ before after, cs = before ++ (p.element.text ++ after) ∧
      p.line = 1 + lineFeeds before ∧ p.offset = byteLength before := by
  rw [placed, Placed.place_eq_map] at h
  obtain ⟨⟨before, e⟩, hMem, rfl⟩ := List.mem_map.1 h
  obtain ⟨hElement, after, hText⟩ := Element.exists_append_of_mem_standing hMem
  rw [Element.texts_elements, List.nil_append] at hText
  exact ⟨Element.wellFormed_of_mem_elements hElement, before, after, hText, rfl, rfl⟩

theorem line_of_mem_errors {source : String} {error : LexicalError}
    (h : error ∈ (ofSource source).errors) :
    0 < error.line ∧ error.line ≤ 1 + lineFeeds source.toList := by
  rw [ofSource_eq] at h
  obtain ⟨p, hPlaced, hError⟩ := List.mem_filterMap.1 h
  obtain ⟨hFirst, hLast⟩ := Placed.line_of_mem_place hPlaced
  obtain ⟨hBegin, hEnd⟩ := Placed.line_of_error? hError
  rw [Element.texts_elements] at hLast
  omega

/-- The lines of all tokens of a scan, the end of the text included, never decrease. -/
theorem pairwise_line_toList (source : String) :
    ((ofSource source).stream.toList).Pairwise fun t u => t.line ≤ u.line := by
  rw [ofSource_eq_ofElements (Element.cuts_elements _), TokenStream.toList, List.pairwise_append]
  refine ⟨Placed.pairwise_line_tokens .., List.pairwise_singleton .., fun t ht u hu => ?_⟩
  obtain ⟨p, hPlaced, hToken⟩ := List.mem_filterMap.1 ht
  obtain rfl := List.mem_singleton.1 hu
  rw [Placed.line_of_token? hToken]
  exact Nat.le_trans p.line_le_endLine (Placed.line_of_mem_place hPlaced).2

/-- Line numbers count line feeds. In the cut of a text into its elements, every token is on the
line that its lexeme begins on, every stray character on the line it stands on, and the end of the
text, like whatever is left open there, on the last line. Neither the lines of the tokens nor those
of the errors ever decrease. -/
theorem lines_ofSource (source : String) :
    (∃ es, Element.Cuts source.toList es ∧
      ((ofSource source).stream.tokens.map fun t => (t.lexeme, t.line)) =
          ((Element.standing [] es).filterMap fun p => Element.lexemeAndLine? p.1 p.2) ∧
        (ofSource source).errors =
          (Element.standing [] es).filterMap fun p => Element.errorIn? source.toList p.1 p.2) ∧
      (ofSource source).stream.endToken.line = 1 + lineFeeds source.toList ∧
      ((ofSource source).stream.toList.map Token.line).Pairwise (· ≤ ·) ∧
      ((ofSource source).errors.map LexicalError.line).Pairwise (· ≤ ·) := by
  have hCuts := Element.cuts_elements source.toList
  refine ⟨⟨_, hCuts, tokens_map_of_cuts hCuts, errors_of_cuts hCuts⟩, ?_, ?_, ?_⟩
  · rw [ofSource_eq_ofElements hCuts]
    exact congrArg (1 + lineFeeds ·) (Element.texts_eq_of_cuts hCuts)
  · exact List.pairwise_map.2 (pairwise_line_toList source)
  · rw [ofSource_eq_ofElements hCuts]
    exact List.pairwise_map.2 (Placed.pairwise_line_errors ..)

end Scan

end LoxLexer
