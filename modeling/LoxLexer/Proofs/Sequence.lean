import LoxLexer.Proofs.MaximalMunch

/-!
# Sequences of elements

The elements of a text are one such sequence: each of them stops in front of what comes behind it.
Conversely a sequence of elements that stop is read as it stands, also with more text behind the
last, as long as that element stops there too. To find the elements of a text that was put
together from parts it is therefore enough to look where the parts meet.

What a scan finds it finds element by element, and of the elements in front of one only the line
matters that they end on.

## Main definitions

* `Element.Settled`: each element of a sequence stops in front of what comes behind it.
* `Element.collect`: what is found in a sequence of elements, when the first begins on a given line.

## Main results

* `Element.Settled.elements_append`: a settled sequence is read as it stands.
* `Element.settled_elements`: the elements of a text are settled.
* `Element.collect_append`: what is found in two sequences, one behind the other.
* `Scan.ofSource_of_settled`: the scan of a text whose elements are known.
-/

namespace LoxLexer

open Text

namespace Element

/-! ## Elements that stop -/

/-- Each element of the sequence obeys the grammar and stops in front of what comes behind it.
Behind the last of them comes `rest`. -/
inductive Settled (rest : List Char) : List Element → Prop where
  | nil : Settled rest []
  | cons {e : Element} {es : List Element} (wellFormed : e.WellFormed)
      (stops : e.stops (texts es ++ rest) = true) (tail : Settled rest es) : Settled rest (e :: es)

/-- The element that is read stops where it ends: no longer one is read. -/
theorem stops_read (c : Char) (cs : List Char) : (read c cs).1.stops (read c cs).2 = true := by
  by_contra hGo
  have hLonger := length_lt_of_not_stops (wellFormed_read c cs) rest_eq_nil_of_isOpen
    (Bool.eq_false_iff.2 hGo) (text_append_rest_read c cs)
  omega

theorem settled_elements (cs : List Char) : Settled [] (elements cs) := by
  fun_induction elements cs with
  | case1 => exact .nil
  | case2 c cs ih =>
    refine .cons (wellFormed_read c cs) ?_ ih
    rw [texts_elements, List.append_nil]
    exact stops_read c cs

namespace Settled

variable {rest : List Char} {es fs : List Element}

/-- A settled sequence is read as it stands. -/
theorem elements_append (h : Settled rest es) :
    elements (texts es ++ rest) = es ++ elements rest := by
  induction h with
  | nil => rfl
  | @cons e es wellFormed stops tail ih =>
    rw [texts_cons, List.append_assoc, Element.elements_append wellFormed stops, ih,
      List.cons_append]

theorem elements_texts (h : Settled [] es) : elements (texts es) = es := by
  have hRead := h.elements_append
  rwa [elements_nil, List.append_nil, List.append_nil] at hRead

theorem cons_iff {e : Element} :
    Settled rest (e :: es) ↔
      e.WellFormed ∧ e.stops (texts es ++ rest) = true ∧ Settled rest es := by
  constructor
  · rintro ⟨⟩
    exact ⟨‹_›, ‹_›, ‹_›⟩
  · rintro ⟨wellFormed, stops, tail⟩
    exact .cons wellFormed stops tail

/-- Of two sequences, one behind the other, the first has to stop in front of the second. -/
theorem append_iff :
    Settled rest (es ++ fs) ↔ Settled (texts fs ++ rest) es ∧ Settled rest fs := by
  induction es with
  | nil => exact ⟨fun h => ⟨.nil, h⟩, And.right⟩
  | cons e es ih => simp [cons_iff, ih, and_assoc]

/-- Other text may come behind a settled sequence if each of its elements stops in front of that
text as well. -/
theorem imp {rest' : List Char} (h : Settled rest es)
    (hStops : ∀ e ∈ es, ∀ cs, e.stops (cs ++ rest) = true → e.stops (cs ++ rest') = true) :
    Settled rest' es := by
  induction h with
  | nil => exact .nil
  | @cons e es wellFormed stops tail ih =>
    refine .cons wellFormed (hStops e List.mem_cons_self _ stops) (ih fun f hf => ?_)
    exact hStops f (List.mem_cons_of_mem e hf)

end Settled

/-! ## What is found in a sequence -/

variable {α : Type} {find : Nat → Element → Option α}

/-- What is found in a sequence of elements, when the first begins on the given line. -/
def collect (find : Nat → Element → Option α) (line : Nat) : List Element → List α
  | [] => []
  | e :: es => (find line e).toList ++ collect find (e.endLine line) es

theorem filterMap_place (find : Nat → Element → Option α) (line offset : Nat) (es : List Element) :
    ((Placed.place line offset es).filterMap fun p => find p.line p.element) =
      collect find line es := by
  induction es generalizing line offset with
  | nil => rfl
  | cons e es ih =>
    have hBehind := ih (e.endLine line) (offset + byteLength e.text)
    cases hFind : find line e <;> simp [collect, hFind, hBehind]

theorem collect_append (line : Nat) (es fs : List Element) :
    collect find line (es ++ fs) =
      collect find line es ++ collect find (line + lineFeeds (texts es)) fs := by
  induction es generalizing line with
  | nil => rfl
  | cons e es ih => simp [collect, ih, endLine, Nat.add_assoc]

/-- What is found is found in one of the elements, on the line where that element begins. -/
theorem mem_collect_iff {line : Nat} {es : List Element} {x : α} :
    x ∈ collect find line es ↔
      ∃ before e after, es = before ++ e :: after ∧
        find (line + lineFeeds (texts before)) e = some x := by
  constructor
  · intro h
    induction es generalizing line with
    | nil => simp [collect] at h
    | cons e es ih =>
      obtain hHere | hBehind := List.mem_append.1 h
      · exact ⟨[], e, es, rfl, by simpa using hHere⟩
      · obtain ⟨before, f, after, rfl, hFind⟩ := ih hBehind
        refine ⟨e :: before, f, after, rfl, ?_⟩
        rwa [texts_cons, lineFeeds_append, ← Nat.add_assoc]
  · rintro ⟨before, e, after, rfl, hFind⟩
    simp [collect_append, collect, hFind]

/-- Further down a text the same is found, if only the lines of what is found differ. -/
theorem collect_add {n : Nat} {shift : α → α}
    (hFind : ∀ line e, find (line + n) e = (find line e).map shift) (line : Nat)
    (es : List Element) : collect find (line + n) es = (collect find line es).map shift := by
  induction es generalizing line with
  | nil => rfl
  | cons e es ih =>
    have hLine : e.endLine (line + n) = e.endLine line + n := by
      simp only [endLine]
      omega
    cases hHere : find line e <;> simp [collect, hLine, ih, hFind, hHere]

/-- Elements that each have others in their place, on as many lines, in which is found what is
looked for. -/
theorem collect_flatMap {find' : Nat → Element → Option α} {replace : Element → List Element}
    (hFind : ∀ line e, collect find line (replace e) = (find' line e).toList)
    (hLines : ∀ e, lineFeeds (texts (replace e)) = lineFeeds e.text) (line : Nat)
    (es : List Element) : collect find line (es.flatMap replace) = collect find' line es := by
  induction es generalizing line with
  | nil => rfl
  | cons e es ih => rw [List.flatMap_cons, collect_append, hFind, hLines, ih, collect, endLine]

theorem collect_eq_nil {es : List Element} (h : ∀ e ∈ es, ∀ line, find line e = none)
    (line : Nat) : collect find line es = [] := by
  induction es generalizing line with
  | nil => rfl
  | cons e es ih =>
    have hBehind := ih (fun f hf => h f (List.mem_cons_of_mem e hf)) (e.endLine line)
    simp [collect, hBehind, h e List.mem_cons_self line]

/-- Only some of what is found is kept. -/
theorem filter_collect (p : α → Bool) (line : Nat) (es : List Element) :
    (collect find line es).filter p = collect (fun line e => (find line e).filter p) line es := by
  induction es generalizing line with
  | nil => rfl
  | cons e es ih =>
    rw [collect, collect, List.filter_append, ih]
    cases find line e with
    | none => rfl
    | some x => cases hx : p x <;> simp [Option.filter, hx]

end Element

/-! ## Scans -/

namespace Scan

/-- What the scan of a text that was cut into elements finds in these. -/
theorem ofElements_eq (es : List Element) :
    ofElements es =
      ⟨⟨Element.collect Element.token? 1 es, 1 + lineFeeds (Element.texts es)⟩,
        Element.collect Element.error? 1 es⟩ := by
  rw [← Element.filterMap_place Element.token? 1 0, ← Element.filterMap_place Element.error? 1 0]
  rfl

/-- A settled sequence makes up the scan of its text. -/
theorem ofSource_of_settled {source : String} {es : List Element} (h : Element.Settled [] es)
    (hText : Element.texts es = source.toList) : ofSource source = ofElements es :=
  ofSource_eq_ofElements (Element.cuts_iff.2 (by rw [← hText, h.elements_texts]))

/-- A text that ends in one more element, which stops at its end. -/
theorem ofSource_of_settled_concat {source : String} {before : List Element} {e : Element}
    (hBefore : Element.Settled e.text before) (hForm : e.WellFormed) (hStops : e.stops [] = true)
    (hText : Element.texts before ++ e.text = source.toList) :
    ofSource source =
      ⟨⟨Element.collect Element.token? 1 before ++
            (e.token? (1 + lineFeeds (Element.texts before))).toList,
          1 + lineFeeds source.toList⟩,
        Element.collect Element.error? 1 before ++
          (e.error? (1 + lineFeeds (Element.texts before))).toList⟩ := by
  have hLast : Element.Settled [] [e] := .cons hForm hStops .nil
  have hBoth : Element.Settled [] (before ++ [e]) := by
    refine Element.Settled.append_iff.2 ⟨?_, hLast⟩
    simpa using hBefore
  have hWhole : Element.texts (before ++ [e]) = source.toList := by
    simpa using hText
  rw [ofSource_of_settled hBoth hWhole, ofElements_eq, hWhole]
  simp [Element.collect_append, Element.collect]

/-- The scan of a text is made up by a settled sequence. -/
theorem exists_settled (source : String) :
    ∃ es, Element.Settled [] es ∧ Element.texts es = source.toList ∧
      ofSource source = ofElements es := by
  have hSettled := Element.settled_elements source.toList
  have hText := Element.texts_elements source.toList
  exact ⟨_, hSettled, hText, ofSource_of_settled hSettled hText⟩

end Scan

end LoxLexer
