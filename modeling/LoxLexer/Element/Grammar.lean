import LoxLexer.Element.Read

/-!
# The lexical grammar

What an element may look like, said without the reading of elements. The rules are about the parts
of an element: which characters they may hold and where they have to end. Together they say which
texts are elements at all, and `Element.IsLongest` says which of them stands at the front of a text.

The rule for block comments follows the delimiters. `Nesting m cs n` says that a text `cs`, read
from left to right inside `m` comments, leaves `n` of them open. Once all comments are closed
nothing more is read, so that a comment ends with the delimiter that closes the outermost.

## Main results

* `nesting_readComment`: what is read of a block comment nests as it should.
* `wellFormed_read`: what is read is an element.
* `rest_eq_nil_of_isOpen`: an element that is left open is the last.
-/

namespace LoxLexer

open Text

namespace Element

/-! ## Block comments -/

/-- Read inside `m` block comments, the text leaves `n` of them open. Delimiters are taken from
left to right and do not overlap. -/
inductive Nesting : (m : Nat) → List Char → (n : Nat) → Prop where
  | stop {m : Nat} : Nesting m [] m
  | opening {m n : Nat} {cs : List Char} (tail : Nesting (m + 2) cs n) :
      Nesting (m + 1) ('/' :: '*' :: cs) n
  | closing {m n : Nat} {cs : List Char} (tail : Nesting m cs n) :
      Nesting (m + 1) ('*' :: '/' :: cs) n
  | character {m n : Nat} {c : Char} {cs : List Char}
      (notOpening : ∀ ds, c :: cs ≠ '/' :: '*' :: ds)
      (notClosing : ∀ ds, c :: cs ≠ '*' :: '/' :: ds)
      (tail : Nesting (m + 1) cs n) : Nesting (m + 1) (c :: cs) n

/-! ## All elements -/

/-- The element obeys the grammar. -/
def WellFormed : Element → Prop
  | blank c => isBlank c = true
  | lineComment body => '\n' ∉ body
  | blockComment body => Nesting 1 (body ++ ['*', '/']) 0
  | openComment body depth => Nesting 1 body depth ∧ depth ≠ 0
  | string body => '"' ∉ body
  | openString body => '"' ∉ body
  | number whole fraction =>
    whole ≠ [] ∧ (∀ c ∈ whole, c.isDigit = true) ∧ ∀ c ∈ fraction, c.isDigit = true
  | word letters =>
    (∃ c, letters.head? = some c ∧ isWordStart c = true) ∧ ∀ c ∈ letters, isWordPart c = true
  | punctuator _ => True
  | stray c =>
    isBlank c = false ∧ c ≠ '"' ∧ c.isDigit = false ∧ isWordStart c = false ∧
      ∀ p : Punctuator, p.characters.head? ≠ some c

/-- The element is a comment or a string that is not closed. -/
def isOpen : Element → Bool
  | openComment _ _ => true
  | openString _ => true
  | _ => false

/-- The element stands at the front of the text. One that is not closed has to be all of it. -/
def Begins (e : Element) (cs : List Char) : Prop :=
  e.WellFormed ∧ ∃ rest, e.text ++ rest = cs ∧ (e.isOpen = true → rest = [])

/-- The element stands at the front of the text and no longer one does. -/
def IsLongest (e : Element) (cs : List Char) : Prop :=
  e.Begins cs ∧ ∀ f : Element, f.Begins cs → f.text.length ≤ e.text.length

/-- Each element in turn is the longest at the front of what is left of the text. -/
inductive Cuts : List Char → List Element → Prop where
  | nil : Cuts [] []
  | cons {cs rest : List Char} {e : Element} {es : List Element} (longest : e.IsLongest cs)
      (split : e.text ++ rest = cs) (tail : Cuts rest es) : Cuts cs (e :: es)

/-! ## What is read obeys the grammar -/

/-- The characters of a comment as far as the text has them: its body, and the closing delimiter
if there is one. -/
def CommentTail.inside (tail : CommentTail) : List Char :=
  tail.body ++ if tail.depth = 0 then ['*', '/'] else []

theorem inside_prepend (cs : List Char) (tail : CommentTail) :
    (tail.prepend cs).inside = cs ++ tail.inside := by
  simp only [CommentTail.prepend, CommentTail.inside, List.append_assoc]
  rfl

theorem inside_append_rest (tail : CommentTail) : tail.inside ++ tail.rest = tail.text := rfl

/-- What is read of a block comment nests from the given depth to the depth that is reported. -/
theorem nesting_readComment (outer : Nat) (cs : List Char) :
    Nesting (outer + 1) (readComment outer cs).inside (readComment outer cs).depth := by
  fun_induction readComment outer cs with
  | case1 outer => exact .stop
  | case2 cs => exact .closing .stop
  | case3 cs outer ih => exact inside_prepend _ _ ▸ .closing ih
  | case4 outer cs ih => exact inside_prepend _ _ ▸ .opening ih
  | case5 outer c cs notClosing notOpening ih =>
    rw [inside_prepend, List.singleton_append]
    have hText := text_readComment outer cs
    rw [← inside_append_rest] at hText
    refine .character ?_ ?_ ih
    · intro ds h
      obtain ⟨rfl, hInside⟩ := List.cons.inj h
      rw [hInside] at hText
      exact notOpening _ rfl hText.symm
    · intro ds h
      obtain ⟨rfl, hInside⟩ := List.cons.inj h
      rw [hInside] at hText
      exact notClosing _ rfl hText.symm

/-- A comment that is left open takes the rest of the text. -/
theorem rest_readComment_eq_nil {outer : Nat} {cs : List Char}
    (h : (readComment outer cs).depth ≠ 0) : (readComment outer cs).rest = [] := by
  fun_induction readComment outer cs with
  | case1 => rfl
  | case2 => exact absurd rfl h
  | case3 _ _ ih => exact ih h
  | case4 _ _ ih => exact ih h
  | case5 _ _ _ _ _ ih => exact ih h

theorem wellFormed_readString (cs : List Char) : (readString cs).1.WellFormed := by
  have hBody := not_mem_takeWhile_bne '"' cs
  unfold readString
  dsimp only
  split
  · exact hBody
  · exact hBody

theorem wellFormed_readFraction {whole : List Char} (hWhole : whole ≠ [])
    (hDigits : ∀ c ∈ whole, c.isDigit = true) (cs : List Char) :
    (readFraction whole cs).1.WellFormed := by
  unfold readFraction
  split
  · split
    · rename_i d ds hd
      refine ⟨hWhole, hDigits, fun c hc => ?_⟩
      cases hc with
      | head => exact hd
      | tail _ hc => exact of_mem_takeWhile hc
    · exact ⟨hWhole, hDigits, by simp⟩
  · exact ⟨hWhole, hDigits, by simp⟩

theorem wellFormed_readNumber {c : Char} (h : c.isDigit = true) (cs : List Char) :
    (readNumber c cs).1.WellFormed := by
  refine wellFormed_readFraction (by simp) (fun d hd => ?_) _
  cases hd with
  | head => exact h
  | tail _ hd => exact of_mem_takeWhile hd

theorem wellFormed_readWord {c : Char} (h : isWordStart c = true) (cs : List Char) :
    (readWord c cs).1.WellFormed := by
  refine ⟨⟨c, rfl, h⟩, fun d hd => ?_⟩
  cases hd with
  | head => exact isWordPart_of_isWordStart h
  | tail _ hd => exact of_mem_takeWhile hd

theorem wellFormed_readLineComment (cs : List Char) : (readLineComment cs).1.WellFormed :=
  not_mem_takeWhile_bne '\n' cs

theorem wellFormed_readBlockComment (cs : List Char) : (readBlockComment cs).1.WellFormed := by
  have hNesting := nesting_readComment 0 cs
  unfold readBlockComment ofCommentTail
  by_cases h : (readComment 0 cs).depth = 0
  · simpa [h, CommentTail.inside, WellFormed] using hNesting
  · simpa [h, CommentTail.inside, WellFormed] using hNesting

theorem wellFormed_readPunctuator {c : Char} (hBlank : isBlank c = false) (hQuote : c ≠ '"')
    (hDigit : c.isDigit = false) (hWord : isWordStart c = false) (cs : List Char) :
    (readPunctuator c cs).1.WellFormed := by
  unfold readPunctuator
  split
  · exact trivial
  · rename_i h
    exact ⟨hBlank, hQuote, hDigit, hWord, Punctuator.head?_ne_of_read? h⟩

/-- What is read is an element. -/
theorem wellFormed_read (c : Char) (cs : List Char) : (read c cs).1.WellFormed := by
  unfold read
  split
  · assumption
  rename_i hBlank
  split
  · exact wellFormed_readString cs
  rename_i hQuote
  split
  · exact wellFormed_readNumber ‹_› cs
  rename_i hDigit
  split
  · exact wellFormed_readWord ‹_› cs
  rename_i hWord
  split
  · exact wellFormed_readLineComment _
  · exact wellFormed_readBlockComment _
  · exact wellFormed_readPunctuator (by simpa using hBlank) hQuote (by simpa using hDigit)
      (by simpa using hWord) cs

/-- The elements of a text are elements. -/
theorem wellFormed_of_mem_elements {cs : List Char} {e : Element} (h : e ∈ elements cs) :
    e.WellFormed := by
  fun_induction elements cs with
  | case1 => simp at h
  | case2 c cs ih =>
    obtain rfl | hTail := List.mem_cons.1 h
    · exact wellFormed_read c cs
    · exact ih hTail

theorem rest_readString_eq_nil {cs : List Char} (h : (readString cs).1.isOpen = true) :
    (readString cs).2 = [] := by
  revert h
  unfold readString
  dsimp only
  split <;> simp [isOpen]

theorem rest_readBlockComment_eq_nil {cs : List Char} (h : (readBlockComment cs).1.isOpen = true) :
    (readBlockComment cs).2 = [] := by
  apply rest_readComment_eq_nil
  intro hDepth
  simp [readBlockComment, ofCommentTail, hDepth, isOpen] at h

theorem isOpen_readFraction (whole cs : List Char) :
    (readFraction whole cs).1.isOpen = false := by
  unfold readFraction
  split
  · split <;> rfl
  · rfl

theorem isOpen_readPunctuator (c : Char) (cs : List Char) :
    (readPunctuator c cs).1.isOpen = false := by
  unfold readPunctuator
  split <;> rfl

/-- An element that is left open takes the rest of the text. -/
theorem rest_eq_nil_of_isOpen {c : Char} {cs : List Char} (h : (read c cs).1.isOpen = true) :
    (read c cs).2 = [] := by
  revert h
  unfold read
  split
  · simp [isOpen]
  split
  · exact rest_readString_eq_nil
  split
  · simp [readNumber, isOpen_readFraction]
  split
  · simp [readWord, isOpen]
  split
  · simp [readLineComment, isOpen]
  · exact rest_readBlockComment_eq_nil
  · simp [isOpen_readPunctuator]

/-- The element that is read stands at the front of the text. -/
theorem begins_read (c : Char) (cs : List Char) : (read c cs).1.Begins (c :: cs) :=
  ⟨wellFormed_read c cs, _, text_append_rest_read c cs, rest_eq_nil_of_isOpen⟩

end Element

end LoxLexer
