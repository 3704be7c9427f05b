import LoxLexer.Proofs.Extent
import LoxLexer.Proofs.Pass

/-!
# Printing tokens and scanning them back

A token is well formed when its lexeme is one of its kind and its literal is the value of the
lexeme. These are the tokens of well-formed elements, and so the tokens that scans find. Printed one
after the other, with a separator behind each, they are found again: every element stops in front
of a blank, and what a separator is made of gives neither tokens nor errors.

## Main results

* `Token.wellFormed_iff`: well-formed tokens are the tokens of well-formed elements.
* `Text.Trivia.elements_append`: blanks and comments are read as such, whatever follows.
* `Scan.ofSource_texts`: the scan of printed tokens.
* `Scan.roundTrip`: scans find well-formed tokens, and find them again when they are printed.
-/

namespace LoxLexer

open Text

/-! ## Well-formed tokens -/

namespace Token

/-- The letters of a word: a letter or an underscore, and then also digits. -/
def IsName (cs : List Char) : Prop :=
  ∃ c ds, cs = c :: ds ∧ isWordStart c = true ∧ ∀ d ∈ ds, isWordPart d = true

/-- One digit or more. -/
def IsDigits (cs : List Char) : Prop := cs ≠ [] ∧ ∀ c ∈ cs, c.isDigit = true

/-- Digits, and perhaps a point and digits behind it. -/
def IsNumeral (cs : List Char) : Prop :=
  IsDigits cs ∨ ∃ whole fraction, IsDigits whole ∧ IsDigits fraction ∧ cs = whole ++ '.' :: fraction

/-- The lexeme is one of the kind, and the literal is the value of the lexeme. -/
def WellFormed (t : Token) : Prop :=
  match t.kind with
  | .punctuator p => t.lexeme = p.spelling ∧ t.literal = none
  | .keyword k => t.lexeme = k.spelling ∧ t.literal = none
  | .identifier =>
    IsName t.lexeme.toList ∧ (∀ k : Keyword, t.lexeme ≠ k.spelling) ∧ t.literal = none
  | .number =>
    IsNumeral t.lexeme.toList ∧
      ∃ d, Decimal.parse? t.lexeme.toList = some d ∧ t.literal = some (.number d.nearest)
  | .string =>
    ∃ body : String, '"' ∉ body.toList ∧ t.lexeme = "\"" ++ body ++ "\"" ∧
      t.literal = some (.string body)
  | .endOfText => False

/-- What a token says about its lexeme, without the line where it stands. -/
def content (t : Token) : TokenKind × String × Option Literal := (t.kind, t.lexeme, t.literal)

end Token

theorem Keyword.isName_letters (k : Keyword) : Token.IsName k.letters := by
  cases k <;> exact ⟨_, _, rfl, rfl, List.all_eq_true.1 rfl⟩

namespace Element

theorem wellFormed_word_iff {letters : List Char} :
    (word letters).WellFormed ↔ Token.IsName letters := by
  constructor
  · rintro ⟨⟨c, hHead, hStart⟩, hParts⟩
    obtain ⟨ds, rfl⟩ := List.head?_eq_some_iff.1 hHead
    exact ⟨c, ds, rfl, hStart, fun d hd => hParts d (List.mem_cons_of_mem c hd)⟩
  · rintro ⟨c, ds, rfl, hStart, hParts⟩
    refine ⟨⟨c, rfl, hStart⟩, fun d hd => ?_⟩
    obtain rfl | hTail := List.mem_cons.1 hd
    · exact isWordPart_of_isWordStart hStart
    · exact hParts d hTail

theorem isNumeral_numberText {whole fraction : List Char} (h : (number whole fraction).WellFormed) :
    Token.IsNumeral (numberText whole fraction) := by
  unfold numberText
  split
  · left
    rw [List.append_nil]
    exact ⟨h.1, h.2.1⟩
  · rename_i hFraction
    exact .inr ⟨whole, fraction, ⟨h.1, h.2.1⟩, ⟨hFraction, h.2.2⟩, rfl⟩

theorem exists_number_of_isNumeral {cs : List Char} (h : Token.IsNumeral cs) :
    ∃ whole fraction, (number whole fraction).WellFormed ∧ numberText whole fraction = cs := by
  obtain ⟨hSome, hDigits⟩ | ⟨whole, fraction, hWhole, hFraction, rfl⟩ := h
  · exact ⟨cs, [], ⟨hSome, hDigits, by simp⟩, by simp [numberText]⟩
  · exact ⟨whole, fraction, ⟨hWhole.1, hWhole.2, hFraction.2⟩, by simp [numberText, hFraction.1]⟩

end Element

namespace Token

/-- The token of a well-formed element is well formed. -/
theorem wellFormed_of_token? {line : Nat} {e : Element} {t : Token} (h : e.WellFormed)
    (hToken : e.token? line = some t) : t.WellFormed := by
  cases e with
  | punctuator p =>
    obtain rfl := Option.some.inj hToken
    exact ⟨rfl, rfl⟩
  | word letters =>
    obtain rfl := Option.some.inj hToken
    cases hWord : Keyword.ofLetters? letters with
    | none =>
      refine ⟨by simpa using Element.wellFormed_word_iff.1 h, fun k hk => ?_, rfl⟩
      obtain rfl : letters = k.letters := by
        simpa [Keyword.spelling] using congrArg String.toList hk
      simp [Keyword.ofLetters?_letters] at hWord
    | some k =>
      obtain rfl := Keyword.ofLetters?_eq_some_iff.1 hWord
      exact ⟨rfl, rfl⟩
  | number whole fraction =>
    obtain rfl := Option.some.inj hToken
    refine ⟨?_, Decimal.ofDigits whole fraction, ?_, rfl⟩
    · simpa using Element.isNumeral_numberText h
    · simpa using Element.parse?_numberText h
  | string body =>
    obtain rfl := Option.some.inj hToken
    have hBody : '"' ∉ body := h
    refine ⟨String.ofList body, by simpa using hBody, ?_, rfl⟩
    apply String.ext
    simp [Element.text]
  | _ => simp [Element.token?] at hToken

/-- A well-formed token is the token of a well-formed element. -/
theorem exists_element_of_wellFormed {t : Token} (h : t.WellFormed) :
    ∃ e : Element, e.WellFormed ∧ e.token? t.line = some t := by
  obtain ⟨kind, lexeme, literal, line⟩ := t
  cases kind with
  | punctuator p =>
    obtain ⟨rfl, rfl⟩ : lexeme = p.spelling ∧ literal = none := h
    exact ⟨.punctuator p, trivial, rfl⟩
  | keyword k =>
    obtain ⟨rfl, rfl⟩ : lexeme = k.spelling ∧ literal = none := h
    refine ⟨.word k.letters, Element.wellFormed_word_iff.2 k.isName_letters, ?_⟩
    simp [Element.token?, Keyword.ofLetters?_letters, Keyword.spelling]
  | identifier =>
    obtain ⟨hName, hOther, rfl⟩ :
      IsName lexeme.toList ∧ (∀ k : Keyword, lexeme ≠ k.spelling) ∧ literal = none := h
    have hNone : Keyword.ofLetters? lexeme.toList = none := by
      rw [Option.eq_none_iff_forall_ne_some]
      intro k hk
      apply hOther k
      rw [Keyword.spelling, ← Keyword.ofLetters?_eq_some_iff.1 hk, String.ofList_toList]
    refine ⟨.word lexeme.toList, Element.wellFormed_word_iff.2 hName, ?_⟩
    simp [Element.token?, hNone]
  | number =>
    obtain ⟨hNumeral, d, hValue, rfl⟩ :
      IsNumeral lexeme.toList ∧
        ∃ d, Decimal.parse? lexeme.toList = some d ∧ literal = some (.number d.nearest) := h
    obtain ⟨whole, fraction, hForm, hText⟩ := Element.exists_number_of_isNumeral hNumeral
    obtain rfl : Decimal.ofDigits whole fraction = d := by
      rw [← hText, Element.parse?_numberText hForm] at hValue
      exact Option.some.inj hValue
    exact ⟨.number whole fraction, hForm, by simp [Element.token?, hText]⟩
  | string =>
    obtain ⟨body, hBody, rfl, rfl⟩ :
      ∃ body : String, '"' ∉ body.toList ∧ lexeme = "\"" ++ body ++ "\"" ∧
        literal = some (.string body) := h
    refine ⟨.string body.toList, hBody, ?_⟩
    have hLexeme : String.ofList ('"' :: body.toList ++ ['"']) = "\"" ++ body ++ "\"" := by
      apply String.ext
      simp
    simp [Element.token?, Element.text, ← hLexeme]
  | endOfText => exact absurd h id

/-- Well-formed tokens are the tokens of well-formed elements. -/
theorem wellFormed_iff {t : Token} :
    t.WellFormed ↔ ∃ e : Element, e.WellFormed ∧ e.token? t.line = some t := by
  constructor
  · exact exists_element_of_wellFormed
  · rintro ⟨e, hForm, hToken⟩
    exact wellFormed_of_token? hForm hToken

end Token

/-! ## Separators -/

namespace Text

/-- A text of blanks and comments. A line comment comes with the line feed behind it, and a block
comment is closed. -/
inductive Trivia : List Char → Prop where
  | nil : Trivia []
  | blank {c : Char} {cs : List Char} (blank : isBlank c = true) (tail : Trivia cs) :
      Trivia (c :: cs)
  | lineComment {body cs : List Char} (oneLine : '\n' ∉ body) (tail : Trivia cs) :
      Trivia ('/' :: '/' :: (body ++ '\n' :: cs))
  | blockComment {body cs : List Char} (closed : Element.Nesting 1 (body ++ ['*', '/']) 0)
      (tail : Trivia cs) : Trivia ('/' :: '*' :: (body ++ '*' :: '/' :: cs))

/-- A text that separates tokens: a blank, and then blanks and comments. -/
def IsSeparator (cs : List Char) : Prop := ∃ c ds, cs = c :: ds ∧ isBlank c = true ∧ Trivia ds

theorem IsSeparator.trivia {cs : List Char} (h : IsSeparator cs) : Trivia cs := by
  obtain ⟨c, ds, rfl, hBlank, hTail⟩ := h
  exact .blank hBlank hTail

end Text

namespace Element

/-- The element is a blank or a closed comment. -/
def isTrivia : Element → Bool
  | blank _ | lineComment _ | blockComment _ => true
  | _ => false

theorem token?_of_isTrivia {e : Element} (h : e.isTrivia = true) (line : Nat) :
    e.token? line = none := by
  cases e <;> simp [isTrivia, token?] at h ⊢

theorem error?_of_isTrivia {e : Element} (h : e.isTrivia = true) (line : Nat) :
    e.error? line = none := by
  cases e <;> simp [isTrivia, error?] at h ⊢

theorem runsOn_eq_false_of_token? {line : Nat} {e : Element} {t : Token}
    (h : e.token? line = some t) : e.runsOn = false := by
  cases e <;> first | rfl | simp [token?] at h

/-- Moved to another line, an element has the same token there. -/
theorem token?_eq_map (line line' : Nat) (e : Element) :
    e.token? line' = (e.token? line).map fun t => { t with line := line' } := by
  cases e <;> rfl

/-- In the places of blanks and comments there is nothing to be found. -/
theorem filterMap_place_of_isTrivia {es : List Element} (h : ∀ e ∈ es, e.isTrivia = true)
    (line offset : Nat) :
    (Placed.place line offset es).filterMap Placed.token? = [] ∧
      (Placed.place line offset es).filterMap Placed.error? = [] := by
  have hTrivia : ∀ p ∈ Placed.place line offset es, p.element.isTrivia = true := fun p hp =>
    h p.element (Placed.element_mem_of_mem_place hp)
  constructor
  · exact List.filterMap_eq_nil_iff.2 fun p hp => token?_of_isTrivia (hTrivia p hp) p.line
  · exact List.filterMap_eq_nil_iff.2 fun p hp => error?_of_isTrivia (hTrivia p hp) p.line

end Element

/-- Blanks and comments are read as such, whatever follows. -/
theorem Text.Trivia.elements_append {cs : List Char} (h : Trivia cs) (rest : List Char) :
    ∃ es : List Element, (∀ e ∈ es, e.isTrivia = true) ∧ Element.texts es = cs ∧
      Element.elements (cs ++ rest) = es ++ Element.elements rest := by
  induction h with
  | nil => exact ⟨[], by simp, rfl, rfl⟩
  | @blank c cs blank tail ih =>
    obtain ⟨es, hTrivia, rfl, hRead⟩ := ih
    refine ⟨.blank c :: es, by simpa [Element.isTrivia] using hTrivia, by simp [Element.text], ?_⟩
    rw [List.cons_append, Element.elements_blank blank, hRead, List.cons_append]
  | @lineComment body cs oneLine tail ih =>
    obtain ⟨es, hTrivia, rfl, hRead⟩ := ih
    refine ⟨.lineComment body :: .blank '\n' :: es, by simpa [Element.isTrivia] using hTrivia,
      by simp [Element.text], ?_⟩
    simpa [hRead] using Element.elements_lineComment oneLine (Element.texts es ++ rest)
  | @blockComment body cs closed tail ih =>
    obtain ⟨es, hTrivia, rfl, hRead⟩ := ih
    refine ⟨.blockComment body :: es, by simpa [Element.isTrivia] using hTrivia,
      by simp [Element.text], ?_⟩
    simpa [hRead] using Element.elements_blockComment closed (Element.texts es ++ rest)

/-! ## Printed tokens -/

/-- A token, and the text that separates it from the next. -/
structure Piece where
  token : Token
  separator : String
deriving DecidableEq, Repr

namespace Piece

/-- The token is well formed, and what separates it is a separator. -/
structure WellFormed (p : Piece) : Prop where
  token : p.token.WellFormed
  separator : IsSeparator p.separator.toList

/-- The token as it is printed, with what separates it. -/
def text (p : Piece) : String := p.token.lexeme ++ p.separator

/-- Tokens printed one after the other. -/
def texts (ps : List Piece) : String := String.join (ps.map text)

/-- The tokens of printed pieces, each on the line where it begins when the first begins on the
given line. -/
def tokensFrom (line : Nat) : List Piece → List Token
  | [] => []
  | p :: ps => { p.token with line := line } :: tokensFrom (line + lineFeeds p.text.toList) ps

theorem map_content_tokensFrom (line : Nat) (ps : List Piece) :
    (tokensFrom line ps).map Token.content = ps.map fun p => p.token.content := by
  induction ps generalizing line with
  | nil => rfl
  | cons p ps ih => simp [tokensFrom, ih, Token.content]

theorem toList_texts_cons (p : Piece) (ps : List Piece) :
    (texts (p :: ps)).toList =
      p.token.lexeme.toList ++ (p.separator.toList ++ (texts ps).toList) := by
  simp [texts, text]

/-- A printed piece is read as the element of its token and some blanks and comments. -/
theorem WellFormed.elements_append {p : Piece} (h : p.WellFormed) (rest : List Char) :
    ∃ (e : Element) (es : List Element), e.token? p.token.line = some p.token ∧
      (∀ f ∈ es, f.isTrivia = true) ∧ e.text ++ Element.texts es = p.text.toList ∧
      Element.elements (p.token.lexeme.toList ++ (p.separator.toList ++ rest)) =
        e :: (es ++ Element.elements rest) := by
  obtain ⟨e, hForm, hToken⟩ := Token.wellFormed_iff.1 h.token
  obtain ⟨es, hTrivia, hTexts, hRead⟩ := h.separator.trivia.elements_append rest
  obtain ⟨c, ds, hSeparator, hBlank, -⟩ := h.separator
  have hText : p.token.lexeme.toList = e.text := by
    rw [Element.lexeme_of_token? hToken, String.toList_ofList]
  have hStops : e.stops (p.separator.toList ++ rest) = true := by
    rw [hSeparator, List.cons_append]
    exact Element.stops_of_isBlank (Element.runsOn_eq_false_of_token? hToken) hBlank _
  refine ⟨e, es, hToken, hTrivia, ?_, ?_⟩
  · rw [text, String.toList_append, hText, hTexts]
  · rw [hText, Element.elements_append hForm hStops, hRead]

/-- The elements of printed pieces have the tokens of the pieces, and no errors. -/
theorem filterMap_place_elements {ps : List Piece} (h : ∀ p ∈ ps, p.WellFormed)
    (line offset : Nat) :
    (Placed.place line offset (Element.elements (texts ps).toList)).filterMap Placed.token? =
        tokensFrom line ps ∧
      (Placed.place line offset (Element.elements (texts ps).toList)).filterMap Placed.error? =
        [] := by
  induction ps generalizing line offset with
  | nil => simp [texts, tokensFrom]
  | cons p ps ih =>
    have hPiece : p.WellFormed := h p (by simp)
    obtain ⟨e, es, hToken, hTrivia, hText, hRead⟩ := hPiece.elements_append (texts ps).toList
    have hHere : e.token? line = some { p.token with line := line } := by
      rw [Element.token?_eq_map p.token.line line, hToken, Option.map_some]
    have hNoError : e.error? line = none :=
      (Element.token?_eq_none_or line e).resolve_left (by simp [hHere])
    have hLine :
        e.endLine line + lineFeeds (Element.texts es) = line + lineFeeds p.text.toList := by
      rw [← hText, lineFeeds_append, Element.endLine, Nat.add_assoc]
    obtain ⟨hNoTokens, hNoErrors⟩ :=
      Element.filterMap_place_of_isTrivia hTrivia (e.endLine line) (offset + byteLength e.text)
    obtain ⟨hTokens, hErrors⟩ := ih (fun q hq => h q (by simp [hq]))
      (e.endLine line + lineFeeds (Element.texts es))
      (offset + byteLength e.text + byteLength (Element.texts es))
    rw [toList_texts_cons, hRead, Placed.place_cons, Placed.place_append]
    constructor
    · rw [List.filterMap_cons_some (by exact hHere), List.filterMap_append, hNoTokens, hTokens,
        List.nil_append, hLine]
      rfl
    · rw [List.filterMap_cons_none (by exact hNoError), List.filterMap_append, hNoErrors, hErrors,
        List.nil_append]

end Piece

namespace Scan

/-- What a scan finds in printed pieces. -/
theorem ofSource_texts {ps : List Piece} (h : ∀ p ∈ ps, p.WellFormed) :
    ofSource (Piece.texts ps) =
      ⟨⟨Piece.tokensFrom 1 ps, 1 + lineFeeds (Piece.texts ps).toList⟩, []⟩ := by
  obtain ⟨hTokens, hErrors⟩ := Piece.filterMap_place_elements h 1 0
  rw [ofSource_eq, ofText, placed, hTokens, hErrors]

/-- Every token that a scan finds is well formed. -/
theorem wellFormed_of_mem_tokens {source : String} {t : Token}
    (h : t ∈ (ofSource source).stream.tokens) : t.WellFormed := by
  rw [ofSource_eq] at h
  obtain ⟨p, hPlaced, hToken⟩ := List.mem_filterMap.1 h
  exact Token.wellFormed_of_token?
    (Element.wellFormed_of_mem_elements (Placed.element_mem_of_mem_place hPlaced)) hToken

/-- Scans find well-formed tokens, whatever else is wrong with the text. Well-formed tokens that are
printed with separators between them are found again, each on the line where it was printed, and
nothing is wrong with the text. -/
theorem roundTrip :
    (∀ source : String, ∀ t ∈ (ofSource source).stream.tokens, t.WellFormed) ∧
      ∀ ps : List Piece, (∀ p ∈ ps, p.WellFormed) →
        (ofSource (Piece.texts ps)).errors = [] ∧
          (ofSource (Piece.texts ps)).stream.tokens.map Token.content =
            (ps.map fun p => p.token.content) ∧
          (ofSource (Piece.texts ps)).stream.toList =
            Piece.tokensFrom 1 ps ++ [.endOfText (1 + lineFeeds (Piece.texts ps).toList)] := by
  refine ⟨fun source t ht => wellFormed_of_mem_tokens ht, fun ps h => ?_⟩
  rw [ofSource_texts h]
  exact ⟨rfl, Piece.map_content_tokensFrom 1 ps, rfl⟩

/-- A string of two lines, a word behind a nested comment, and a number two lines further down. -/
theorem roundTrip_nested :
    (ofSource "\"a\nb\" /*/**/*/x\n//é\n1.5\t").errors = [] ∧
      (ofSource "\"a\nb\" /*/**/*/x\n//é\n1.5\t").stream.toList =
        [⟨.string, "\"a\nb\"", some (.string "a\nb"), 1⟩, ⟨.identifier, "x", none, 2⟩,
          ⟨.number, "1.5", some (.number (Decimal.nearest ⟨15, 1⟩)), 4⟩, .endOfText 4] := by
  have hString : Piece.WellFormed
      ⟨⟨.string, "\"a\nb\"", some (.string "a\nb"), 1⟩, " /*/**/*/"⟩ := by
    have hNested : Element.Nesting 1 (['/', '*', '*', '/'] ++ ['*', '/']) 0 :=
      .opening (.closing (.closing .stop))
    exact ⟨⟨"a\nb", by decide, rfl, rfl⟩, ' ', _, rfl, rfl, .blockComment hNested .nil⟩
  have hWord : Piece.WellFormed ⟨⟨.identifier, "x", none, 1⟩, "\n//é\n"⟩ := by
    have hName : Token.IsName "x".toList := ⟨'x', [], rfl, rfl, by simp⟩
    have hLine : Trivia ('/' :: '/' :: (['é'] ++ ['\n'])) := .lineComment (by decide) .nil
    refine ⟨⟨hName, ?_, rfl⟩, '\n', _, rfl, rfl, hLine⟩
    intro k
    cases k <;> decide
  have hNumber : Piece.WellFormed
      ⟨⟨.number, "1.5", some (.number (Decimal.nearest ⟨15, 1⟩)), 1⟩, "\t"⟩ := by
    have hNumeral : Token.IsNumeral "1.5".toList :=
      .inr ⟨['1'], ['5'], by simp [Token.IsDigits], by simp [Token.IsDigits], rfl⟩
    exact ⟨⟨hNumeral, ⟨15, 1⟩, by decide, rfl⟩, '\t', _, rfl, rfl, .nil⟩
  obtain ⟨hErrors, -, hTokens⟩ := roundTrip.2 [_, _, _] (by
    simpa using ⟨hString, hWord, hNumber⟩)
  exact ⟨hErrors, hTokens⟩

end Scan

end LoxLexer
