import LoxLexer.Proofs.RoundTrip
import LoxLexer.Proofs.Sequence
import Mathlib.Data.List.Forall2
import Mathlib.Data.List.Infix

/-!
# Tokens with nothing between them

Tokens that are printed without separators are found again exactly when no two neighbours merge, and
no whole number, dot and number stand in a row. Whether a token merges with the next can be told
from their kinds, for a lexeme shows its kind in its first character, and that is what decides
whether the element in front of it stops.

That nothing else is found when some do merge is a matter of length: where an element does not stop
a longer one is read, and then the lexemes that are found cannot be those that were printed.

## Main definitions

* `TokenKind.mergesWith`: kinds of neighbours that merge.
* `Token.Apart`: a sequence of tokens in which none merge.

## Main results

* `Element.stops_texts`: an element stops in front of tokens that it does not merge with.
* `Element.settled_iff_apart`: the elements of tokens stop exactly when none of these merge.
* `Scan.ofSource_lexemes_iff`: which tokens are found again without separators.
-/

namespace LoxLexer

open Text

namespace TokenKind

/-- The kind is that of a word, be it reserved or not. -/
def isWord : TokenKind → Bool
  | identifier | keyword _ => true
  | _ => false

/-- A token of the one kind and one of the other directly behind it are not read as these two. -/
def mergesWith : TokenKind → TokenKind → Bool
  | identifier, next | keyword _, next => next.isWord || next == number
  | number, next => next == number
  | punctuator .bang, next | punctuator .equal, next
  | punctuator .less, next | punctuator .greater, next =>
    next == punctuator .equal || next == punctuator .equalEqual
  | punctuator .slash, next => next == punctuator .slash || next == punctuator .star
  | _, _ => false

/-- Lexemes of the kind begin with such a character. -/
def begins : TokenKind → Char → Bool
  | punctuator p, c => p.characters.head? == some c
  | identifier, c | keyword _, c => isWordStart c
  | string, c => c == '"'
  | number, c => c.isDigit
  | endOfText, _ => false

/-- The kind is that of a punctuator with the given first character. -/
def isSpelledFrom (c : Char) : TokenKind → Bool
  | punctuator p => p.characters.head? == some c
  | _ => false

end TokenKind

namespace Token

/-- The token is a number without a point. -/
def isWhole (t : Token) : Bool := t.kind == .number && !t.lexeme.toList.contains '.'

/-- No two neighbours merge, and nowhere a whole number, a dot and a number stand in a row. -/
structure Apart (ts : List Token) : Prop where
  pairs : ∀ t u, [t, u] <:+: ts → t.kind.mergesWith u.kind = false
  triples : ∀ t u v, [t, u, v] <:+: ts →
    ¬(t.isWhole = true ∧ u.kind = .punctuator .dot ∧ v.kind = .number)

/-- The lexemes of tokens, one directly behind the other. -/
def lexemes (ts : List Token) : String := String.join (ts.map lexeme)

/-- The token merges with the tokens behind it. -/
def mergesInto (t : Token) : List Token → Bool
  | [] => false
  | u :: us =>
    t.kind.mergesWith u.kind ||
      t.isWhole && u.kind == .punctuator .dot && us.head?.any fun v => v.kind == .number

theorem lexemes_of_content {ts us : List Token} (h : ts.map content = us.map content) :
    lexemes ts = lexemes us := by
  have hLexemes := congrArg (List.map fun content => content.2.1) h
  simp only [List.map_map] at hLexemes
  exact congrArg String.join hLexemes

theorem apart_nil : Apart [] where
  pairs t u h := by simp at h
  triples t u v h := by simp at h

theorem mergesInto_eq_false_iff {t : Token} {ts : List Token} :
    t.mergesInto ts = false ↔
      (∀ u, [u] <+: ts → t.kind.mergesWith u.kind = false) ∧
        ∀ u v, [u, v] <+: ts →
          ¬(t.isWhole = true ∧ u.kind = .punctuator .dot ∧ v.kind = .number) := by
  cases ts with
  | nil => simp [mergesInto]
  | cons u us => cases us <;> simp [mergesInto, List.cons_prefix_cons]

/-- No tokens of a sequence merge when the first does not merge with those behind it, and none of
these merge. -/
theorem apart_cons_iff {t : Token} {ts : List Token} :
    Apart (t :: ts) ↔ t.mergesInto ts = false ∧ Apart ts := by
  rw [mergesInto_eq_false_iff]
  constructor
  · intro h
    refine ⟨⟨fun u hNext => ?_, fun u v hNext => ?_⟩,
      ⟨fun u v hInfix => h.pairs u v (List.infix_cons hInfix),
        fun u v w hInfix => h.triples u v w (List.infix_cons hInfix)⟩⟩
    · exact h.pairs t u (List.cons_prefix_cons.2 ⟨rfl, hNext⟩).isInfix
    · exact h.triples t u v (List.cons_prefix_cons.2 ⟨rfl, hNext⟩).isInfix
  · rintro ⟨⟨hPair, hTriple⟩, hBehind⟩
    refine ⟨fun u v hInfix => ?_, fun u v w hInfix => ?_⟩
    · obtain hHere | hLater := List.infix_cons_iff.1 hInfix
      · obtain ⟨rfl, hNext⟩ := List.cons_prefix_cons.1 hHere
        exact hPair v hNext
      · exact hBehind.pairs u v hLater
    · obtain hHere | hLater := List.infix_cons_iff.1 hInfix
      · obtain ⟨rfl, hNext⟩ := List.cons_prefix_cons.1 hHere
        exact hTriple v w hNext
      · exact hBehind.triples u v w hLater

theorem isWhole_of_isWord {t : Token} (h : t.kind.isWord = true) : t.isWhole = false := by
  unfold isWhole
  cases hKind : t.kind <;> simp_all [TokenKind.isWord]

end Token

/-! ## First characters -/

namespace TokenKind

theorem mergesWith_of_isWord {kind : TokenKind} (h : kind.isWord = true) (next : TokenKind) :
    kind.mergesWith next = (next.isWord || next == number) := by
  cases kind <;> first | rfl | simp [isWord] at h

/-- Of a lexeme that begins with the character, the kind is that of a punctuator that begins with
it. -/
theorem beq_of_begins {kind : TokenKind} {c d : Char} (h : kind.begins c = true)
    (hPart : isWordPart d = false) (hQuote : d ≠ '"') : (c == d) = kind.isSpelledFrom d := by
  have hNe (hc : isWordPart c = true) : (c == d) = false := by
    rw [beq_eq_false_iff_ne]
    rintro rfl
    simp [hc] at hPart
  cases kind with
  | punctuator p =>
    have hHead : p.characters.head? = some c := by simpa [begins] using h
    simp [isSpelledFrom, hHead]
  | identifier => exact hNe (isWordPart_of_isWordStart h)
  | keyword k => exact hNe (isWordPart_of_isWordStart h)
  | number => exact hNe (isWordPart_of_isDigit h)
  | string =>
    obtain rfl : c = '"' := by simpa [begins] using h
    simpa [isSpelledFrom] using hQuote.symm
  | endOfText => simp [begins] at h

/-- A letter begins a word and a digit a number, and nothing else. -/
theorem classes_of_begins {kind : TokenKind} {c : Char} (h : kind.begins c = true) :
    isWordStart c = kind.isWord ∧ c.isDigit = (kind == number) := by
  cases kind with
  | punctuator p =>
    have hHead : p.characters.head? = some c := by simpa [begins] using h
    cases p <;> cases hHead <;> exact ⟨rfl, rfl⟩
  | identifier => exact ⟨h, isDigit_eq_false_of_isWordStart h⟩
  | keyword k => exact ⟨h, isDigit_eq_false_of_isWordStart h⟩
  | number =>
    have hDigit : c.isDigit = true := h
    refine ⟨Bool.eq_false_iff.2 fun hStart => ?_, hDigit⟩
    simp [isDigit_eq_false_of_isWordStart hStart] at hDigit
  | string =>
    obtain rfl : c = '"' := by simpa [begins] using h
    exact ⟨rfl, rfl⟩
  | endOfText => simp [begins] at h

theorem isWordPart_of_begins {kind : TokenKind} {c : Char} (h : kind.begins c = true) :
    isWordPart c = (kind.isWord || kind == number) := by
  obtain ⟨hStart, hDigit⟩ := classes_of_begins h
  rw [isWordPart, hStart, hDigit]

/-- Only one punctuator begins with the character. -/
theorem isSpelledFrom_eq_beq {c : Char} {p : Punctuator}
    (h : ∀ q : Punctuator, q.characters.head? = some c ↔ q = p) (kind : TokenKind) :
    kind.isSpelledFrom c = (kind == punctuator p) := by
  cases kind with
  | punctuator q =>
    rw [Bool.eq_iff_iff]
    simp [isSpelledFrom, h]
  | _ => rfl

theorem isSpelledFrom_dot (kind : TokenKind) : kind.isSpelledFrom '.' = (kind == punctuator .dot) :=
  isSpelledFrom_eq_beq (fun q => by cases q <;> decide) kind

theorem isSpelledFrom_equal (kind : TokenKind) :
    kind.isSpelledFrom '=' = (kind == punctuator .equal || kind == punctuator .equalEqual) := by
  cases kind with
  | punctuator q => cases q <;> rfl
  | _ => rfl

/-- A punctuator is extended by the first character of what it merges with. -/
theorem isExtendedBy_of_begins (p : Punctuator) {kind : TokenKind} {c : Char}
    (h : kind.begins c = true) : p.isExtendedBy c = (punctuator p).mergesWith kind := by
  have hEqual : (c == '=') = kind.isSpelledFrom '=' := beq_of_begins h rfl (by decide)
  have hSlash : (c == '/') = kind.isSpelledFrom '/' := beq_of_begins h rfl (by decide)
  have hStar : (c == '*') = kind.isSpelledFrom '*' := beq_of_begins h rfl (by decide)
  rw [isSpelledFrom_equal] at hEqual
  rw [isSpelledFrom_eq_beq (p := .slash) fun q => by cases q <;> decide] at hSlash
  rw [isSpelledFrom_eq_beq (p := .star) fun q => by cases q <;> decide] at hStar
  cases p <;> simp [Punctuator.isExtendedBy, mergesWith, hEqual, hSlash, hStar]

end TokenKind

/-! ## Elements of tokens -/

namespace Element

/-- The element obeys the grammar and has the token, on the line where the token stands. -/
def IsOf (e : Element) (t : Token) : Prop := e.WellFormed ∧ e.token? t.line = some t

theorem exists_isOf {ts : List Token} (h : ∀ t ∈ ts, t.WellFormed) :
    ∃ es, List.Forall₂ IsOf es ts := by
  induction ts with
  | nil => exact ⟨[], .nil⟩
  | cons t ts ih =>
    obtain ⟨e, hElement⟩ := Token.wellFormed_iff.1 (h t List.mem_cons_self)
    obtain ⟨es, hBehind⟩ := ih fun u hMem => h u (List.mem_cons_of_mem t hMem)
    exact ⟨e :: es, .cons hElement hBehind⟩

namespace IsOf

variable {e : Element} {t : Token}

theorem toList_lexeme (h : e.IsOf t) : t.lexeme.toList = e.text := by
  rw [lexeme_of_token? h.2, String.toList_ofList]

theorem isOpen_eq_false (h : e.IsOf t) : e.isOpen = false := by
  obtain ⟨-, hToken⟩ := h
  cases e <;> first | rfl | simp [token?] at hToken

/-- Moved to another line, the element has the token moved there. -/
theorem token?_eq (h : e.IsOf t) (line : Nat) :
    e.token? line = some { t with line := line } := by
  rw [token?_eq_map t.line line, h.2, Option.map_some]

theorem kind_word {letters : List Char} (h : (word letters).IsOf t) : t.kind.isWord = true := by
  have hKind : t.kind = (Keyword.ofLetters? letters).elim .identifier .keyword :=
    congrArg Token.kind (Option.some.inj h.2).symm
  cases hWord : Keyword.ofLetters? letters <;> simp [hKind, hWord, TokenKind.isWord]

theorem kind_punctuator {p : Punctuator} (h : (punctuator p).IsOf t) : t.kind = .punctuator p :=
  congrArg Token.kind (Option.some.inj h.2).symm

theorem kind_string {body : List Char} (h : (string body).IsOf t) : t.kind = .string :=
  congrArg Token.kind (Option.some.inj h.2).symm

theorem kind_number {whole fraction : List Char} (h : (number whole fraction).IsOf t) :
    t.kind = .number :=
  congrArg Token.kind (Option.some.inj h.2).symm

theorem isWhole_number {whole fraction : List Char} (h : (number whole fraction).IsOf t) :
    t.isWhole = fraction.isEmpty := by
  have hDigits : '.' ∉ whole := fun hPoint => by simpa using h.1.2.1 '.' hPoint
  rw [Token.isWhole, h.kind_number, h.toList_lexeme, text, numberText]
  cases fraction <;> simp [hDigits]

theorem eq_punctuator {p : Punctuator} (h : e.IsOf t) (hKind : t.kind = .punctuator p) :
    e = .punctuator p := by
  cases e with
  | word letters =>
    have hWord := h.kind_word
    simp [hKind, TokenKind.isWord] at hWord
  | punctuator q =>
    obtain rfl := TokenKind.punctuator.inj (h.kind_punctuator.symm.trans hKind)
    rfl
  | string body => exact absurd (h.kind_string.symm.trans hKind) (by simp)
  | number whole fraction => exact absurd (h.kind_number.symm.trans hKind) (by simp)
  | _ => exact absurd h.2 (by simp [token?])

/-- A lexeme shows its kind in its first character. -/
theorem begins (h : e.IsOf t) : ∃ c cs, e.text = c :: cs ∧ t.kind.begins c = true := by
  cases e with
  | word letters =>
    obtain ⟨⟨c, hHead, hStart⟩, -⟩ := h.1
    obtain ⟨cs, rfl⟩ := List.head?_eq_some_iff.1 hHead
    refine ⟨c, cs, rfl, ?_⟩
    have hWord := h.kind_word
    cases hKind : t.kind <;> simp_all [TokenKind.isWord, TokenKind.begins]
  | punctuator p =>
    rw [h.kind_punctuator]
    obtain ⟨c, cs, hText⟩ := List.exists_cons_of_ne_nil p.characters_ne_nil
    exact ⟨c, cs, hText, by simp [TokenKind.begins, hText]⟩
  | string body =>
    rw [h.kind_string]
    exact ⟨'"', _, rfl, rfl⟩
  | number whole fraction =>
    rw [h.kind_number]
    obtain ⟨c, cs, rfl⟩ := List.exists_cons_of_ne_nil h.1.1
    exact ⟨c, _, rfl, h.1.2.1 c List.mem_cons_self⟩
  | _ => exact absurd h.2 (by simp [token?])

end IsOf

variable {es : List Element} {ts : List Token}

theorem head?_any_isDigit_texts (h : List.Forall₂ IsOf es ts) :
    (texts es).head?.any Char.isDigit = ts.head?.any fun t => t.kind == .number := by
  cases h with
  | nil => rfl
  | cons hHead hTail =>
    obtain ⟨c, cs, hText, hBegins⟩ := hHead.begins
    simp [hText, (TokenKind.classes_of_begins hBegins).2]

/-- A point and a digit are the first characters of a dot and a number. -/
theorem point_and_digit_texts (h : List.Forall₂ IsOf es ts) :
    ((texts es).head? == some '.' && (texts es).tail.head?.any Char.isDigit) =
      (ts.head?.any (fun t => t.kind == .punctuator .dot) &&
        ts.tail.head?.any fun t => t.kind == .number) := by
  cases h with
  | nil => rfl
  | @cons e t es ts hHead hTail =>
    obtain ⟨c, cs, hText, hBegins⟩ := hHead.begins
    have hPoint : (c == '.') = (t.kind == .punctuator .dot) :=
      (TokenKind.beq_of_begins hBegins rfl (by decide)).trans (TokenKind.isSpelledFrom_dot t.kind)
    by_cases hDot : t.kind = .punctuator .dot
    · obtain rfl := hHead.eq_punctuator hDot
      simp [text, Punctuator.characters, hDot, head?_any_isDigit_texts hTail]
    · simp [hText, hPoint, beq_eq_false_iff_ne.2 hDot]

/-- An element stops in front of tokens that its own token does not merge with. -/
theorem stops_texts {e : Element} {t : Token} (h : e.IsOf t) (hBehind : List.Forall₂ IsOf es ts) :
    e.stops (texts es) = !t.mergesInto ts := by
  cases e with
  | number whole fraction =>
    have hDigit := head?_any_isDigit_texts hBehind
    have hPoint := point_and_digit_texts hBehind
    rw [stops, Bool.and_assoc, hDigit, hPoint]
    cases ts <;> simp [Token.mergesInto, TokenKind.mergesWith, h.kind_number, h.isWhole_number,
      Bool.or_assoc]
  | word letters =>
    cases hBehind with
    | nil => rfl
    | cons hHead _ =>
      obtain ⟨c, cs, hText, hBegins⟩ := hHead.begins
      simp [stops, hText, TokenKind.isWordPart_of_begins hBegins, Token.mergesInto,
        TokenKind.mergesWith_of_isWord h.kind_word, Token.isWhole_of_isWord h.kind_word]
  | punctuator p =>
    cases hBehind with
    | nil => rfl
    | cons hHead _ =>
      obtain ⟨c, cs, hText, hBegins⟩ := hHead.begins
      simp [stops, hText, TokenKind.isExtendedBy_of_begins p hBegins, Token.mergesInto,
        Token.isWhole, h.kind_punctuator]
  | string body =>
    cases ts <;> simp [stops, Token.mergesInto, TokenKind.mergesWith, Token.isWhole, h.kind_string]
  | _ => exact absurd h.2 (by simp [token?])

/-- The elements of tokens stop, one in front of the other, exactly when none of the tokens
merge. -/
theorem settled_iff_apart (h : List.Forall₂ IsOf es ts) : Settled [] es ↔ Token.Apart ts := by
  induction h with
  | nil => exact ⟨fun _ => Token.apart_nil, fun _ => .nil⟩
  | @cons e t es ts hHead hTail ih =>
    rw [Settled.cons_iff, Token.apart_cons_iff, ih, List.append_nil, stops_texts hHead hTail]
    simp [hHead.1]

/-! ## What is found -/

theorem toList_lexemes (h : List.Forall₂ IsOf es ts) :
    (Token.lexemes ts).toList = texts es := by
  induction h with
  | nil => rfl
  | cons hHead hTail ih =>
    simp only [Token.lexemes] at ih
    simp [Token.lexemes, ih, hHead.toList_lexeme]

/-- Well-formed tokens are found in their elements, each on the line where it is put. -/
theorem collect_of_isOf (h : List.Forall₂ IsOf es ts) (line : Nat) :
    (collect token? line es).map Token.content = ts.map Token.content ∧
      collect error? line es = [] := by
  induction h generalizing line with
  | nil => exact ⟨rfl, rfl⟩
  | @cons e t es ts hHead hTail ih =>
    obtain ⟨hTokens, hErrors⟩ := ih (e.endLine line)
    have hToken := hHead.token?_eq line
    have hError : e.error? line = none :=
      (token?_eq_none_or line e).resolve_left (by simp [hToken])
    simp [collect, hToken, hError, hTokens, hErrors, Token.content]

/-- The lexemes that are found in a text are no longer than the text. -/
theorem length_lexemes_le (line : Nat) (es : List Element) :
    (Token.lexemes (collect token? line es)).toList.length ≤ (texts es).length := by
  induction es generalizing line with
  | nil => simp [collect, Token.lexemes]
  | cons e es ih =>
    have hBehind := ih (e.endLine line)
    simp only [Token.lexemes] at hBehind
    cases hToken : e.token? line with
    | none =>
      simp [collect, hToken, Token.lexemes] at hBehind ⊢
      omega
    | some t =>
      have hLexeme := lexeme_of_token? hToken
      simp [collect, hToken, Token.lexemes, hLexeme] at hBehind ⊢
      omega

/-- In place of an element that does not stop a longer one is read. Then either its token is another
one, or some of the text is in no token, and what is found is not the tokens that were printed. -/
theorem content_ne_of_not_stops {e : Element} {t : Token} (h : e.IsOf t)
    (hBehind : List.Forall₂ IsOf es ts) (hStops : e.stops (texts es) = false) (line : Nat) :
    (collect token? line (elements (e.text ++ texts es))).map Token.content ≠
      (t :: ts).map Token.content := by
  obtain ⟨c, cs, hText⟩ : ∃ c cs, e.text ++ texts es = c :: cs :=
    List.exists_cons_of_ne_nil (by simp [text_ne_nil h.1])
  have hLonger := length_lt_of_not_stops h.1 (by simp [h.isOpen_eq_false]) hStops hText
  rw [hText, elements_cons, collect]
  intro hFound
  cases hToken : (read c cs).1.token? line with
  | some u =>
    rw [hToken] at hFound
    have hLexeme : u.lexeme = t.lexeme :=
      congrArg (fun content => content.2.1) (List.cons.inj hFound).1
    have hSame : (read c cs).1.text = e.text := by
      rw [← h.toList_lexeme, ← hLexeme, lexeme_of_token? hToken, String.toList_ofList]
    simp [hSame] at hLonger
  | none =>
    rw [hToken, Option.toList_none, List.nil_append] at hFound
    have hLength := length_lexemes_le ((read c cs).1.endLine line) (elements (read c cs).2)
    have hSplit := congrArg List.length (text_append_rest_read c cs)
    rw [Token.lexemes_of_content hFound, toList_lexemes (.cons h hBehind), texts_elements,
      texts_cons, hText, ← hSplit, List.length_append] at hLength
    omega

/-- Where tokens are found again each of their elements stops. -/
theorem settled_of_content (h : List.Forall₂ IsOf es ts) (line : Nat)
    (hFound : (collect token? line (elements (texts es))).map Token.content =
      ts.map Token.content) : Settled [] es := by
  induction h generalizing line with
  | nil => exact .nil
  | @cons e t es ts hHead hTail ih =>
    rw [texts_cons] at hFound
    cases hStops : e.stops (texts es) with
    | true =>
      rw [elements_append hHead.1 hStops, collect, hHead.token?_eq line] at hFound
      refine .cons hHead.1 (by rwa [List.append_nil]) (ih (e.endLine line) ?_)
      simpa using (List.cons.inj hFound).2
    | false => exact absurd hFound (content_ne_of_not_stops hHead hTail hStops line)

end Element

namespace Scan

/-- Well-formed tokens that are printed with nothing between them are found again, all of them and
nothing else, exactly when none of them merge. -/
theorem ofSource_lexemes_iff {ts : List Token} (h : ∀ t ∈ ts, t.WellFormed) :
    ((ofSource (Token.lexemes ts)).errors = [] ∧
        (ofSource (Token.lexemes ts)).stream.toList.map Token.content =
          ts.map Token.content ++ [(.endOfText, "", none)]) ↔
      Token.Apart ts := by
  obtain ⟨es, hElements⟩ := Element.exists_isOf h
  have hText := Element.toList_lexemes hElements
  rw [← Element.settled_iff_apart hElements]
  constructor
  · rintro ⟨-, hFound⟩
    refine Element.settled_of_content hElements 1 ?_
    rw [ofSource_eq_ofElements (Element.cuts_elements _), ofElements_eq, hText] at hFound
    simpa [TokenStream.toList, TokenStream.endToken, Token.endOfText, Token.content] using hFound
  · intro hSettled
    obtain ⟨hTokens, hErrors⟩ := Element.collect_of_isOf hElements 1
    rw [ofSource_of_settled hSettled hText.symm, ofElements_eq]
    refine ⟨hErrors, ?_⟩
    simp [TokenStream.toList, hTokens, TokenStream.endToken, Token.endOfText, Token.content]

/-- A number, a dot and a name are found again, a number, a dot and a number are not. -/
theorem ofSource_lexemes_iff_one_dot :
    let one : Token := ⟨.number, "1", some (.number (Decimal.ofDigits ['1'] []).nearest), 1⟩
    let dot : Token := ⟨.punctuator .dot, ".", none, 1⟩
    let name : Token := ⟨.identifier, "a", none, 1⟩
    ((∀ t ∈ [one, dot, name], t.WellFormed) ∧
        (ofSource (Token.lexemes [one, dot, name])).errors = [] ∧
        (ofSource (Token.lexemes [one, dot, name])).stream.toList.map Token.content =
          [one, dot, name].map Token.content ++ [(.endOfText, "", none)]) ∧
      (∀ t ∈ [one, dot, one], t.WellFormed) ∧
        ¬((ofSource (Token.lexemes [one, dot, one])).errors = [] ∧
          (ofSource (Token.lexemes [one, dot, one])).stream.toList.map Token.content =
            [one, dot, one].map Token.content ++ [(.endOfText, "", none)]) := by
  intro one dot name
  have hOne : one.WellFormed :=
    ⟨.inl ⟨by simp [one], by simp [one]⟩, Decimal.ofDigits ['1'] [], by decide +kernel, rfl⟩
  have hDot : dot.WellFormed := ⟨rfl, rfl⟩
  have hName : name.WellFormed :=
    ⟨⟨'a', [], by simp [name], rfl, by simp⟩, fun k => by cases k <;> decide +kernel, rfl⟩
  have hNamed : ∀ t ∈ [one, dot, name], t.WellFormed := by simp [hOne, hDot, hName]
  have hNumbered : ∀ t ∈ [one, dot, one], t.WellFormed := by simp [hOne, hDot]
  refine ⟨⟨hNamed, (ofSource_lexemes_iff hNamed).2 ?_⟩, hNumbered, fun hFound => ?_⟩
  · simp only [Token.apart_cons_iff]
    exact ⟨by decide +kernel, by decide +kernel, rfl, Token.apart_nil⟩
  · have hMerge := (Token.apart_cons_iff.1 ((ofSource_lexemes_iff hNumbered).1 hFound)).1
    exact absurd hMerge (by decide +kernel)

end Scan

end LoxLexer
