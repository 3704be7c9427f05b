import Mathlib.Data.String.Basic
import LoxLexer.Element.Grammar
import LoxLexer.Report.Sink

/-!
# A pass reads the elements of its text

A pass moves byte by byte and counts lines as it goes; `Element.read` takes characters off a list.
This file shows that they do the same. The relation between them is `Pass.Stands`: the pass has
`before` behind it and `after` in front of it, and its offset is the byte length of `before`. So
every offset a pass ever holds is a character boundary, and what it sees there is the list of
characters that is left.

`Pass.finish` says what a pass is to look like behind an element. Each branch of `Pass.opening` is
shown to lead there, for the element that `Element.read` takes.

## Main results

* `Pass.Stands.beginLexeme_step`: one step reads one element.
* `Pass.Stands.run_eq`: a run reads the elements one after the other.
* `Scan.ofSource_eq`: a scan is what the elements of the text amount to.
* `Sink.scan_eq`: and whatever the sink, it is handed the errors of these elements in their order.
-/

namespace LoxLexer

open Text

/-! ## Characters at byte offsets -/

namespace Text

theorem utf8Len_eq (cs : List Char) : String.utf8Len cs = byteLength cs := by
  rw [← String.utf8ByteSize_ofList, utf8ByteSize_ofList]

theorem get?_byteLength {s : String} {before after : List Char}
    (h : s.toList = before ++ after) :
    String.Pos.Raw.get? s ⟨byteLength before⟩ = after.head? := by
  rw [← String.ofList_toList (s := s), h, ← utf8Len_eq]
  exact String.get?_of_valid before after

theorem extract_byteLength {s : String} {before inside after : List Char}
    (h : s.toList = before ++ (inside ++ after)) :
    String.Pos.Raw.extract s ⟨byteLength before⟩ ⟨byteLength before + byteLength inside⟩ =
      String.ofList inside := by
  rw [← String.ofList_toList (s := s), h, ← List.append_assoc, ← utf8Len_eq, ← utf8Len_eq]
  exact String.extract_of_valid before inside after

end Text

namespace Element

theorem lineFeeds_text_lineComment {body : List Char} (h : (lineComment body).WellFormed) :
    lineFeeds (lineComment body).text = 0 :=
  lineFeeds_eq_zero (by simpa [text, WellFormed] using h)

theorem lineFeeds_text_word {letters : List Char} (h : (word letters).WellFormed) :
    lineFeeds (word letters).text = 0 :=
  lineFeeds_eq_zero fun hMem => absurd (h.2 _ hMem) (by decide)

theorem lineFeeds_text_number {whole fraction : List Char}
    (h : (number whole fraction).WellFormed) : lineFeeds (number whole fraction).text = 0 := by
  have hWhole : '\n' ∉ whole := fun hMem => absurd (h.2.1 _ hMem) (by decide)
  have hFraction : '\n' ∉ fraction := fun hMem => absurd (h.2.2 _ hMem) (by decide)
  refine lineFeeds_eq_zero ?_
  simp only [text, numberText, List.mem_append, hWhole, false_or]
  split <;> simp [hFraction]

theorem lineFeeds_text_punctuator (p : Punctuator) : lineFeeds (punctuator p).text = 0 := by
  cases p <;> decide

/-- The text of a number is a decimal. -/
theorem parse?_numberText {whole fraction : List Char} (h : (number whole fraction).WellFormed) :
    Decimal.parse? (numberText whole fraction) = some (Decimal.ofDigits whole fraction) := by
  unfold numberText
  split
  · rename_i hEmpty
    rw [hEmpty, List.append_nil, Decimal.parse?_whole h.1 h.2.1]
  · rename_i hFraction
    exact Decimal.parse?_fraction h.1 h.2.1 hFraction h.2.2

end Element

namespace Pass

variable {σ : Type}

/-- The pass has `before` behind it and `after` in front of it. -/
structure Stands (s : Pass σ) (before after : List Char) : Prop where
  source_eq : s.source.toList = before ++ after
  current_eq : s.current = byteLength before

namespace Stands

variable {s : Pass σ} {before after : List Char}

theorem ofSource (source : String) (sink : σ) :
    (Pass.ofSource source sink).Stands [] source.toList :=
  ⟨rfl, rfl⟩

theorem peek?_eq (h : s.Stands before after) : s.peek? = after.head? := by
  rw [peek?, h.current_eq, get?_byteLength h.source_eq]

theorem peekSecond?_eq (h : s.Stands before after) : s.peekSecond? = after.tail.head? := by
  rw [peekSecond?, h.peek?_eq]
  cases after with
  | nil => rfl
  | cons c cs =>
    have hSource : s.source.toList = (before ++ [c]) ++ cs := by simp [h.source_eq]
    have hGet := get?_byteLength hSource
    rw [byteLength_append] at hGet
    simpa [h.current_eq] using hGet

theorem isAtEnd_iff (h : s.Stands before after) : s.isAtEnd = true ↔ after = [] := by
  rw [isAtEnd, utf8ByteSize_eq, h.source_eq, h.current_eq, byteLength_append, decide_eq_true_eq]
  cases after with
  | nil => simp
  | cons c cs =>
    have := c.utf8Size_pos
    simp only [byteLength_cons, List.cons_ne_nil, iff_false]
    omega

/-- Moves over a part of the text, whatever becomes of the rest of the state. -/
theorem move {t : Pass σ} {cs : List Char} (h : s.Stands before (cs ++ after))
    (hSource : t.source = s.source) (hCurrent : t.current = s.current + byteLength cs) :
    t.Stands (before ++ cs) after :=
  ⟨by rw [hSource, h.source_eq, List.append_assoc],
    by rw [hCurrent, h.current_eq, byteLength_append]⟩

theorem forward (cs : List Char) (h : s.Stands before (cs ++ after)) :
    (s.forward (byteLength cs)).Stands (before ++ cs) after :=
  h.move rfl rfl

theorem advance_eq {c : Char} (h : s.Stands before (c :: after)) :
    s.advance = s.forward (byteLength [c]) := by
  simp [advance, h.peek?_eq]

theorem advance {c : Char} (h : s.Stands before (c :: after)) :
    s.advance.Stands (before ++ [c]) after := by
  rw [h.advance_eq]
  exact h.forward [c]

theorem accept?_eq (expected : Char) (h : s.Stands before after) :
    s.accept? expected = if after.head? = some expected then some s.advance else none := by
  rw [accept?, h.peek?_eq]

/-- What a pass has read since its lexeme began. -/
theorem lexeme_eq {cs : List Char} (h : s.Stands (before ++ cs) after)
    (hStart : s.start = byteLength before) : s.lexeme = String.ofList cs := by
  have hSource : s.source.toList = before ++ (cs ++ after) := by
    rw [h.source_eq, List.append_assoc]
  rw [lexeme, between, hStart, h.current_eq, byteLength_append]
  exact extract_byteLength hSource

/-! ## Loops -/

theorem walk_eq (p : Char → Bool) (h : s.Stands before after) :
    s.walk p = s.forward (byteLength (after.takeWhile p)) := by
  induction after generalizing s before with
  | nil => exact walk_of_none p h.peek?_eq
  | cons c cs ih =>
    rw [walk_of_some p h.peek?_eq]
    split
    · rename_i hp
      rw [ih h.advance, h.advance_eq]
      simp [hp, Pass.forward, Nat.add_assoc]
    · rename_i hp
      simp [hp, Pass.forward]

theorem walk (p : Char → Bool) (h : s.Stands before after) :
    (s.walk p).Stands (before ++ after.takeWhile p) (after.dropWhile p) := by
  rw [h.walk_eq]
  exact forward _ (by rwa [List.takeWhile_append_dropWhile])

end Stands

/-- The pass, moved past a part of its text whose line feeds have been counted. -/
def past (cs : List Char) (s : Pass σ) : Pass σ :=
  { s with current := s.current + byteLength cs, line := s.line + lineFeeds cs }

@[simp] theorem past_nil (s : Pass σ) : s.past [] = s := rfl

theorem past_past (xs ys : List Char) (s : Pass σ) : (s.past xs).past ys = s.past (xs ++ ys) := by
  simp [past, Nat.add_assoc]

theorem forward_forward (m n : Nat) (s : Pass σ) : (s.forward m).forward n = s.forward (m + n) := by
  simp [forward, Nat.add_assoc]

theorem past_eq_forward {cs : List Char} (h : lineFeeds cs = 0) (s : Pass σ) :
    s.past cs = s.forward (byteLength cs) := by
  simp [past, forward, h]

namespace Stands

variable {s : Pass σ} {before after : List Char}

theorem past (cs : List Char) (h : s.Stands before (cs ++ after)) :
    (s.past cs).Stands (before ++ cs) after :=
  h.move rfl rfl

theorem skipString_eq (h : s.Stands before after) :
    s.skipString = s.past (after.takeWhile (· != '"')) := by
  induction after generalizing s before with
  | nil => exact skipString_of_none h.peek?_eq
  | cons c cs ih =>
    rw [skipString_of_some h.peek?_eq]
    split
    · rename_i hQuote
      simp [hQuote]
    rename_i hQuote
    have hOne : (s.past [c]).Stands (before ++ [c]) cs := h.past [c]
    rw [List.takeWhile_cons_of_pos (by simpa using hQuote), ← List.singleton_append, ← past_past,
      ← ih hOne]
    split
    · rename_i hFeed
      subst hFeed
      have hNext : s.nextLine.Stands before ('\n' :: cs) := ⟨h.source_eq, h.current_eq⟩
      rw [hNext.advance_eq]
      rfl
    · rename_i hFeed
      rw [h.advance_eq, past_eq_forward (by simp [lineFeeds_cons, hFeed])]

end Stands

/-! ## The state behind an element -/

/-- The pass, moved from where its lexeme began to the end of an element that stands there. -/
def cross (e : Element) (s : Pass σ) : Pass σ :=
  { s with current := s.start + byteLength e.text, line := e.endLine s.line }

/-- The pass has read `front` since its lexeme began: `before` stands in front of the lexeme and
`after` behind what has been read. -/
structure Reads (s : Pass σ) (before front after : List Char) : Prop where
  stands : s.Stands (before ++ front) after
  start_eq : s.start = byteLength before

namespace Reads

variable {s : Pass σ} {before front after : List Char}

/-- Moving past the rest of an element is moving past the element. -/
theorem past_eq_cross {e : Element} {cs : List Char} (h : s.Reads before front after)
    (hText : e.text = front ++ cs) (hLine : lineFeeds front = 0) : s.past cs = s.cross e := by
  simp only [past, cross, Element.endLine, hText, h.start_eq, h.stands.current_eq, hLine,
    byteLength_append, lineFeeds_append, Nat.add_assoc, Nat.zero_add]

theorem forward_eq_cross {e : Element} {cs : List Char} (h : s.Reads before front after)
    (hText : e.text = front ++ cs) (hLine : lineFeeds e.text = 0) :
    s.forward (byteLength cs) = s.cross e := by
  have hFeeds : lineFeeds front = 0 ∧ lineFeeds cs = 0 := by
    rw [hText, lineFeeds_append] at hLine
    omega
  rw [← past_eq_forward hFeeds.2, h.past_eq_cross hText hFeeds.1]

/-- Behind an element the lexeme is its text. -/
theorem lexeme_cross {e : Element} {cs : List Char} (h : s.Reads before front (cs ++ after))
    (hText : e.text = front ++ cs) : (s.cross e).lexeme = String.ofList e.text := by
  have hSource : (s.cross e).source.toList = (before ++ e.text) ++ after := by
    simp [cross, h.stands.source_eq, hText]
  have hCurrent : (s.cross e).current = byteLength (before ++ e.text) := by
    simp [cross, h.start_eq]
  exact Stands.lexeme_eq ⟨hSource, hCurrent⟩ h.start_eq

/-- Between the quotes of a string stands its body. -/
theorem between_quotes {body : List Char}
    (h : s.Reads before ['"'] (body ++ '"' :: after)) :
    (s.cross (.string body)).between ((s.cross (.string body)).start + 1)
      ((s.cross (.string body)).current - 1) = String.ofList body := by
  have hSource : s.source.toList = (before ++ ['"']) ++ (body ++ '"' :: after) := h.stands.source_eq
  have hQuote : '"'.utf8Size = 1 := rfl
  have hStart : s.start + 1 = byteLength (before ++ ['"']) := by
    simp [h.start_eq, hQuote]
  have hStop : (s.cross (.string body)).current - 1 =
      byteLength (before ++ ['"']) + byteLength body := by
    simp only [cross, Element.text, h.start_eq, byteLength_append, byteLength_cons,
      byteLength_nil, hQuote]
    omega
  rw [between, hStop, ← extract_byteLength hSource, ← hStart]
  rfl

theorem line_cross {e : Element} (h : lineFeeds e.text = 0) : (s.cross e).line = s.line := by
  simp [cross, Element.endLine, h]

end Reads

variable [Sink σ]

/-- The pass behind an element that began where its lexeme did. The token of the element is filed
and its error is reported, if it has one. -/
def finish (e : Element) (s : Pass σ) : Pass σ :=
  { s.cross e with
    tokens := (e.token? s.line).elim s.tokens s.tokens.push
    sink := Sink.receiveAll (e.error? s.line).toList s.sink }

/-! ## Block comments -/

/-- The pass, moved past what is left of a comment. A comment that the text does not close is
reported on the line where the text ends. -/
def pastComment (tail : Element.CommentTail) (s : Pass σ) : Pass σ :=
  if tail.depth = 0 then s.past tail.inside
  else
    (s.past tail.inside).report
      (.unterminatedBlockComment (s.line + lineFeeds tail.inside) tail.depth)

theorem pastComment_prepend (cs : List Char) (tail : Element.CommentTail) (s : Pass σ) :
    s.pastComment (tail.prepend cs) = (s.past cs).pastComment tail := by
  have hDepth : (tail.prepend cs).depth = tail.depth := rfl
  simp only [pastComment, hDepth, Element.inside_prepend, past, lineFeeds_append,
    byteLength_append, Nat.add_assoc]

namespace Stands

variable {s : Pass σ} {before after : List Char}

/-- The loop follows the recursion of `Element.readComment`, pair by pair. -/
theorem skipComment_eq (outer : Nat) (h : s.Stands before after) :
    s.skipComment (outer + 1) = s.pastComment (Element.readComment outer after) := by
  fun_induction Element.readComment outer after generalizing s before with
  | case1 outer =>
    rw [skipComment_of_none _ h.peek?_eq]
    simp [pastComment, Element.CommentTail.inside]
  | case2 cs =>
    have hSecond : s.peekSecond? = some '/' := h.peekSecond?_eq
    rw [skipComment_of_some _ h.peek?_eq, if_pos ⟨rfl, hSecond⟩, if_pos rfl]
    rfl
  | case3 cs outer ih =>
    have hSecond : s.peekSecond? = some '/' := h.peekSecond?_eq
    have hPair : (s.past ['*', '/']).Stands (before ++ ['*', '/']) cs := h.past ['*', '/']
    rw [skipComment_of_some _ h.peek?_eq, if_pos ⟨rfl, hSecond⟩, if_neg (by omega),
      pastComment_prepend, ← ih hPair]
    rfl
  | case4 outer cs ih =>
    have hSecond : s.peekSecond? = some '*' := h.peekSecond?_eq
    have hPair : (s.past ['/', '*']).Stands (before ++ ['/', '*']) cs := h.past ['/', '*']
    rw [skipComment_of_some _ h.peek?_eq, if_neg (by simp), if_pos ⟨rfl, hSecond⟩,
      pastComment_prepend, ← ih hPair]
    rfl
  | case5 outer c cs notClosing notOpening ih =>
    have hSecond : s.peekSecond? = cs.head? := h.peekSecond?_eq
    have hOne : (s.past [c]).Stands (before ++ [c]) cs := h.past [c]
    have hClosing : ¬(c = '*' ∧ s.peekSecond? = some '/') := by
      rintro ⟨rfl, hSlash⟩
      obtain ⟨ds, rfl⟩ := List.head?_eq_some_iff.1 (hSecond ▸ hSlash)
      exact notClosing ds rfl rfl
    have hOpening : ¬(c = '/' ∧ s.peekSecond? = some '*') := by
      rintro ⟨rfl, hStar⟩
      obtain ⟨ds, rfl⟩ := List.head?_eq_some_iff.1 (hSecond ▸ hStar)
      exact notOpening ds rfl rfl
    rw [skipComment_of_some _ h.peek?_eq, if_neg hClosing, if_neg hOpening, pastComment_prepend,
      ← ih hOne]
    split
    · rename_i hFeed
      subst hFeed
      rfl
    · rename_i hFeed
      rw [h.advance_eq, past_eq_forward (by simp [lineFeeds_cons, hFeed])]

end Stands

/-! ## Elements -/

namespace Stands

variable {s : Pass σ} {before after : List Char}

omit [Sink σ] in
/-- What `fraction` moves over is what `Element.readFraction` takes. -/
theorem fraction_eq (h : s.Stands before after) (whole : List Char) :
    ∃ places tail rest, Element.readFraction whole after = (.number whole places, rest) ∧
      Element.numberText whole places = whole ++ tail ∧ after = tail ++ rest ∧
        s.fraction = s.forward (byteLength tail) := by
  unfold Element.readFraction fraction point
  rw [h.peek?_eq, h.peekSecond?_eq]
  split
  · rename_i d ds
    split
    · rename_i hd
      refine ⟨d :: ds.takeWhile Char.isDigit, '.' :: d :: ds.takeWhile Char.isDigit, _, rfl,
        by simp [Element.numberText], by simp, ?_⟩
      rw [if_pos (by simp [hd]), Round.elim_again, h.advance.walk_eq, h.advance_eq]
      simp [hd, Pass.forward, Nat.add_assoc]
    · rename_i hd
      refine ⟨[], [], _, rfl, by simp [Element.numberText], rfl, ?_⟩
      rw [if_neg (by simp [hd])]
      rfl
  · rename_i hNone
    refine ⟨[], [], _, rfl, by simp [Element.numberText], rfl, ?_⟩
    rw [if_neg]
    · rfl
    · rintro ⟨hPoint, hDigit⟩
      obtain ⟨cs, rfl⟩ := List.head?_eq_some_iff.1 hPoint
      cases cs with
      | nil => simp at hDigit
      | cons d ds => exact hNone d ds rfl

theorem finish {e : Element} (h : s.Stands before (e.text ++ after))
    (hStart : s.start = s.current) : (s.finish e).Stands (before ++ e.text) after :=
  h.move rfl (by rw [Pass.finish, Pass.cross, hStart])

end Stands

namespace Reads

variable {s : Pass σ} {before front after : List Char}

/-- Filing the token of an element, behind it, completes it. -/
theorem push_eq_finish {e : Element} {cs : List Char} {kind : TokenKind}
    {literal : Option Literal} {line : Nat} (h : s.Reads before front (cs ++ after))
    (hText : e.text = front ++ cs)
    (hToken : e.token? s.line = some ⟨kind, String.ofList e.text, literal, line⟩) :
    (s.cross e).push kind literal line = s.finish e := by
  have hError : e.error? s.line = none := by
    simpa [hToken] using e.token?_eq_none_or s.line
  rw [push, h.lexeme_cross hText, Pass.finish, hToken, hError]
  rfl

/-- Behind an element that has neither token nor error there is nothing left to do. -/
theorem cross_eq_finish {e : Element} (hToken : e.token? s.line = none)
    (hError : e.error? s.line = none) : s.cross e = s.finish e := by
  simp [Pass.finish, hToken, hError, cross]

theorem add_eq_finish {p : Punctuator} (h : s.Reads before front after)
    (hText : p.characters = front) : s.add (.punctuator p) = s.finish (.punctuator p) := by
  have hWhole : (Element.punctuator p).text = front ++ [] := by
    rw [List.append_nil]
    exact hText
  have hReads : s.Reads before front ([] ++ after) := h
  have hCross : s = s.cross (.punctuator p) :=
    h.forward_eq_cross hWhole (Element.lineFeeds_text_punctuator p)
  have hPush := hReads.push_eq_finish hWhole rfl
  rwa [← hCross] at hPush

/-- The longer of two spellings is taken where its second character comes next. -/
theorem addEither_eq {c : Char} {long short : Punctuator} (h : s.Reads before [c] after)
    (hLong : long.characters = [c, '=']) (hShort : short.characters = [c])
    (hSign : Element.isSign c = true) (hSlash : c ≠ '/') :
    s.addEither '=' long short = s.finish (Element.read c after).1 := by
  rw [addEither, h.stands.accept?_eq, Element.read_either hSign hSlash hLong hShort]
  split_ifs with hNext
  · obtain ⟨rest, rfl⟩ := List.head?_eq_some_iff.1 hNext
    have hText : (Element.punctuator long).text = [c] ++ ['='] := hLong
    have hLine := Element.lineFeeds_text_punctuator long
    have hReads : s.Reads before [c] (['='] ++ rest) := h
    dsimp only
    rw [h.stands.advance_eq, h.forward_eq_cross hText hLine, add, line_cross hLine]
    exact hReads.push_eq_finish hText rfl
  · exact h.add_eq_finish hShort

theorem string_eq (h : s.Reads before ['"'] after) :
    s.string = s.finish (Element.readString after).1 := by
  have hSplit := List.takeWhile_append_dropWhile (p := (· != '"')) (l := after)
  simp only [string, endString, Element.readString, h.stands.skipString_eq]
  obtain hRest | ⟨rest, hRest⟩ := dropWhile_bne '"' after
  · rw [hRest, List.append_nil] at hSplit
    have hPast : (s.past after).Stands ((before ++ ['"']) ++ after) [] :=
      Stands.past after (by simpa using h.stands)
    have hCross : s.past after = s.cross (.openString after) := h.past_eq_cross rfl rfl
    rw [hSplit, hRest, if_pos (hPast.isAtEnd_iff.2 rfl), hCross]
    rfl
  · rw [hRest] at hSplit ⊢
    generalize after.takeWhile (· != '"') = body at hSplit
    subst hSplit
    have hPast : (s.past body).Stands ((before ++ ['"']) ++ body) ('"' :: rest) :=
      h.stands.past body
    have hAdvance : (s.past body).advance = s.cross (.string body) := by
      have hQuote : lineFeeds ['"'] = 0 := rfl
      rw [hPast.advance_eq, ← past_eq_forward hQuote, past_past]
      exact h.past_eq_cross rfl rfl
    rw [if_neg (by simp [hPast.isAtEnd_iff]), hAdvance, Round.elim_again, fileString,
      h.between_quotes]
    have hReads : s.Reads before ['"'] ((body ++ ['"']) ++ rest) := by simpa using h
    exact hReads.push_eq_finish rfl rfl

theorem word_eq {c : Char} (h : s.Reads before [c] after) (hStart : isWordStart c = true) :
    s.word = s.finish (Element.readWord c after).1 := by
  have hLine := Element.lineFeeds_text_word (Element.wellFormed_readWord hStart after)
  simp only [Element.readWord]
  generalize hLetters : c :: after.takeWhile isWordPart = letters
  have hText : (Element.word letters).text = [c] ++ after.takeWhile isWordPart := hLetters.symm
  rw [hLetters] at hLine
  have hReads : s.Reads before [c] (after.takeWhile isWordPart ++ after.dropWhile isWordPart) := by
    rwa [List.takeWhile_append_dropWhile]
  have hCross : s.walk isWordPart = s.cross (.word letters) := by
    rw [h.stands.walk_eq]
    exact h.forward_eq_cross hText hLine
  simp only [word, fileWord, hCross, hReads.lexeme_cross hText, Keyword.parse, String.toList_ofList,
    Element.text]
  cases hKeyword : Keyword.ofLetters? letters with
  | some k =>
    dsimp only
    rw [add, line_cross hLine]
    exact hReads.push_eq_finish hText (by simp [Element.token?, hKeyword, Element.text])
  | none =>
    dsimp only
    rw [add, line_cross hLine]
    exact hReads.push_eq_finish hText (by simp [Element.token?, hKeyword, Element.text])

theorem number_eq {c : Char} (h : s.Reads before [c] after) (hDigit : c.isDigit = true) :
    s.number = s.finish (Element.readNumber c after).1 := by
  have hWellFormed := Element.wellFormed_readNumber hDigit after
  have hSplit := List.takeWhile_append_dropWhile (p := Char.isDigit) (l := after)
  have hWalk := h.stands.walk Char.isDigit
  have hWalkEq := h.stands.walk_eq Char.isDigit
  simp only [Element.readNumber] at hWellFormed ⊢
  generalize after.takeWhile Char.isDigit = digits at *
  obtain ⟨places, tail, rest, hRead, hTail, hRest, hFraction⟩ := hWalk.fraction_eq (c :: digits)
  rw [hRead] at hWellFormed ⊢
  have hText : (Element.number (c :: digits) places).text = [c] ++ (digits ++ tail) := hTail
  have hLine := Element.lineFeeds_text_number hWellFormed
  have hReads : s.Reads before [c] ((digits ++ tail) ++ rest) := by
    rwa [List.append_assoc, ← hRest, hSplit]
  have hCross : (s.walk Char.isDigit).fraction = s.cross (.number (c :: digits) places) := by
    rw [hFraction, hWalkEq, forward_forward, ← byteLength_append]
    exact h.forward_eq_cross hText hLine
  simp only [number, fileNumber, hCross, hReads.lexeme_cross hText, line_cross hLine,
    String.toList_ofList]
  refine hReads.push_eq_finish hText ?_
  simp only [Element.token?, Element.text, Element.parse?_numberText hWellFormed, Option.map_some]

theorem pastComment_eq (h : s.Reads before ['/'] ('*' :: after)) (tail : Element.CommentTail) :
    (s.past ['*']).pastComment tail = s.finish (Element.ofCommentTail tail) := by
  rw [pastComment, Element.ofCommentTail, past_past]
  split
  · rename_i hDepth
    rw [← cross_eq_finish rfl rfl]
    refine h.past_eq_cross ?_ rfl
    simp [Element.text, Element.CommentTail.inside, hDepth]
  · rename_i hDepth
    have hInside : tail.inside = tail.body := by
      simp [Element.CommentTail.inside, hDepth]
    have hLine : (s.past ['*']).line + lineFeeds tail.body =
        (Element.openComment tail.body tail.depth).endLine s.line := by
      simp [past, Element.endLine, Element.text, lineFeeds_cons]
    have hCross : s.past ('*' :: tail.body) = s.cross (.openComment tail.body tail.depth) :=
      h.past_eq_cross rfl rfl
    rw [hInside, hLine, List.singleton_append, hCross]
    rfl

theorem slash_eq (h : s.Reads before ['/'] after) :
    s.slash.readOn = s.finish (Element.read '/' after).1 := by
  rw [slash, h.stands.accept?_eq, h.stands.accept?_eq]
  by_cases hLine : after.head? = some '/'
  · obtain ⟨rest, rfl⟩ := List.head?_eq_some_iff.1 hLine
    have hFeeds := Element.lineFeeds_text_lineComment (Element.wellFormed_readLineComment rest)
    rw [if_pos hLine, Element.read_lineComment, ← cross_eq_finish rfl rfl]
    dsimp only [Opening.readOn]
    rw [h.stands.advance.walk_eq, h.stands.advance_eq, forward_forward, ← byteLength_append]
    exact h.forward_eq_cross rfl hFeeds
  rw [if_neg hLine]
  by_cases hBlock : after.head? = some '*'
  · obtain ⟨rest, rfl⟩ := List.head?_eq_some_iff.1 hBlock
    have hStar : lineFeeds ['*'] = 0 := rfl
    rw [if_pos hBlock, Element.read_blockComment, Element.readBlockComment]
    dsimp only [Opening.readOn]
    rw [h.stands.advance.skipComment_eq 0, h.stands.advance_eq, ← past_eq_forward hStar]
    exact h.pastComment_eq (Element.readComment 0 rest)
  have hRead : Element.read '/' after = (.punctuator .slash, after) :=
    Element.read_single rfl (fun _ => ⟨hLine, hBlock⟩) rfl (by decide)
  rw [if_neg hBlock, hRead]
  exact h.add_eq_finish rfl

theorem add_single_eq {c : Char} {p : Punctuator} (h : s.Reads before [c] after)
    (hText : p.characters = [c]) (hSign : Element.isSign c = true) (hSlash : c ≠ '/')
    (hLong : ¬(c = '!' ∨ c = '=' ∨ c = '<' ∨ c = '>')) :
    s.add (.punctuator p) = s.finish (Element.read c after).1 := by
  rw [Element.read_single hSign (absurd · hSlash) hText hLong]
  exact h.add_eq_finish hText

theorem add_blank_eq {c : Char} (h : s.Reads before [c] after) (hBlank : isBlank c = true)
    (hFeed : c ≠ '\n') : s = s.finish (Element.read c after).1 := by
  have hText : (Element.blank c).text = [c] ++ [] := rfl
  have hCross : s.forward 0 = s.cross (.blank c) :=
    h.forward_eq_cross hText (by simp [Element.text, lineFeeds_cons, hFeed])
  rw [Element.read_blank hBlank, ← cross_eq_finish rfl rfl, ← hCross]
  rfl

theorem nextLine_eq (h : s.Reads before ['\n'] after) :
    s.nextLine = s.finish (Element.read '\n' after).1 := by
  rw [Element.read_blank rfl, ← cross_eq_finish rfl rfl]
  simp [nextLine, cross, Element.endLine, Element.text, h.start_eq, h.stands.current_eq,
    lineFeeds_cons]

theorem report_eq {c : Char} (h : s.Reads before [c] after) (hSign : Element.isSign c = true)
    (hNone : ∀ p : Punctuator, p.characters.head? ≠ some c) :
    s.report (.unexpectedCharacter s.line c) = s.finish (Element.read c after).1 := by
  have hSlash : c ≠ '/' := fun hc => hNone .slash (hc ▸ rfl)
  have hFeed : c ≠ '\n' := by
    rintro rfl
    exact absurd hSign (by decide)
  have hText : (Element.stray c).text = [c] ++ [] := rfl
  have hCross : s.forward 0 = s.cross (.stray c) :=
    h.forward_eq_cross hText (by simp [Element.text, lineFeeds_cons, hFeed])
  rw [Element.read_sign hSign (absurd · hSlash), Element.readPunctuator,
    Punctuator.read?_none hNone, finish, ← hCross]
  rfl

/-- Whatever the first character of an element is, the pass goes on to the end of the element. -/
theorem dispatch_eq {c : Char} (h : s.Reads before [c] after) :
    s.dispatch c = s.finish (Element.read c after).1 := by
  unfold dispatch opening
  split
  case h_11 | h_12 | h_13 | h_14 => exact h.addEither_eq rfl rfl rfl (by decide)
  case h_15 => exact h.slash_eq
  case h_16 | h_17 | h_18 => exact h.add_blank_eq rfl (by decide)
  case h_19 => exact h.nextLine_eq
  case h_20 => exact h.string_eq
  case h_21 =>
    split_ifs with hDigit hWord
    · rw [Element.read_digit hDigit]
      exact h.number_eq hDigit
    · rw [Element.read_letter hWord]
      exact h.word_eq hWord
    · refine h.report_eq ?_ fun p hp => ?_
      · have hBlank : ¬isBlank c = true := fun hBlank => by
          obtain rfl | rfl | rfl | rfl := isBlank_iff.1 hBlank <;> exact absurd rfl ‹_›
        have hQuote : c ≠ '"' := ‹_›
        simp [Element.isSign, hBlank, hQuote, hDigit, hWord]
      · cases p <;> exact absurd (Option.some.inj hp).symm ‹_›
  all_goals exact h.add_single_eq rfl rfl (by decide) (by decide)

end Reads

/-! ## Steps and runs -/

namespace Stands

variable {s : Pass σ} {before after : List Char}

/-- One step reads one element. -/
theorem beginLexeme_step {c : Char} {cs : List Char} (h : s.Stands before (c :: cs)) :
    s.beginLexeme.step = s.beginLexeme.finish (Element.read c cs).1 := by
  have hBegin : s.beginLexeme.Stands before (c :: cs) := ⟨h.source_eq, h.current_eq⟩
  have hReads : s.beginLexeme.advance.Reads before [c] cs :=
    ⟨hBegin.advance, by rw [hBegin.advance_eq]; exact h.current_eq⟩
  rw [step, hBegin.peek?_eq]
  dsimp only [List.head?_cons]
  rw [hReads.dispatch_eq, hBegin.advance_eq]
  rfl

/-- A run reads the elements of the text one after the other. -/
theorem run_eq (h : s.Stands before after) :
    s.run = (Element.elements after).foldl (fun s e => s.beginLexeme.finish e) s := by
  fun_induction Element.elements after generalizing s before with
  | case1 => exact run_of_none h.peek?_eq
  | case2 c cs ih =>
    have hSplit := Element.text_append_rest_read c cs
    have hBegin : s.beginLexeme.Stands before (c :: cs) := ⟨h.source_eq, h.current_eq⟩
    rw [run_of_some h.peek?_eq, h.beginLexeme_step, List.foldl_cons]
    exact ih ((hSplit.symm ▸ hBegin).finish rfl)

end Stands

/-- What the elements of a text amount to, when a pass reads them from the given line on. -/
theorem foldl_finish (es : List Element) (offset : Nat) (s : Pass σ) :
    let behind := es.foldl (fun s e => s.beginLexeme.finish e) s
    behind.tokens.toList =
        s.tokens.toList ++ (Placed.place s.line offset es).filterMap Placed.token? ∧
      behind.line = s.line + lineFeeds (Element.texts es) ∧
      behind.sink = Sink.receiveAll ((Placed.place s.line offset es).filterMap Placed.error?)
        s.sink := by
  induction es generalizing offset s with
  | nil => simp
  | cons e es ih =>
    obtain ⟨hTokens, hLine, hSink⟩ := ih (offset + byteLength e.text) (s.beginLexeme.finish e)
    have hNext : (s.beginLexeme.finish e).line = e.endLine s.line := rfl
    dsimp only [List.foldl_cons] at *
    refine ⟨?_, ?_, ?_⟩
    · rw [hTokens, hNext, Placed.place_cons]
      cases hToken : e.token? s.line <;>
        simp [finish, beginLexeme, Placed.token?, hToken]
    · rw [hLine, hNext]
      simp [Element.endLine, Nat.add_assoc]
    · rw [hSink, hNext, Placed.place_cons]
      cases hError : e.error? s.line <;>
        simp [finish, beginLexeme, Placed.error?, hError]

end Pass

/-! ## Scans -/

/-- Whatever the sink is, the tokens are those of the elements of the text, and the sink is handed
the errors of these elements in their order. -/
theorem Sink.scan_eq {σ : Type} [Sink σ] (source : String) (sink : σ) :
    Sink.scan source sink =
      ((Scan.ofText source.toList).stream,
        Sink.receiveAll (Scan.ofText source.toList).errors sink) := by
  have hRun := (Pass.Stands.ofSource source sink).run_eq
  obtain ⟨hTokens, hLine, hSink⟩ :=
    Pass.foldl_finish (Element.elements source.toList) 0 (Pass.ofSource source sink)
  rw [← hRun] at hTokens hLine hSink
  rw [Element.texts_elements] at hLine
  simp only [Sink.scan, Pass.stream, hTokens, hLine, hSink]
  rfl

/-- A scan finds what the elements of the text amount to. -/
theorem Scan.ofSource_eq (source : String) : Scan.ofSource source = Scan.ofText source.toList := by
  have hScan := Sink.scan_eq source ({} : ErrorLog)
  have hStream := congrArg Prod.fst hScan
  have hSink := congrArg (ErrorLog.errors ∘ Prod.snd) hScan
  simp only [Function.comp_apply, ErrorLog.receiveAll_errors, List.nil_append] at hSink
  simp only [Sink.scan] at hStream hSink
  simp only [Scan.ofSource, hStream, hSink]

end LoxLexer
