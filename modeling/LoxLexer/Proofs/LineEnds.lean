import LoxLexer.Proofs.LineBreak
import LoxLexer.Proofs.LineTable
import LoxLexer.Report.Excerpt

/-!
# How lines end

A line ends in a line feed, which may have a carriage return in front of it. Which of the two it is
does not matter. Between elements the carriage return is a blank like the line feed. Inside a
comment it is a character like any other, and part of neither delimiter. Inside a string it is kept,
so only there it can be seen in a token. And when a file gives out a line it drops the one that ends
it.

The elements of a text with short line ends are therefore those of the text itself, with the same
carriage returns taken out. A blank may vanish in this way, but then a line feed comes behind it,
and what stops in front of the one stops in front of the other.

## Main definitions

* `Text.shortenLineEnds`, `Text.lengthenLineEnds`: a text whose lines end in the one way or the other.
* `Element.shortened`: what is left of a sequence of elements when its line ends are shortened.

## Main results

* `Element.Settled.shortened`: the elements of a text with short line ends.
* `Text.map_dropCarriageReturn_splitOn_lengthenLineEnds`: the lines of a text with long line ends.
* `SourceFile.line_ends_do_not_matter`: tokens, errors, lines and reports with the other line ends.
-/

namespace LoxLexer

open Text

/-! ## Texts -/

namespace Text

/-- The text with a line feed in place of each carriage return and line feed. -/
def shortenLineEnds : List Char → List Char
  | '\r' :: '\n' :: cs => '\n' :: shortenLineEnds cs
  | c :: cs => c :: shortenLineEnds cs
  | [] => []

/-- The text with a carriage return and a line feed in place of each line feed. -/
def lengthenLineEnds (cs : List Char) : List Char :=
  cs.flatMap fun c => if c = '\n' then ['\r', '\n'] else [c]

@[simp] theorem shortenLineEnds_nil : shortenLineEnds [] = [] := rfl

/-- A carriage return in front of a line feed is dropped, and nothing else. -/
theorem shortenLineEnds_cons (c : Char) (cs : List Char) :
    shortenLineEnds (c :: cs) =
      if c = '\r' ∧ cs.head? = some '\n' then shortenLineEnds cs else c :: shortenLineEnds cs := by
  split
  · rename_i h
    obtain ⟨rfl, hFeed⟩ := h
    obtain ⟨ds, rfl⟩ := List.head?_eq_some_iff.1 hFeed
    rfl
  · rename_i h
    rw [shortenLineEnds]
    rintro ds rfl rfl
    exact h ⟨rfl, rfl⟩

theorem shortenLineEnds_cons_of_ne {c : Char} (h : c ≠ '\r') (cs : List Char) :
    shortenLineEnds (c :: cs) = c :: shortenLineEnds cs := by
  rw [shortenLineEnds_cons, if_neg fun hBoth => h hBoth.1]

theorem shortenLineEnds_lineFeed (cs : List Char) :
    shortenLineEnds ('\n' :: cs) = '\n' :: shortenLineEnds cs :=
  shortenLineEnds_cons_of_ne (by decide) cs

/-- A text can be shortened in two parts if these do not meet inside a line end. -/
theorem shortenLineEnds_append {xs ys : List Char}
    (h : xs.getLast? = some '\r' → ys.head? ≠ some '\n') :
    shortenLineEnds (xs ++ ys) = shortenLineEnds xs ++ shortenLineEnds ys := by
  induction xs with
  | nil => rfl
  | cons c xs ih =>
    rw [List.cons_append, shortenLineEnds_cons, shortenLineEnds_cons]
    rcases xs with _ | ⟨d, xs⟩
    · by_cases hReturn : c = '\r'
      · have hFeed : ys.head? ≠ some '\n' := h (by rw [hReturn]; rfl)
        simp [hFeed]
      · simp [hReturn]
    · have hTail := ih fun hLast => h (by rwa [List.getLast?_cons_cons])
      have hHead : (d :: xs ++ ys).head? = (d :: xs).head? := rfl
      rw [hTail, hHead]
      split
      · rfl
      · rfl

/-- Any character that is not part of a line end divides a text. -/
theorem shortenLineEnds_append_cons {d : Char} (hReturn : d ≠ '\r') (hFeed : d ≠ '\n')
    (xs ys : List Char) :
    shortenLineEnds (xs ++ d :: ys) = shortenLineEnds xs ++ d :: shortenLineEnds ys := by
  rw [shortenLineEnds_append fun _ => by simpa using hFeed, shortenLineEnds_cons_of_ne hReturn]

/-- A text without carriage returns has short line ends already. -/
theorem shortenLineEnds_of_not_mem {cs : List Char} (h : '\r' ∉ cs) : shortenLineEnds cs = cs := by
  induction cs with
  | nil => rfl
  | cons c cs ih =>
    rw [List.mem_cons, not_or] at h
    rw [shortenLineEnds_cons_of_ne (Ne.symm h.1), ih h.2]

theorem shortenLineEnds_append_of_not_mem {xs : List Char} (h : '\r' ∉ xs) (ys : List Char) :
    shortenLineEnds (xs ++ ys) = xs ++ shortenLineEnds ys := by
  have hLast : xs.getLast? ≠ some '\r' := fun hLast => h (List.mem_of_getLast? hLast)
  rw [shortenLineEnds_append (absurd · hLast), shortenLineEnds_of_not_mem h]

/-- A text of one line has no line end. -/
theorem shortenLineEnds_of_oneLine {cs : List Char} (h : '\n' ∉ cs) : shortenLineEnds cs = cs := by
  induction cs with
  | nil => rfl
  | cons c cs ih =>
    rw [List.mem_cons, not_or] at h
    have hFeed : cs.head? ≠ some '\n' := fun hHead => h.2 (List.mem_of_head? hHead)
    rw [shortenLineEnds_cons, if_neg fun hBoth => hFeed hBoth.2, ih h.2]

/-- A line loses the carriage return at its end, and only that. -/
theorem shortenLineEnds_line {line : List Char} (h : '\n' ∉ line) (cs : List Char) :
    shortenLineEnds (line ++ '\n' :: cs) =
      dropCarriageReturn line ++ shortenLineEnds ('\n' :: cs) := by
  by_cases hLast : line.getLast? = some '\r'
  · obtain ⟨xs, rfl⟩ := List.getLast?_eq_some_iff.1 hLast
    have hFront : '\n' ∉ xs := fun hMem => h (List.mem_append_left _ hMem)
    have hDrop : dropCarriageReturn (xs ++ ['\r']) = xs := by
      rw [dropCarriageReturn, if_pos hLast, List.dropLast_concat]
    have hEnd : shortenLineEnds ('\r' :: '\n' :: cs) = shortenLineEnds ('\n' :: cs) := rfl
    rw [hDrop, List.append_assoc, List.singleton_append,
      shortenLineEnds_append fun _ => by simp, hEnd, shortenLineEnds_of_oneLine hFront]
  · rw [shortenLineEnds_append (absurd · hLast), shortenLineEnds_of_oneLine h,
      dropCarriageReturn_of_getLast? hLast]

theorem lineFeeds_shortenLineEnds (cs : List Char) :
    lineFeeds (shortenLineEnds cs) = lineFeeds cs := by
  induction cs with
  | nil => rfl
  | cons c cs ih =>
    rw [shortenLineEnds_cons]
    split
    · rename_i h
      rw [ih, lineFeeds_cons, h.1]
      rfl
    · rw [lineFeeds_cons, lineFeeds_cons, ih]

/-- Nothing is put in front of a text, so what it begins with now it began with before, or it is a
line feed. -/
theorem head?_of_head?_shortenLineEnds {c : Char} {cs : List Char}
    (h : (shortenLineEnds cs).head? = some c) (hFeed : c ≠ '\n') : cs.head? = some c := by
  rcases cs with _ | ⟨d, cs⟩
  · simp at h
  rw [shortenLineEnds_cons] at h
  split at h
  · rename_i hBoth
    obtain ⟨ds, rfl⟩ := List.head?_eq_some_iff.1 hBoth.2
    rw [shortenLineEnds_lineFeed] at h
    exact absurd (Option.some.inj h).symm hFeed
  · exact h

/-- With short line ends a text looks as before. -/
theorem looksLike_shortenLineEnds (cs : List Char) :
    Element.LooksLike cs (shortenLineEnds cs) := by
  have hFirst (ds : List Char) (hFeed : ds.head? = some '\n') :
      (shortenLineEnds ds).head?.all isBlank = true := by
    obtain ⟨es, rfl⟩ := List.head?_eq_some_iff.1 hFeed
    rw [shortenLineEnds_lineFeed]
    rfl
  rcases cs with _ | ⟨c, cs⟩
  · exact .first rfl
  rw [shortenLineEnds_cons]
  split
  · rename_i h
    exact .first (hFirst cs h.2)
  rcases cs with _ | ⟨d, cs⟩
  · exact .second rfl
  rw [shortenLineEnds_cons]
  split
  · rename_i h
    exact .second (hFirst cs h.2)
  · exact .both

end Text

/-! ## Elements -/

namespace Element

/-- Text that nests still does so with short line ends. -/
theorem nesting_shortenLineEnds {m n : Nat} {cs : List Char} (h : Nesting m cs n) :
    Nesting m (shortenLineEnds cs) n := by
  induction h with
  | stop => exact .stop
  | @opening m n cs tail ih =>
    rw [shortenLineEnds_cons_of_ne (by decide), shortenLineEnds_cons_of_ne (by decide)]
    exact .opening ih
  | @closing m n cs tail ih =>
    rw [shortenLineEnds_cons_of_ne (by decide), shortenLineEnds_cons_of_ne (by decide)]
    exact .closing ih
  | @character m n c cs notOpening notClosing tail ih =>
    rw [shortenLineEnds_cons]
    split
    · exact ih
    -- The second character of a pair is no line feed, so it stood there before.
    have hPair {d e : Char} (hFeed : e ≠ '\n') (hNot : ∀ ds, c :: cs ≠ d :: e :: ds) :
        ∀ ds, c :: shortenLineEnds cs ≠ d :: e :: ds := by
      intro ds hPair
      obtain ⟨rfl, hTail⟩ := List.cons.inj hPair
      obtain ⟨es, rfl⟩ := List.head?_eq_some_iff.1
        (head?_of_head?_shortenLineEnds (by rw [hTail]; rfl) hFeed)
      exact hNot es rfl
    exact .character (hPair (by decide) notOpening) (hPair (by decide) notClosing) ih

/-- What is left of an element in front of the text `rest` when line ends are shortened. A blank may
be part of a line end, and a line comment may end in a part of one. -/
def shortenedBefore (rest : List Char) : Element → List Element
  | blank c => if c = '\r' ∧ rest.head? = some '\n' then [] else [blank c]
  | lineComment body =>
    [lineComment (if rest.head? = some '\n' then dropCarriageReturn body else body)]
  | blockComment body => [blockComment (shortenLineEnds body)]
  | openComment body depth => [openComment (shortenLineEnds body) depth]
  | string body => [string (shortenLineEnds body)]
  | openString body => [openString (shortenLineEnds body)]
  | e => [e]

/-- What is left of a sequence of elements when line ends are shortened. -/
def shortened : List Element → List Element
  | [] => []
  | e :: es => e.shortenedBefore (texts es) ++ shortened es

/-- There are carriage returns in blanks, comments and strings only. -/
theorem not_mem_text_number {whole fraction : List Char} (h : (number whole fraction).WellFormed) :
    '\r' ∉ (number whole fraction).text := by
  have hWhole : '\r' ∉ whole := fun hMem => absurd (h.2.1 _ hMem) (by decide)
  have hFraction : '\r' ∉ fraction := fun hMem => absurd (h.2.2 _ hMem) (by decide)
  rw [text, numberText, List.mem_append, not_or]
  refine ⟨hWhole, ?_⟩
  split
  · exact List.not_mem_nil
  · simpa using hFraction

theorem not_mem_text_word {letters : List Char} (h : (word letters).WellFormed) :
    '\r' ∉ (word letters).text := fun hMem => absurd (h.2 _ hMem) (by decide)

theorem not_mem_text_punctuator (p : Punctuator) : '\r' ∉ (punctuator p).text := by
  cases p <;> decide

theorem not_mem_text_stray {c : Char} (h : (stray c).WellFormed) : '\r' ∉ (stray c).text := by
  intro hMem
  obtain rfl := List.mem_singleton.1 hMem
  exact absurd h.1 (by decide)

/-- The texts of what is left make up the text with short line ends. -/
theorem texts_shortenedBefore {e : Element} {rest : List Char} (h : e.WellFormed)
    (hStops : e.stops rest = true) :
    texts (e.shortenedBefore rest) ++ shortenLineEnds rest = shortenLineEnds (e.text ++ rest) := by
  cases e with
  | blank c =>
    show _ = shortenLineEnds (c :: rest)
    rw [shortenLineEnds_cons, shortenedBefore]
    split
    · rfl
    · rfl
  | lineComment body =>
    show _ = shortenLineEnds ('/' :: '/' :: (body ++ rest))
    rw [shortenLineEnds_cons_of_ne (by decide), shortenLineEnds_cons_of_ne (by decide)]
    rcases rest with _ | ⟨c, rest⟩
    · rw [List.append_nil, shortenLineEnds_of_oneLine h]
      simp [shortenedBefore, text]
    · obtain rfl : c = '\n' := by simpa [stops] using hStops
      rw [shortenLineEnds_line h]
      simp [shortenedBefore, text]
  | blockComment body =>
    have hText : (blockComment body).text ++ rest = '/' :: '*' :: (body ++ '*' :: '/' :: rest) := by
      simp [text]
    rw [hText, shortenLineEnds_cons_of_ne (by decide), shortenLineEnds_cons_of_ne (by decide),
      shortenLineEnds_append_cons (by decide) (by decide), shortenLineEnds_cons_of_ne (by decide)]
    simp [shortenedBefore, text]
  | openComment body depth =>
    obtain rfl := List.isEmpty_iff.1 hStops
    show _ = shortenLineEnds ('/' :: '*' :: (body ++ []))
    rw [shortenLineEnds_cons_of_ne (by decide), shortenLineEnds_cons_of_ne (by decide)]
    simp [shortenedBefore, text]
  | string body =>
    have hText : (string body).text ++ rest = '"' :: (body ++ '"' :: rest) := by simp [text]
    rw [hText, shortenLineEnds_cons_of_ne (by decide),
      shortenLineEnds_append_cons (by decide) (by decide)]
    simp [shortenedBefore, text]
  | openString body =>
    obtain rfl := List.isEmpty_iff.1 hStops
    show _ = shortenLineEnds ('"' :: (body ++ []))
    rw [shortenLineEnds_cons_of_ne (by decide)]
    simp [shortenedBefore, text]
  | number whole fraction =>
    rw [shortenLineEnds_append_of_not_mem (not_mem_text_number h)]
    simp [shortenedBefore]
  | word letters =>
    rw [shortenLineEnds_append_of_not_mem (not_mem_text_word h)]
    simp [shortenedBefore]
  | punctuator p =>
    rw [shortenLineEnds_append_of_not_mem (not_mem_text_punctuator p)]
    simp [shortenedBefore]
  | stray c =>
    rw [shortenLineEnds_append_of_not_mem (not_mem_text_stray h)]
    simp [shortenedBefore]

theorem not_mem_shortenLineEnds {c : Char} {cs : List Char} (h : c ∉ cs) :
    c ∉ shortenLineEnds cs := by
  induction cs with
  | nil => exact h
  | cons d cs ih =>
    rw [List.mem_cons, not_or] at h
    rw [shortenLineEnds_cons]
    split
    · exact ih h.2
    · rw [List.mem_cons, not_or]
      exact ⟨h.1, ih h.2⟩

/-- What is left of an element is settled in front of what is left of the text behind it. -/
theorem settled_shortenedBefore {e : Element} {rest : List Char} (h : e.WellFormed)
    (hStops : e.stops rest = true) : Settled (shortenLineEnds rest) (e.shortenedBefore rest) := by
  have hLooks (f : Element) (hRuns : f.runsOn = false) (hSame : f.stops rest = true) :
      f.stops (texts [] ++ shortenLineEnds rest) = true :=
    stops_of_looksLike (looksLike_shortenLineEnds rest) hRuns hSame
  cases e with
  | blank c =>
    rw [shortenedBefore]
    split
    · exact .nil
    · exact .cons h rfl .nil
  | lineComment body =>
    refine .cons ?_ ?_ .nil
    · show '\n' ∉ _
      split
      · exact not_mem_dropCarriageReturn h
      · exact h
    · rcases rest with _ | ⟨c, rest⟩
      · rfl
      · obtain rfl : c = '\n' := by simpa [stops] using hStops
        rw [shortenLineEnds_lineFeed]
        rfl
  | blockComment body =>
    refine .cons ?_ rfl .nil
    have hClose : shortenLineEnds (body ++ ['*', '/']) = shortenLineEnds body ++ ['*', '/'] :=
      shortenLineEnds_append_cons (by decide) (by decide) body ['/']
    show Nesting 1 (shortenLineEnds body ++ ['*', '/']) 0
    rw [← hClose]
    exact nesting_shortenLineEnds h
  | openComment body depth =>
    obtain rfl := List.isEmpty_iff.1 hStops
    exact .cons ⟨nesting_shortenLineEnds h.1, h.2⟩ rfl .nil
  | string body => exact .cons (not_mem_shortenLineEnds h) rfl .nil
  | openString body =>
    obtain rfl := List.isEmpty_iff.1 hStops
    exact .cons (not_mem_shortenLineEnds h) rfl .nil
  | number whole fraction => exact .cons h (hLooks _ rfl hStops) .nil
  | word letters => exact .cons h (hLooks _ rfl hStops) .nil
  | punctuator p => exact .cons h (hLooks _ rfl hStops) .nil
  | stray c => exact .cons h rfl .nil

/-- What is left of the elements of a text are the elements of the text with short line ends. -/
theorem Settled.shortened {es : List Element} (h : Settled [] es) :
    Settled [] (shortened es) ∧ texts (Element.shortened es) = shortenLineEnds (texts es) := by
  induction h with
  | nil => exact ⟨.nil, rfl⟩
  | @cons e es wellFormed stops tail ih =>
    rw [List.append_nil] at stops
    constructor
    · rw [Element.shortened, append_iff, ih.2, List.append_nil]
      exact ⟨settled_shortenedBefore wellFormed stops, ih.1⟩
    · rw [Element.shortened, texts_append, ih.2, texts_cons,
        texts_shortenedBefore wellFormed stops]

theorem lineFeeds_shortenedBefore {e : Element} {rest : List Char} (h : e.WellFormed)
    (hStops : e.stops rest = true) :
    lineFeeds (texts (e.shortenedBefore rest)) = lineFeeds e.text := by
  have hText := congrArg lineFeeds (texts_shortenedBefore h hStops)
  simp only [lineFeeds_append, lineFeeds_shortenLineEnds] at hText
  omega

end Element

/-! ## What is found -/

/-- The literal with short line ends. -/
def Literal.shortenLineEnds : Literal → Literal
  | string value => string (String.ofList (Text.shortenLineEnds value.toList))
  | number value => number value

/-- The token with short line ends in its lexeme and in its literal. -/
def Token.shortenLineEnds (t : Token) : Token :=
  { t with
    lexeme := String.ofList (Text.shortenLineEnds t.lexeme.toList)
    literal := t.literal.map Literal.shortenLineEnds }

namespace Element

/-- Where there is no carriage return, the token of an element has short line ends already. -/
theorem map_shortenLineEnds_token? {e : Element} (h : '\r' ∉ e.text) (line : Nat) :
    (e.token? line).map Token.shortenLineEnds = e.token? line := by
  cases hToken : e.token? line with
  | none => rfl
  | some t =>
    have hLexeme : String.ofList (Text.shortenLineEnds t.lexeme.toList) = t.lexeme := by
      rw [lexeme_of_token? hToken, String.toList_ofList, shortenLineEnds_of_not_mem h]
    have hLiteral : t.literal.map Literal.shortenLineEnds = t.literal := by
      cases e with
      | string body =>
        have hBody : '\r' ∉ body := fun hMem => h (by simp [text, hMem])
        rw [← Option.some.inj hToken]
        simp only [Option.map_some, Literal.shortenLineEnds, String.toList_ofList,
          shortenLineEnds_of_not_mem hBody]
      | punctuator _ | word _ | number _ _ =>
        rw [← Option.some.inj hToken]
        rfl
      | _ => exact absurd hToken (by simp [token?])
    rw [Option.map_some, Token.shortenLineEnds, hLexeme, hLiteral]

/-- What is left of an element has the token of the element, with short line ends. -/
theorem collect_token?_shortenedBefore {e : Element} (h : e.WellFormed) (rest : List Char)
    (line : Nat) :
    collect token? line (e.shortenedBefore rest) =
      ((e.token? line).map Token.shortenLineEnds).toList := by
  cases e with
  | blank c =>
    rw [shortenedBefore]
    split
    · rfl
    · rfl
  | string body =>
    have hLexeme : Text.shortenLineEnds ('"' :: (body ++ ['"'])) =
        '"' :: (Text.shortenLineEnds body ++ ['"']) := by
      rw [shortenLineEnds_cons_of_ne (by decide), shortenLineEnds_append_cons (by decide) (by decide),
        shortenLineEnds_nil]
    simp [shortenedBefore, collect, token?, Token.shortenLineEnds, Literal.shortenLineEnds, text,
      hLexeme]
  | number whole fraction =>
    rw [map_shortenLineEnds_token? (not_mem_text_number h)]
    rfl
  | word letters =>
    rw [map_shortenLineEnds_token? (not_mem_text_word h)]
    rfl
  | punctuator p =>
    rw [map_shortenLineEnds_token? (not_mem_text_punctuator p)]
    rfl
  | _ => rfl

/-- What is left of an element has the same error. -/
theorem collect_error?_shortenedBefore (e : Element) (rest : List Char) (line : Nat) :
    collect error? line (e.shortenedBefore rest) = (e.error? line).toList := by
  cases e with
  | blank c =>
    rw [shortenedBefore]
    split
    · rfl
    · rfl
  | openComment body depth =>
    simp [shortenedBefore, collect, error?, endLine, text, lineFeeds_cons,
      lineFeeds_shortenLineEnds]
  | openString body =>
    simp [shortenedBefore, collect, error?, endLine, text, lineFeeds_cons,
      lineFeeds_shortenLineEnds]
  | _ => rfl

/-- What is found in the elements of a text is found in what is left of them. -/
theorem Settled.collect_shortened {α : Type} {find : Nat → Element → Option α} {f : α → α}
    {es : List Element} (h : Settled [] es)
    (hFind : ∀ (e : Element) (rest : List Char) (line : Nat), e.WellFormed →
      collect find line (e.shortenedBefore rest) = ((find line e).map f).toList) (line : Nat) :
    collect find line (Element.shortened es) = (collect find line es).map f := by
  induction h generalizing line with
  | nil => rfl
  | @cons e es wellFormed stops tail ih =>
    rw [List.append_nil] at stops
    rw [Element.shortened, collect_append, hFind e _ line wellFormed,
      lineFeeds_shortenedBefore wellFormed stops, ← endLine, ih, collect, List.map_append]
    cases find line e with
    | none => rfl
    | some x => rfl

end Element

namespace Scan

/-- With short line ends a text has the same tokens, and these have short line ends, and what is
wrong with it is the same. -/
theorem ofSource_shortenLineEnds (source : String) :
    (ofSource (String.ofList (shortenLineEnds source.toList))).stream.toList =
        (ofSource source).stream.toList.map Token.shortenLineEnds ∧
      (ofSource (String.ofList (shortenLineEnds source.toList))).errors =
        (ofSource source).errors := by
  obtain ⟨es, hSettled, hText, hScan⟩ := exists_settled source
  obtain ⟨hShort, hShortText⟩ := hSettled.shortened
  have hShortSource : Element.texts (Element.shortened es) =
      (String.ofList (shortenLineEnds source.toList)).toList := by
    rw [hShortText, hText, String.toList_ofList]
  have hShortScan := ofSource_of_settled hShort hShortSource
  have hTokens := hSettled.collect_shortened
    (fun e rest line h => Element.collect_token?_shortenedBefore h rest line) 1
  have hError : ∀ (e : Element) (rest : List Char) (line : Nat), e.WellFormed →
      Element.collect Element.error? line (e.shortenedBefore rest) =
        ((e.error? line).map id).toList := by
    intro e rest line _
    rw [Element.collect_error?_shortenedBefore, Option.map_id, id]
  have hErrors := hSettled.collect_shortened hError 1
  rw [hShortScan, hScan]
  simp only [ofElements_eq, TokenStream.toList, hTokens, hErrors, List.map_id, and_true,
    List.map_append, hShortText, lineFeeds_shortenLineEnds]
  rfl

end Scan

/-! ## Lines -/

namespace Text

theorem lengthenLineEnds_cons (c : Char) (cs : List Char) :
    lengthenLineEnds (c :: cs) =
      if c = '\n' then '\r' :: '\n' :: lengthenLineEnds cs else c :: lengthenLineEnds cs := by
  rw [lengthenLineEnds, List.flatMap_cons]
  split
  · rfl
  · rfl

theorem lineFeeds_lengthenLineEnds (cs : List Char) :
    lineFeeds (lengthenLineEnds cs) = lineFeeds cs := by
  induction cs with
  | nil => rfl
  | cons c cs ih =>
    rw [lengthenLineEnds_cons]
    split
    · rename_i hFeed
      simp [lineFeeds_cons, ih, hFeed]
    · rw [lineFeeds_cons, lineFeeds_cons, ih]

/-- A text that had short line ends has them again when they are made long and then short. -/
theorem shortenLineEnds_lengthenLineEnds {cs : List Char} (h : '\r' ∉ cs) :
    shortenLineEnds (lengthenLineEnds cs) = cs := by
  induction cs with
  | nil => rfl
  | cons c cs ih =>
    rw [List.mem_cons, not_or] at h
    rw [lengthenLineEnds_cons]
    split
    · rename_i hFeed
      subst hFeed
      rw [shortenLineEnds, ih h.2]
    · rw [shortenLineEnds_cons_of_ne (Ne.symm h.1), ih h.2]

theorem dropCarriageReturn_cons {c : Char} (h : c ≠ '\r') (cs : List Char) :
    dropCarriageReturn (c :: cs) = c :: dropCarriageReturn cs := by
  rcases cs with _ | ⟨d, cs⟩
  · exact dropCarriageReturn_of_getLast? (by simpa using h)
  · exact dropCarriageReturn_append (List.cons_ne_nil d cs) [c]

/-- The lines of a text are the same when it has long line ends, but for the carriage returns that
end them. -/
theorem map_dropCarriageReturn_splitOn_lengthenLineEnds {cs : List Char} (h : '\r' ∉ cs) :
    ((lengthenLineEnds cs).splitOn '\n').map dropCarriageReturn =
      (cs.splitOn '\n').map dropCarriageReturn := by
  have hCons (c : Char) (hReturn : c ≠ '\r') (lines : List (List Char)) :
      (lines.modifyHead (List.cons c)).map dropCarriageReturn =
        (lines.map dropCarriageReturn).modifyHead (List.cons c) := by
    rcases lines with _ | ⟨line, lines⟩
    · rfl
    · simp [dropCarriageReturn_cons hReturn]
  induction cs with
  | nil => rfl
  | cons c cs ih =>
    rw [List.mem_cons, not_or] at h
    have hBehind := ih h.2
    rw [lengthenLineEnds_cons, List.splitOn_cons_eq_if_modifyHead c cs]
    by_cases hFeed : c = '\n'
    · subst hFeed
      have hReturn : ['\r'].splitOn '\n' = [['\r']] := rfl
      have hSplit : ('\r' :: '\n' :: lengthenLineEnds cs).splitOn '\n' =
          ['\r'] :: (lengthenLineEnds cs).splitOn '\n' := by
        rw [← List.singleton_append, List.splitOn_append_cons_self, hReturn, List.singleton_append]
      rw [if_pos rfl, if_pos (beq_self_eq_true '\n'), hSplit, List.map_cons, hBehind]
      rfl
    · rw [if_neg hFeed, if_neg (by simpa using hFeed), List.splitOn_cons_eq_if_modifyHead,
        if_neg (by simpa using hFeed), hCons c (Ne.symm h.1), hCons c (Ne.symm h.1), hBehind]

end Text

namespace SourceFile

/-- A file with long line ends in place of short ones gives out the same lines. -/
theorem line?_lengthenLineEnds {file long : SourceFile}
    (hLong : long.content = String.ofList (lengthenLineEnds file.content.toList))
    (h : '\r' ∉ file.content.toList) (n : Nat) : long.line? n = file.line? n := by
  rcases n with _ | n
  · rfl
  · rw [line?_succ, line?_succ, hLong, String.toList_ofList,
      map_dropCarriageReturn_splitOn_lengthenLineEnds h]

/-- A report depends on the path of a file and on the lines that it gives out. -/
theorem render_eq_of_line?_eq {file other : SourceFile} (hPath : other.path = file.path)
    (hLines : ∀ n, other.line? n = file.line? n) (d : Diagnostic) :
    Report.render other d = Report.render file d := by
  simp only [Report.render, Report.excerpt, Report.excerptRows, hLines, Report.locationRow, hPath]

/-- It does not matter how lines end. With short line ends in place of long ones, a text has the
same tokens on the same lines, in whose lexemes and literals line ends are short as well, and the
same errors. Where all line ends were short, a file with long ones in their place has the same lines
and shows the same reports, also on its own errors. -/
theorem line_ends_do_not_matter :
    (∀ source : String,
      (Scan.ofSource (String.ofList (shortenLineEnds source.toList))).stream.toList =
          (Scan.ofSource source).stream.toList.map Token.shortenLineEnds ∧
        (Scan.ofSource (String.ofList (shortenLineEnds source.toList))).errors =
          (Scan.ofSource source).errors) ∧
      ∀ path source : String, '\r' ∉ source.toList →
        let short : SourceFile := ⟨path, source⟩
        let long : SourceFile := ⟨path, String.ofList (lengthenLineEnds source.toList)⟩
        long.lineCount = short.lineCount ∧
          (∀ n, long.line? n = short.line? n) ∧
          (∀ d, Report.render long d = Report.render short d) ∧
          (long.scan.errors.map fun error => Report.render long error.toDiagnostic) =
            short.scan.errors.map fun error => Report.render short error.toDiagnostic := by
  refine ⟨Scan.ofSource_shortenLineEnds, ?_⟩
  intro path source hReturn short long
  have hLines : ∀ n, long.line? n = short.line? n := line?_lengthenLineEnds rfl hReturn
  have hRender : ∀ d, Report.render long d = Report.render short d :=
    render_eq_of_line?_eq rfl hLines
  have hContent : String.ofList (shortenLineEnds long.content.toList) = source := by
    rw [String.toList_ofList, shortenLineEnds_lengthenLineEnds hReturn, String.ofList_toList]
  have hErrors : long.scan.errors = short.scan.errors := by
    have hShort := (Scan.ofSource_shortenLineEnds long.content).2
    rw [hContent] at hShort
    exact hShort.symm
  refine ⟨?_, hLines, hRender, ?_⟩
  · rw [lineCount_eq, lineCount_eq, String.toList_ofList, lineFeeds_lengthenLineEnds]
  · rw [hErrors]
    simp only [hRender]

/-- A string over two lines and a comment that is never closed. -/
theorem line_ends_do_not_matter_string_and_open_comment :
    '\r' ∉ "\"a\nb\" /*\n".toList ∧
      let short : SourceFile := ⟨"a.lox", "\"a\nb\" /*\n"⟩
      let long : SourceFile := ⟨"a.lox", "\"a\r\nb\" /*\r\n"⟩
      long.lineCount = short.lineCount ∧
        (∀ n, long.line? n = short.line? n) ∧
        (∀ d, Report.render long d = Report.render short d) ∧
        (long.scan.errors.map fun error => Report.render long error.toDiagnostic) =
          short.scan.errors.map fun error => Report.render short error.toDiagnostic := by
  have hReturn : '\r' ∉ "\"a\nb\" /*\n".toList := by decide
  exact ⟨hReturn, line_ends_do_not_matter.2 "a.lox" "\"a\nb\" /*\n" hReturn⟩

end SourceFile

end LoxLexer
