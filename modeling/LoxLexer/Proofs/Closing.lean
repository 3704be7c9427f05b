import LoxLexer.Proofs.OpenElement

/-!
# Closing what was left open

What a text leaves open reaches to its end, so that text which is appended goes on with it. The
elements in front do not notice: they have seen where it begins, and look no further. A string goes
on up to the quote that closes it and holds all that was read in the meantime. A block comment
counts: as many delimiters close it as were reported missing, and each of them closes one of the
comments that are open, as long as it is not mistaken for the second half of another delimiter.

## Main results

* `Element.stops_append_cons`: how far an element looks ahead.
* `Element.Nesting.append`: two texts in a comment, one behind the other.
* `Scan.ofSource_comment`, `Scan.ofSource_string`: the scan of a text that ends in a comment, closed
  or not, or in a string.
* `Scan.ofSource_append_closers`: the reported depth is the number of delimiters that are missing.
* `Scan.ofSource_append_quote`: a quote makes a string of what was left open.
-/

namespace LoxLexer

open Text

/-- So many closing delimiters of block comments, with nothing between them. -/
def Text.closers (count : Nat) : String := String.join (List.replicate count "*/")

theorem Text.toList_closers_succ (count : Nat) :
    (closers (count + 1)).toList = '*' :: '/' :: (closers count).toList := by
  simp [closers, List.replicate_succ]

theorem Text.lineFeeds_closers (count : Nat) : lineFeeds (closers count).toList = 0 := by
  induction count with
  | zero => rfl
  | succ count ih => simp [toList_closers_succ, lineFeeds_cons, ih]

/-- Closing delimiters begin with a star, if there are any. -/
theorem Text.head?_closers_ne {c : Char} (hStar : c ≠ '*') (count : Nat) :
    (closers count).toList.head? ≠ some c := by
  cases count with
  | zero => simp [closers]
  | succ count =>
    rw [toList_closers_succ, List.head?_cons]
    intro hHead
    exact hStar (Option.some.inj hHead).symm

/-- What is reported of a text that ends on the given line, when it ends inside so many comments. -/
def LexicalError.ofOpenDepth (line depth : Nat) : List LexicalError :=
  if depth = 0 then [] else [unterminatedBlockComment line depth]

namespace Element

/-! ## What stands in front -/

/-- An element looks at the second of the characters behind it only if the first is a point. So it
does not see how a text goes on that begins with any other character. -/
theorem stops_append_cons {c : Char} (hPoint : c ≠ '.') (e : Element) (cs xs ys : List Char) :
    e.stops (cs ++ c :: xs) = e.stops (cs ++ c :: ys) := by
  rcases cs with _ | ⟨d, _ | ⟨d', ds⟩⟩
  · cases e with
    | number whole fraction => simp [stops, beq_eq_false_iff_ne.2 hPoint]
    | _ => rfl
  · cases e <;> rfl
  · cases e <;> rfl

/-- The last element of a text ends on the line where the text ends. -/
theorem endLine_of_texts_append {before : List Element} {e : Element} {cs : List Char}
    (h : texts before ++ e.text = cs) (line : Nat) :
    e.endLine (line + lineFeeds (texts before)) = line + lineFeeds cs := by
  rw [endLine, ← h, lineFeeds_append, Nat.add_assoc]

/-- What is settled in front of a text is settled in front of another that begins alike. -/
theorem Settled.exchange {c : Char} {xs : List Char} {es : List Element}
    (h : Settled (c :: xs) es) (hPoint : c ≠ '.') (ys : List Char) : Settled (c :: ys) es := by
  refine h.imp fun e _ cs hStops => ?_
  rwa [stops_append_cons hPoint e cs ys xs]

/-! ## Comments -/

/-- Two texts in a comment, one behind the other, nest as each of them does, when no delimiter lies
across the place where they meet. -/
theorem Nesting.append {m n depth : Nat} {cs ds : List Char} (h : Nesting m cs n)
    (hBehind : Nesting n ds depth) (hSlash : ds.head? ≠ some '/')
    (hStar : ds.head? = some '*' → cs.getLast? ≠ some '/') : Nesting m (cs ++ ds) depth := by
  have hInner {c : Char} {cs : List Char}
      (hStar : ds.head? = some '*' → (c :: cs).getLast? ≠ some '/') :
      ds.head? = some '*' → cs.getLast? ≠ some '/' := by
    intro hHead hLast
    exact hStar hHead (by rw [List.getLast?_cons, hLast]; rfl)
  induction h with
  | stop => exact hBehind
  | opening tail ih => exact .opening (ih hBehind (hInner (hInner hStar)))
  | closing tail ih => exact .closing (ih hBehind (hInner (hInner hStar)))
  | @character m n c cs notOpening notClosing tail ih =>
    refine .character ?_ ?_ (ih hBehind (hInner hStar))
    · intro es hPair
      rcases cs with _ | ⟨d, cs⟩
      · obtain ⟨rfl, rfl⟩ : c = '/' ∧ ds = '*' :: es := by simpa using hPair
        exact hStar rfl rfl
      · obtain ⟨rfl, rfl, -⟩ : c = '/' ∧ d = '*' ∧ cs ++ ds = es := by simpa using hPair
        exact notOpening cs rfl
    · intro es hPair
      rcases cs with _ | ⟨d, cs⟩
      · obtain ⟨rfl, rfl⟩ : c = '*' ∧ ds = '/' :: es := by simpa using hPair
        exact hSlash rfl
      · obtain ⟨rfl, rfl, -⟩ : c = '*' ∧ d = '/' ∧ cs ++ ds = es := by simpa using hPair
        exact notClosing cs rfl

/-- A character that is part of no delimiter leaves as many comments open. -/
theorem Nesting.cons {m n : Nat} {c : Char} {cs : List Char} (h : Nesting (m + 1) cs n)
    (hSlash : c ≠ '/') (hStar : c ≠ '*') : Nesting (m + 1) (c :: cs) n := by
  refine .character ?_ ?_ h
  · rintro ds hPair
    exact hSlash (List.cons.inj hPair).1
  · rintro ds hPair
    exact hStar (List.cons.inj hPair).1

/-- Each closing delimiter closes one comment. -/
theorem nesting_closers (count n : Nat) : Nesting (count + n) (closers count).toList n := by
  induction count with
  | zero =>
    rw [Nat.zero_add]
    exact .stop
  | succ count ih =>
    rw [toList_closers_succ, Nat.succ_add]
    exact .closing ih

/-- What stands behind the opening delimiter of a comment is read up to the end of the text, when
the comment is not closed before. -/
theorem read_comment_of_nesting {cs : List Char} {depth : Nat} (h : Nesting 1 cs depth) :
    ∃ e : Element, e.WellFormed ∧ e.stops [] = true ∧ e.text = '/' :: '*' :: cs ∧
      (∀ line, e.token? line = none) ∧
      ∀ line, (e.error? line).toList = LexicalError.ofOpenDepth (e.endLine line) depth := by
  obtain ⟨-, hDepth, hRest⟩ := readComment_of_nesting h [] fun _ => rfl
  rw [List.append_nil] at hDepth hRest
  have hText := text_append_rest_readBlockComment cs
  have hForm := wellFormed_readBlockComment cs
  simp only [readBlockComment, ofCommentTail, hDepth, hRest, List.append_nil] at hText hForm
  split at hText
  · rename_i hClosed
    rw [if_pos hClosed] at hForm
    refine ⟨_, hForm, rfl, hText, fun _ => rfl, fun line => ?_⟩
    rw [LexicalError.ofOpenDepth, if_pos hClosed]
    rfl
  · rename_i hOpen
    rw [if_neg hOpen] at hForm
    refine ⟨_, hForm, rfl, hText, fun _ => rfl, fun line => ?_⟩
    rw [LexicalError.ofOpenDepth, if_neg hOpen]
    rfl

end Element

namespace Scan

/-! ## The last element -/

/-- The scan of a text that ends in a comment, be it closed or not. -/
theorem ofSource_comment {source : String} {before : List Element} {cs : List Char} {depth : Nat}
    (hBefore : Element.Settled ('/' :: '*' :: cs) before) (hNesting : Element.Nesting 1 cs depth)
    (hText : Element.texts before ++ '/' :: '*' :: cs = source.toList) :
    ofSource source =
      ⟨⟨Element.collect Element.token? 1 before, 1 + lineFeeds source.toList⟩,
        Element.collect Element.error? 1 before ++
          LexicalError.ofOpenDepth (1 + lineFeeds source.toList) depth⟩ := by
  obtain ⟨e, hForm, hStops, hComment, hToken, hError⟩ := Element.read_comment_of_nesting hNesting
  rw [← hComment] at hBefore hText
  rw [ofSource_of_settled_concat hBefore hForm hStops hText, hToken, hError,
    Element.endLine_of_texts_append hText]
  simp

/-- The scan of a text that ends in a string. -/
theorem ofSource_string {source : String} {before : List Element} {body : String}
    (hBefore : Element.Settled ('"' :: body.toList ++ ['"']) before) (hBody : '"' ∉ body.toList)
    (hText : Element.texts before ++ ('"' :: body.toList ++ ['"']) = source.toList) :
    ofSource source =
      ⟨⟨Element.collect Element.token? 1 before ++
            [⟨.string, "\"" ++ body ++ "\"", some (.string body),
              1 + lineFeeds (Element.texts before)⟩],
          1 + lineFeeds source.toList⟩,
        Element.collect Element.error? 1 before⟩ := by
  have hLexeme : String.ofList ('"' :: body.toList ++ ['"']) = "\"" ++ body ++ "\"" := by
    apply String.ext
    simp
  rw [ofSource_of_settled_concat (e := .string body.toList) hBefore hBody rfl hText, ← hLexeme]
  simp [Element.token?, Element.error?, Element.text]

/-- The scan of a text that ends in a string that is left open. -/
theorem ofSource_openString {source : String} {before : List Element} {body : List Char}
    (hBefore : Element.Settled ('"' :: body) before) (hBody : '"' ∉ body)
    (hText : Element.texts before ++ '"' :: body = source.toList) :
    ofSource source =
      ⟨⟨Element.collect Element.token? 1 before, 1 + lineFeeds source.toList⟩,
        Element.collect Element.error? 1 before ++
          [.unterminatedString (1 + lineFeeds source.toList)]⟩ := by
  have hLine := Element.endLine_of_texts_append (e := .openString body) hText 1
  rw [ofSource_of_settled_concat (e := .openString body) hBefore hBody rfl hText]
  simp [Element.token?, Element.error?, hLine]

/-- What is reported as left open stands at the end of the text. -/
theorem exists_open_of_mem_errors {source : String} {error : LexicalError}
    (h : error ∈ (ofSource source).errors) (hUnterminated : error.isUnterminated = true) :
    ∃ (before : List Element) (e : Element), Element.Settled e.text before ∧ e.WellFormed ∧
      Element.texts before ++ e.text = source.toList ∧
      e.error? (1 + lineFeeds (Element.texts before)) = some error := by
  obtain ⟨es, hSettled, hText, hScan⟩ := exists_settled source
  rw [hScan, ofElements_eq] at h
  obtain ⟨before, e, after, rfl, hOpen, hError⟩ :=
    Element.exists_isOpen_of_mem_collect h hUnterminated
  obtain ⟨hBefore, hLast⟩ := Element.Settled.append_iff.1 hSettled
  obtain rfl := hLast.eq_nil_of_isOpen hOpen
  have hForm := (Element.Settled.cons_iff.1 hLast).1
  exact ⟨before, e, by simpa using hBefore, hForm, by simpa using hText, hError⟩

/-! ## Comments and strings that are closed -/

/-- The scan of a text that ends in an open comment, when more of the comment comes behind it. -/
theorem ofSource_append_inside {source behind : String} {before : List Element} {body : List Char}
    {openDepth depth : Nat} (hBefore : Element.Settled ('/' :: '*' :: body) before)
    (hBody : Element.Nesting 1 body openDepth)
    (hText : Element.texts before ++ '/' :: '*' :: body = source.toList)
    (hBehind : Element.Nesting openDepth behind.toList depth)
    (hSlash : behind.toList.head? ≠ some '/')
    (hStar : behind.toList.head? = some '*' → body.getLast? ≠ some '/') :
    ofSource (source ++ behind) =
      ⟨⟨Element.collect Element.token? 1 before,
          1 + lineFeeds source.toList + lineFeeds behind.toList⟩,
        Element.collect Element.error? 1 before ++
          LexicalError.ofOpenDepth (1 + lineFeeds source.toList + lineFeeds behind.toList)
            depth⟩ := by
  have hWhole :
      Element.texts before ++ '/' :: '*' :: (body ++ behind.toList) =
        (source ++ behind).toList := by
    rw [String.toList_append, ← hText, List.append_assoc]
    rfl
  have hNesting := hBody.append hBehind hSlash hStar
  rw [ofSource_comment (hBefore.exchange (by decide) _) hNesting hWhole, String.toList_append,
    lineFeeds_append, Nat.add_assoc]

/-- The depth that is reported of an open comment is the number of closing delimiters that are
missing, and the help asks for that many. As many of them as are appended are missing no longer, and
when all are there nothing is reported. They stand on a line of their own, or directly behind the
text, unless that ends in a slash, which would make an opening delimiter with the first star. -/
theorem ofSource_append_closers {source : String} {line openDepth : Nat}
    (h : .unterminatedBlockComment line openDepth ∈ (ofSource source).errors) :
    (LexicalError.unterminatedBlockComment line openDepth).help =
        some ("add " ++ toString openDepth ++ " `*/` to close the open comments") ∧
      ∃ others, (ofSource source).errors = others ++ [.unterminatedBlockComment line openDepth] ∧
        ∀ count ≤ openDepth,
          ofSource (source ++ "\n" ++ closers count) =
              ⟨⟨(ofSource source).stream.tokens, (ofSource source).stream.endLine + 1⟩,
                others ++ LexicalError.ofOpenDepth (line + 1) (openDepth - count)⟩ ∧
            (source.toList.getLast? ≠ some '/' →
              ofSource (source ++ closers count) =
                ⟨(ofSource source).stream,
                  others ++ LexicalError.ofOpenDepth line (openDepth - count)⟩) := by
  obtain ⟨before, e, hBefore, hForm, hText, hError⟩ := exists_open_of_mem_errors h rfl
  obtain ⟨body, rfl⟩ : ∃ body, e = .openComment body openDepth := by
    cases e <;> simp [Element.error?] at hError ⊢
    exact hError.2
  obtain rfl : 1 + lineFeeds source.toList = line := by
    simpa [Element.error?, Element.endLine_of_texts_append hText] using hError
  change Element.texts before ++ '/' :: '*' :: body = source.toList at hText
  have hScan := ofSource_comment hBefore hForm.1 hText
  rw [LexicalError.ofOpenDepth, if_neg hForm.2] at hScan
  refine ⟨rfl, _, by rw [hScan], ?_⟩
  intro count hCount
  have hClosers : Element.Nesting openDepth (closers count).toList (openDepth - count) := by
    simpa [Nat.add_sub_cancel' hCount] using
      Element.nesting_closers count (openDepth - count)
  constructor
  · have hFeed : Element.Nesting openDepth ("\n" ++ closers count).toList (openDepth - count) := by
      obtain ⟨outer, rfl⟩ := Nat.exists_eq_succ_of_ne_zero hForm.2
      rw [String.toList_append]
      simpa using hClosers.cons (by decide : '\n' ≠ '/') (by decide)
    rw [String.append_assoc, ofSource_append_inside hBefore hForm.1 hText hFeed (by simp) (by simp),
      hScan]
    simp [lineFeeds_cons, lineFeeds_closers]
  · intro hLast
    have hStar : (closers count).toList.head? = some '*' → body.getLast? ≠ some '/' := by
      intro _ hBody
      rw [← hText, List.getLast?_append, List.getLast?_cons, List.getLast?_cons, hBody] at hLast
      exact hLast rfl
    rw [ofSource_append_inside hBefore hForm.1 hText hClosers (head?_closers_ne (by decide) count)
      hStar, hScan]
    simp [lineFeeds_closers]

/-- A stray character, and a comment of two lines that lacks two closing delimiters and ends in a
star, which the first of them does not use. -/
theorem ofSource_append_closers_star :
    LexicalError.unterminatedBlockComment 2 2 ∈ (ofSource "a@/*\n/**").errors ∧
      (LexicalError.unterminatedBlockComment 2 2).help =
        some "add 2 `*/` to close the open comments" ∧
      ∃ others, (ofSource "a@/*\n/**").errors = others ++ [.unterminatedBlockComment 2 2] ∧
        ∀ count ≤ 2,
          ofSource ("a@/*\n/**" ++ "\n" ++ closers count) =
              ⟨⟨(ofSource "a@/*\n/**").stream.tokens, (ofSource "a@/*\n/**").stream.endLine + 1⟩,
                others ++ LexicalError.ofOpenDepth (2 + 1) (2 - count)⟩ ∧
            ("a@/*\n/**".toList.getLast? ≠ some '/' →
              ofSource ("a@/*\n/**" ++ closers count) =
                ⟨(ofSource "a@/*\n/**").stream,
                  others ++ LexicalError.ofOpenDepth 2 (2 - count)⟩) := by
  have hMem : LexicalError.unterminatedBlockComment 2 2 ∈ (ofSource "a@/*\n/**").errors := by
    decide +kernel
  exact ⟨hMem, ofSource_append_closers hMem⟩

/-- Behind a slash the first star opens another comment, and what closes it closes no more. -/
example :
    (ofSource "/*/").errors = [.unterminatedBlockComment 1 1] ∧
      (ofSource ("/*/" ++ closers 1)).errors = [.unterminatedBlockComment 1 2] := by
  decide +kernel

/-- A quote that comes behind an open string closes it, and behind any text without quotes it does.
The string holds all that stood behind the opening quote, character by character, and what came in
between. It stands on the line where it begins, and nothing else changes. -/
theorem ofSource_append_quote {source : String} {line : Nat}
    (h : .unterminatedString line ∈ (ofSource source).errors) :
    ∃ front body : String, source = front ++ "\"" ++ body ∧ '"' ∉ body.toList ∧
      ∀ more : String, '"' ∉ more.toList →
        (ofSource source).errors =
            (ofSource (source ++ more ++ "\"")).errors ++ [.unterminatedString line] ∧
          (ofSource (source ++ more ++ "\"")).stream.toList =
            (ofSource source).stream.tokens ++
              [⟨.string, "\"" ++ body ++ more ++ "\"", some (.string (body ++ more)),
                  1 + lineFeeds front.toList⟩,
                .endOfText ((ofSource source).stream.endToken.line + lineFeeds more.toList)] := by
  obtain ⟨before, e, hBefore, hForm, hText, hError⟩ := exists_open_of_mem_errors h rfl
  obtain ⟨body, rfl⟩ : ∃ body, e = .openString body := by
    cases e <;> simp [Element.error?] at hError ⊢
  obtain rfl : 1 + lineFeeds source.toList = line := by
    simpa [Element.error?, Element.endLine_of_texts_append hText] using hError
  change Element.texts before ++ '"' :: body = source.toList at hText
  have hBody : '"' ∉ body := hForm
  have hScan := ofSource_openString hBefore hBody hText
  refine ⟨String.ofList (Element.texts before), String.ofList body, ?_, by simpa using hBody,
    fun more hMore => ?_⟩
  · apply String.ext
    rw [← hText]
    simp
  have hWhole :
      Element.texts before ++ ('"' :: (String.ofList body ++ more).toList ++ ['"']) =
        (source ++ more ++ "\"").toList := by
    simp only [String.toList_append, ← hText]
    simp
  have hClosed := ofSource_string (hBefore.exchange (by decide) _)
    (by simpa using ⟨hBody, hMore⟩) hWhole
  rw [hClosed, hScan]
  constructor
  · rfl
  · simp [TokenStream.toList, TokenStream.endToken, Token.endOfText, lineFeeds_cons, Nat.add_assoc,
      String.append_assoc]

/-- A comment with a quote in it, and behind it an open string of two lines. -/
theorem ofSource_append_quote_twoLines :
    LexicalError.unterminatedString 3 ∈ (ofSource "//\"\n1\"é\n").errors ∧
      ∃ front body : String, "//\"\n1\"é\n" = front ++ "\"" ++ body ∧ '"' ∉ body.toList ∧
        ∀ more : String, '"' ∉ more.toList →
          (ofSource "//\"\n1\"é\n").errors =
              (ofSource ("//\"\n1\"é\n" ++ more ++ "\"")).errors ++ [.unterminatedString 3] ∧
            (ofSource ("//\"\n1\"é\n" ++ more ++ "\"")).stream.toList =
              (ofSource "//\"\n1\"é\n").stream.tokens ++
                [⟨.string, "\"" ++ body ++ more ++ "\"", some (.string (body ++ more)),
                    1 + lineFeeds front.toList⟩,
                  .endOfText
                    ((ofSource "//\"\n1\"é\n").stream.endToken.line + lineFeeds more.toList)] := by
  have hMem : LexicalError.unterminatedString 3 ∈ (ofSource "//\"\n1\"é\n").errors := by
    decide +kernel
  exact ⟨hMem, ofSource_append_quote hMem⟩

end Scan

end LoxLexer
