import LoxLexer.Element.Basic

/-!
# Reading elements

`Element.read` takes one element off the front of a text and `elements` cuts a whole text into
elements. Each element is as long as it can be, which needs at most two characters of foresight:
a point belongs to a number only when a digit comes behind it.

Block comments nest. Their delimiters are taken in pairs from left to right, so that the slash of
a closing delimiter never opens a comment and the star of an opening one never closes it.

## Main results

* `Element.text_append_rest_read`: what is read and what is left make up the text.
* `Element.texts_elements`: the elements of a text make up the text.
* `Element.elements_cons`: the elements of a text are its first element and those of the rest.
-/

namespace LoxLexer

open Text

namespace Element

/-! ## Block comments -/

/-- The outcome of reading on inside a block comment. -/
structure CommentTail where
  /-- The characters inside the comment. -/
  body : List Char
  /-- How many comments are open at the end; zero when the comment was closed. -/
  depth : Nat
  /-- The characters behind the closing delimiter. -/
  rest : List Char
deriving DecidableEq, Repr

/-- The same outcome, when further characters of the comment stand in front. -/
def CommentTail.prepend (cs : List Char) (tail : CommentTail) : CommentTail :=
  { tail with body := cs ++ tail.body }

/-- Reads on inside a block comment that stands in `outer` others, up to the end of the
outermost. -/
def readComment (outer : Nat) : List Char → CommentTail
  | [] => ⟨[], outer + 1, []⟩
  | '*' :: '/' :: cs =>
    match outer with
    | 0 => ⟨[], 0, cs⟩
    | outer + 1 => (readComment outer cs).prepend ['*', '/']
  | '/' :: '*' :: cs => (readComment (outer + 1) cs).prepend ['/', '*']
  | c :: cs => (readComment outer cs).prepend [c]

theorem readComment_character {outer : Nat} {c : Char} {cs : List Char}
    (notOpening : ∀ ds, c :: cs ≠ '/' :: '*' :: ds)
    (notClosing : ∀ ds, c :: cs ≠ '*' :: '/' :: ds) :
    readComment outer (c :: cs) = (readComment outer cs).prepend [c] := by
  rw [readComment]
  · rintro ds rfl rfl
    exact notClosing ds rfl
  · rintro ds rfl rfl
    exact notOpening ds rfl

/-- The element whose opening delimiter stands in front of a comment tail. -/
def ofCommentTail (tail : CommentTail) : Element :=
  if tail.depth = 0 then blockComment tail.body else openComment tail.body tail.depth

/-- The characters between the opening delimiter and the end of the text. -/
def CommentTail.text (tail : CommentTail) : List Char :=
  tail.body ++ (if tail.depth = 0 then ['*', '/'] else []) ++ tail.rest

theorem text_prepend (cs : List Char) (tail : CommentTail) :
    (tail.prepend cs).text = cs ++ tail.text := by
  simp only [CommentTail.prepend, CommentTail.text, List.append_assoc]
  rfl

theorem text_readComment (outer : Nat) (cs : List Char) : (readComment outer cs).text = cs := by
  fun_induction readComment outer cs with
  | case1 => simp [CommentTail.text]
  | case2 => simp [CommentTail.text]
  | case3 cs outer ih => simp [text_prepend, ih]
  | case4 outer cs ih => simp [text_prepend, ih]
  | case5 outer c cs _ _ ih => simp [text_prepend, ih]

/-! ## Strings, numbers and words -/

/-- Reads on behind the opening quote of a string. -/
def readString (cs : List Char) : Element × List Char :=
  let body := cs.takeWhile (· != '"')
  match cs.dropWhile (· != '"') with
  | [] => (openString body, [])
  | _ :: rest => (string body, rest)

/-- Reads on behind the digits `whole` of a number, when `cs` does not begin with a digit. -/
def readFraction (whole : List Char) (cs : List Char) : Element × List Char :=
  match cs with
  | '.' :: d :: ds =>
    if d.isDigit then (number whole (d :: ds.takeWhile Char.isDigit), ds.dropWhile Char.isDigit)
    else (number whole [], cs)
  | _ => (number whole [], cs)

/-- Reads a number whose first digit is `c`. -/
def readNumber (c : Char) (cs : List Char) : Element × List Char :=
  readFraction (c :: cs.takeWhile Char.isDigit) (cs.dropWhile Char.isDigit)

/-- Reads a word whose first letter is `c`. -/
def readWord (c : Char) (cs : List Char) : Element × List Char :=
  (word (c :: cs.takeWhile isWordPart), cs.dropWhile isWordPart)

/-- Reads a line comment behind its two slashes. The line feed is left. -/
def readLineComment (cs : List Char) : Element × List Char :=
  (lineComment (cs.takeWhile (· != '\n')), cs.dropWhile (· != '\n'))

/-- Reads a block comment behind its opening delimiter. -/
def readBlockComment (cs : List Char) : Element × List Char :=
  (ofCommentTail (readComment 0 cs), (readComment 0 cs).rest)

/-- Reads a punctuator, or gives up on the character. -/
def readPunctuator (c : Char) (cs : List Char) : Element × List Char :=
  match Punctuator.read? c cs with
  | some (p, rest) => (punctuator p, rest)
  | none => (stray c, cs)

/-! ## One element -/

/-- Reads the element at the front of the text `c :: cs` and gives the rest of the text. -/
def read (c : Char) (cs : List Char) : Element × List Char :=
  if isBlank c then (blank c, cs)
  else if c = '"' then readString cs
  else if c.isDigit then readNumber c cs
  else if isWordStart c then readWord c cs
  else
    match c, cs with
    | '/', '/' :: rest => readLineComment rest
    | '/', '*' :: rest => readBlockComment rest
    | _, _ => readPunctuator c cs

/-! Which reader is called depends on the first character, and for a slash also on the second. -/

theorem read_blank {c : Char} (h : isBlank c = true) (cs : List Char) :
    read c cs = (blank c, cs) := by
  simp [read, h]

theorem read_quote (cs : List Char) : read '"' cs = readString cs := rfl

theorem read_digit {c : Char} (h : c.isDigit = true) (cs : List Char) :
    read c cs = readNumber c cs := by
  have hPart := isWordPart_of_isDigit h
  simp [read, h, isBlank_eq_false_of_isWordPart hPart, ne_quote_of_isWordPart hPart]

theorem read_letter {c : Char} (h : isWordStart c = true) (cs : List Char) :
    read c cs = readWord c cs := by
  have hPart := isWordPart_of_isWordStart h
  simp [read, h, isBlank_eq_false_of_isWordPart hPart, ne_quote_of_isWordPart hPart,
    isDigit_eq_false_of_isWordStart h]

theorem read_lineComment (cs : List Char) : read '/' ('/' :: cs) = readLineComment cs := rfl

theorem read_blockComment (cs : List Char) : read '/' ('*' :: cs) = readBlockComment cs := rfl

/-- The character begins no blank, string, number or word. -/
def isSign (c : Char) : Bool := !(isBlank c || c == '"' || c.isDigit || isWordStart c)

theorem read_sign {c : Char} {cs : List Char} (h : isSign c = true)
    (hComment : c = '/' → cs.head? ≠ some '/' ∧ cs.head? ≠ some '*') :
    read c cs = readPunctuator c cs := by
  obtain ⟨⟨⟨hBlank, hQuote⟩, hDigit⟩, hWord⟩ :
      ((isBlank c = false ∧ c ≠ '"') ∧ c.isDigit = false) ∧ isWordStart c = false := by
    simpa [isSign] using h
  simp only [read, hBlank, hQuote, hDigit, hWord]
  simp only [Bool.false_eq_true, if_false]
  split
  · exact absurd rfl (hComment rfl).1
  · exact absurd rfl (hComment rfl).2
  · rfl

/-- A spelling of one character that begins no longer one. -/
theorem read_single {c : Char} {cs : List Char} {p : Punctuator} (hSign : isSign c = true)
    (hComment : c = '/' → cs.head? ≠ some '/' ∧ cs.head? ≠ some '*') (h : p.characters = [c])
    (hLong : ¬(c = '!' ∨ c = '=' ∨ c = '<' ∨ c = '>')) : read c cs = (punctuator p, cs) := by
  rw [read_sign hSign hComment, readPunctuator,
    Punctuator.read?_single h fun q d _ hq => hLong (Punctuator.eq_of_characters_eq_pair hq).2]

/-- A spelling that an equals sign makes longer. -/
theorem read_either {c : Char} {long short : Punctuator} (hSign : isSign c = true)
    (hSlash : c ≠ '/') (hLong : long.characters = [c, '=']) (hShort : short.characters = [c])
    (cs : List Char) :
    (read c cs).1 = punctuator (if cs.head? = some '=' then long else short) := by
  rw [read_sign hSign (absurd · hSlash), readPunctuator]
  by_cases hEqual : cs.head? = some '='
  · obtain ⟨ds, rfl⟩ := List.head?_eq_some_iff.1 hEqual
    rw [Punctuator.read?_pair hLong, if_pos hEqual]
  · have hShortOnly : ∀ (q : Punctuator) (d : Char), cs.head? = some d → q.characters ≠ [c, d] := by
      intro q d hd hq
      exact hEqual ((Punctuator.eq_of_characters_eq_pair hq).1 ▸ hd)
    rw [Punctuator.read?_single hShort hShortOnly, if_neg hEqual]

theorem text_append_rest_readString (cs : List Char) :
    (readString cs).1.text ++ (readString cs).2 = '"' :: cs := by
  have hSplit := List.takeWhile_append_dropWhile (p := (· != '"')) (l := cs)
  obtain hEnd | ⟨rest, hQuote⟩ := dropWhile_bne '"' cs
  · rw [hEnd] at hSplit
    simpa [readString, hEnd, text] using hSplit
  · rw [hQuote] at hSplit
    simpa [readString, hQuote, text] using hSplit

theorem text_append_rest_readFraction (whole cs : List Char) :
    (readFraction whole cs).1.text ++ (readFraction whole cs).2 = whole ++ cs := by
  unfold readFraction
  split
  · split
    · simp [text, numberText]
    · simp [text, numberText]
  · simp [text, numberText]

theorem text_append_rest_readBlockComment (cs : List Char) :
    (readBlockComment cs).1.text ++ (readBlockComment cs).2 = '/' :: '*' :: cs := by
  have hText := text_readComment 0 cs
  simp only [CommentTail.text] at hText
  simp only [readBlockComment, ofCommentTail]
  split <;> rename_i h <;> simp only [h] at hText <;> simpa [text, h] using hText

theorem text_append_rest_readPunctuator (c : Char) (cs : List Char) :
    (readPunctuator c cs).1.text ++ (readPunctuator c cs).2 = c :: cs := by
  unfold readPunctuator
  split
  · rename_i h
    exact Punctuator.read?_append h
  · simp [text]

/-- Reading loses nothing: the element and the rest make up the text. -/
theorem text_append_rest_read (c : Char) (cs : List Char) :
    (read c cs).1.text ++ (read c cs).2 = c :: cs := by
  unfold read
  split
  · simp [text]
  split
  · rename_i h
    rw [text_append_rest_readString, h]
  split
  · simp [readNumber, text_append_rest_readFraction]
  split
  · simp [readWord, text]
  split
  · simp [readLineComment, text]
  · exact text_append_rest_readBlockComment _
  · exact text_append_rest_readPunctuator _ _

theorem text_readPunctuator_ne_nil (c : Char) (cs : List Char) :
    (readPunctuator c cs).1.text ≠ [] := by
  unfold readPunctuator
  split
  · exact Punctuator.characters_ne_nil _
  · simp [text]

theorem text_readFraction_ne_nil {whole : List Char} (h : whole ≠ []) (cs : List Char) :
    (readFraction whole cs).1.text ≠ [] := by
  unfold readFraction
  split
  · split <;> simp [text, numberText, h]
  · simp [text, numberText, h]

/-- Reading takes at least one character. -/
theorem text_read_ne_nil (c : Char) (cs : List Char) : (read c cs).1.text ≠ [] := by
  unfold read
  split
  · simp [text]
  split
  · unfold readString
    dsimp only
    split <;> simp [text]
  split
  · exact text_readFraction_ne_nil (by simp) _
  split
  · simp [readWord, text]
  split
  · simp [readLineComment, text]
  · simp only [readBlockComment, ofCommentTail]
    split <;> simp [text]
  · exact text_readPunctuator_ne_nil _ _

theorem length_rest_read_le (c : Char) (cs : List Char) : (read c cs).2.length ≤ cs.length := by
  have hLength := congrArg List.length (text_append_rest_read c cs)
  have hPos := List.length_pos_iff.2 (text_read_ne_nil c cs)
  simp only [List.length_append, List.length_cons] at hLength
  omega

/-! ## A whole text -/

/-- The elements of a text. -/
def elements : List Char → List Element
  | [] => []
  | c :: cs => (read c cs).1 :: elements (read c cs).2
termination_by cs => cs.length
decreasing_by
  have := length_rest_read_le c cs
  simp only [List.length_cons]
  omega

@[simp] theorem elements_nil : elements [] = [] := by
  rw [elements]

theorem elements_cons (c : Char) (cs : List Char) :
    elements (c :: cs) = (read c cs).1 :: elements (read c cs).2 := by
  rw [elements]

/-- Nothing of a text is lost, and nothing added. -/
theorem texts_elements (cs : List Char) : texts (elements cs) = cs := by
  fun_induction elements cs with
  | case1 => rfl
  | case2 c cs ih => rw [texts_cons, ih, text_append_rest_read]

end Element

end LoxLexer
