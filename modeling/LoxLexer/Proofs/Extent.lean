import LoxLexer.Element.Grammar

/-!
# How far an element reaches

An element of the grammar stands at the front of a text. Whether the text behind it belongs to it
can be seen from the next two characters: `Element.stops`. If the element stops there it is the one
that is read; if not, a longer one is read. One case for each class of elements says so, and two of the
main results put the cases together. To most elements a blank is as good as the end of the text;
only line comments and what is left open run on over it.

## Main results

* `Element.stops_of_looksLike`: an element stops in front of all texts that look alike to it.
* `Element.read_of_stops`: an element that stops is read.
* `Element.length_lt_of_not_stops`: where an element does not stop a longer one is read.
* `Element.elements_append`: the elements of a text that begins with an element that stops.
-/

namespace LoxLexer

open Text

/-- The character makes a longer element of the punctuator. -/
def Punctuator.isExtendedBy : Punctuator → Char → Bool
  | slash, c => c == '/' || c == '*'
  | bang, c | equal, c | greater, c | less, c => c == '='
  | _, _ => false

namespace Element

/-- The text behind the element does not belong to it. -/
def stops : Element → List Char → Bool
  | lineComment _, rest => rest.head?.all (· == '\n')
  | openComment _ _, rest => rest.isEmpty
  | openString _, rest => rest.isEmpty
  | number _ fraction, rest =>
    !rest.head?.any Char.isDigit &&
      !(fraction.isEmpty && rest.head? == some '.' && rest.tail.head?.any Char.isDigit)
  | word _, rest => !rest.head?.any isWordPart
  | punctuator p, rest => !rest.head?.any p.isExtendedBy
  | _, _ => true

/-! ## Looking ahead -/

/-- The element goes on whatever stands behind it, up to a line feed or to the end of the text. -/
def runsOn : Element → Bool
  | lineComment _ | openComment _ _ | openString _ => true
  | _ => false

/-- An element that does not run on stops in front of a blank. -/
theorem stops_of_isBlank {e : Element} {c : Char} (hRuns : e.runsOn = false)
    (hBlank : isBlank c = true) (cs : List Char) : e.stops (c :: cs) = true := by
  have hPart : isWordPart c = false := by
    rw [Bool.eq_false_iff]
    intro hPart
    simp [isBlank_eq_false_of_isWordPart hPart] at hBlank
  cases e with
  | number whole fraction =>
    have hDigit : c.isDigit = false := by
      rw [isWordPart, Bool.or_eq_false_iff] at hPart
      exact hPart.2
    have hPoint : c ≠ '.' := by
      rintro rfl
      simp [isBlank] at hBlank
    simp [stops, hDigit, hPoint]
  | word letters => simp [stops, hPart]
  | punctuator p =>
    have hExtends : p.isExtendedBy c = false := by
      obtain rfl | rfl | rfl | rfl := isBlank_iff.1 hBlank <;> cases p <;> rfl
    simp [stops, hExtends]
  | blank _ | blockComment _ | string _ | stray _ => rfl
  | lineComment _ | openComment _ _ | openString _ => simp [runsOn] at hRuns

/-- Of the next two characters of a text those of the other are the same, up to a blank or to where
the other ends. -/
inductive LooksLike : List Char → List Char → Prop where
  | first {cs ds : List Char} (blank : ds.head?.all isBlank = true) : LooksLike cs ds
  | second {c : Char} {cs ds : List Char} (blank : ds.head?.all isBlank = true) :
      LooksLike (c :: cs) (c :: ds)
  | both {c d : Char} {cs ds : List Char} : LooksLike (c :: d :: cs) (c :: d :: ds)

/-- What stops in front of a text stops in front of all that looks like it, unless it runs on. -/
theorem stops_of_looksLike {e : Element} {cs ds : List Char} (hLooks : LooksLike cs ds)
    (hRuns : e.runsOn = false) (h : e.stops cs = true) : e.stops ds = true := by
  cases hLooks with
  | @first _ ds hBlank =>
    cases ds with
    | nil => cases e <;> first | rfl | simp [stops]
    | cons d ds => exact stops_of_isBlank hRuns hBlank ds
  | @second c cs ds hBlank =>
    cases e with
    | number whole fraction =>
      -- A blank is no digit, so that a point in front of it is not of the number.
      have hDigit : ds.head?.any Char.isDigit = false := by
        cases ds with
        | nil => rfl
        | cons d ds => obtain rfl | rfl | rfl | rfl := isBlank_iff.1 hBlank <;> rfl
      simp_all [stops]
    | _ => exact h
  | both => cases e <;> exact h

/-! ## Comments -/

theorem read_lineComment_of_stops {body rest : List Char} (h : (lineComment body).WellFormed)
    (hStops : (lineComment body).stops rest = true) :
    read '/' ('/' :: (body ++ rest)) = (lineComment body, rest) := by
  have hAll := bne_of_not_mem h
  have hStop : rest.head?.any (· != '\n') = false := by
    cases rest <;> simp_all [stops]
  rw [read_lineComment, readLineComment, takeWhile_append_of_stop hAll hStop,
    dropWhile_append_of_stop hAll hStop]

theorem length_lt_lineComment {body rest : List Char} (h : (lineComment body).WellFormed)
    (hStops : (lineComment body).stops rest = false) :
    (lineComment body).text.length < (read '/' ('/' :: (body ++ rest))).1.text.length := by
  have hAll := bne_of_not_mem h
  have hGo : rest.head?.any (· != '\n') = true := by
    cases rest <;> simp_all [stops]
  have hLength := length_lt_takeWhile_append hAll hGo
  simpa [read_lineComment, readLineComment, text] using hLength

/-- A text that nests from one depth to another is read as what it is: all of it up to the end of
the outermost comment, or all of it to the end of the text. -/
theorem readComment_of_nesting {outer n : Nat} {cs : List Char} (h : Nesting (outer + 1) cs n)
    (rest : List Char) (hRest : n ≠ 0 → rest = []) :
    (readComment outer (cs ++ rest)).inside = cs ∧ (readComment outer (cs ++ rest)).depth = n ∧
      (readComment outer (cs ++ rest)).rest = rest := by
  generalize hDepth : outer + 1 = m at h
  induction h generalizing outer with
  | stop =>
    subst hDepth
    obtain rfl := hRest (by omega)
    exact ⟨rfl, rfl, rfl⟩
  | @opening m n cs tail ih =>
    obtain rfl : outer = m := by omega
    obtain ⟨hInside, hEnd, hBehind⟩ := ih hRest rfl
    have hRead : readComment outer ('/' :: '*' :: cs ++ rest) =
        (readComment (outer + 1) (cs ++ rest)).prepend ['/', '*'] := rfl
    rw [hRead, inside_prepend, hInside]
    exact ⟨rfl, hEnd, hBehind⟩
  | @closing m n cs tail ih =>
    obtain rfl : outer = m := by omega
    cases outer with
    | zero =>
      cases tail
      exact ⟨rfl, rfl, rfl⟩
    | succ outer =>
      obtain ⟨hInside, hEnd, hBehind⟩ := ih hRest rfl
      have hRead : readComment (outer + 1) ('*' :: '/' :: cs ++ rest) =
          (readComment outer (cs ++ rest)).prepend ['*', '/'] := rfl
      rw [hRead, inside_prepend, hInside]
      exact ⟨rfl, hEnd, hBehind⟩
  | @character m n c cs notOpening notClosing tail ih =>
    obtain rfl : outer = m := by omega
    obtain ⟨hInside, hEnd, hBehind⟩ := ih hRest rfl
    -- A pair at the front cannot take its second character from behind the comment.
    have hPair {d e : Char} (hNot : ∀ ds, c :: cs ≠ d :: e :: ds) :
        ∀ ds, c :: (cs ++ rest) ≠ d :: e :: ds := by
      intro ds hPair
      obtain ⟨rfl, hTail⟩ := List.cons.inj hPair
      cases cs with
      | nil =>
        cases tail
        rw [hRest (by omega)] at hTail
        simp at hTail
      | cons e' es =>
        obtain ⟨rfl, -⟩ := List.cons.inj hTail
        exact hNot es rfl
    have hRead : readComment outer (c :: cs ++ rest) =
        (readComment outer (cs ++ rest)).prepend [c] :=
      readComment_character (hPair notOpening) (hPair notClosing)
    rw [hRead, inside_prepend, hInside]
    exact ⟨rfl, hEnd, hBehind⟩

theorem read_blockComment_of_wellFormed {body : List Char} (h : (blockComment body).WellFormed)
    (rest : List Char) :
    read '/' ('*' :: (body ++ '*' :: '/' :: rest)) = (blockComment body, rest) := by
  obtain ⟨hInside, hDepth, hRest⟩ := readComment_of_nesting h rest (absurd rfl)
  have hSplit : body ++ ['*', '/'] ++ rest = body ++ '*' :: '/' :: rest := by simp
  rw [hSplit] at hInside hDepth hRest
  have hBody : (readComment 0 (body ++ '*' :: '/' :: rest)).body = body := by
    simpa [CommentTail.inside, hDepth] using hInside
  rw [read_blockComment, readBlockComment, ofCommentTail, if_pos hDepth, hBody, hRest]

theorem read_openComment_of_wellFormed {body : List Char} {depth : Nat}
    (h : (openComment body depth).WellFormed) :
    read '/' ('*' :: body) = (openComment body depth, []) := by
  obtain ⟨hInside, hDepth, hRest⟩ := readComment_of_nesting h.1 [] fun _ => rfl
  rw [List.append_nil] at hInside hDepth hRest
  have hOpen : (readComment 0 body).depth ≠ 0 := hDepth ▸ h.2
  have hBody : (readComment 0 body).body = body := by
    simpa [CommentTail.inside, hOpen] using hInside
  rw [read_blockComment, readBlockComment, ofCommentTail, if_neg hOpen, hBody, hDepth, hRest]

/-! ## Strings -/

theorem read_string_of_wellFormed {body : List Char} (h : (string body).WellFormed)
    (rest : List Char) : read '"' (body ++ '"' :: rest) = (string body, rest) := by
  have hAll := bne_of_not_mem h
  have hStop : ('"' :: rest).head?.any (· != '"') = false := by simp
  rw [read_quote, readString, takeWhile_append_of_stop hAll hStop,
    dropWhile_append_of_stop hAll hStop]

theorem read_openString_of_wellFormed {body : List Char} (h : (openString body).WellFormed) :
    read '"' body = (openString body, []) := by
  have hAll := bne_of_not_mem h
  have hStop : ([] : List Char).head?.any (· != '"') = false := rfl
  have hTake := takeWhile_append_of_stop hAll hStop
  have hDrop := dropWhile_append_of_stop hAll hStop
  rw [List.append_nil] at hTake hDrop
  rw [read_quote, readString, hTake, hDrop]

/-! ## Numbers -/

/-- The point of a number and the digits behind it, if there are any. -/
def pointed (fraction : List Char) : List Char := if fraction = [] then [] else '.' :: fraction

theorem readNumber_append {c : Char} {digits after : List Char}
    (hDigits : ∀ d ∈ c :: digits, d.isDigit = true) (hStop : after.head?.any Char.isDigit = false) :
    readNumber c (digits ++ after) = readFraction (c :: digits) after := by
  have hTail : ∀ d ∈ digits, d.isDigit = true := fun d hd => hDigits d (List.mem_cons_of_mem c hd)
  rw [readNumber, takeWhile_append_of_stop hTail hStop, dropWhile_append_of_stop hTail hStop]

theorem readFraction_of_stops {whole fraction rest : List Char}
    (h : (number whole fraction).WellFormed) (hStops : (number whole fraction).stops rest = true) :
    readFraction whole (pointed fraction ++ rest) = (number whole fraction, rest) := by
  cases fraction with
  | nil =>
    simp only [pointed, if_pos, List.nil_append]
    unfold readFraction
    split
    · rename_i d ds
      rw [if_neg]
      intro hd
      simp [stops, hd] at hStops
    · rfl
  | cons d ds =>
    have hd : d.isDigit = true := h.2.2 d (by simp)
    have hAll : ∀ c ∈ ds, c.isDigit = true := fun c hc => h.2.2 c (by simp [hc])
    have hStop : rest.head?.any Char.isDigit = false := by
      simpa [stops] using hStops
    simp [pointed, readFraction, hd, takeWhile_append_of_stop hAll hStop,
      dropWhile_append_of_stop hAll hStop]

theorem head?_pointed_append {fraction rest : List Char}
    (hStop : fraction = [] → rest.head?.any Char.isDigit = false) :
    (pointed fraction ++ rest).head?.any Char.isDigit = false := by
  cases fraction with
  | nil => simpa [pointed] using hStop rfl
  | cons d ds => simp [pointed]

theorem read_number_of_stops {c : Char} {digits fraction rest : List Char}
    (h : (number (c :: digits) fraction).WellFormed)
    (hStops : (number (c :: digits) fraction).stops rest = true) :
    read c (digits ++ (pointed fraction ++ rest)) = (number (c :: digits) fraction, rest) := by
  have hStop : rest.head?.any Char.isDigit = false := by
    simp only [stops, Bool.and_eq_true, Bool.not_eq_true'] at hStops
    exact hStops.1
  rw [read_digit (h.2.1 c (by simp)),
    readNumber_append h.2.1 (head?_pointed_append fun _ => hStop), readFraction_of_stops h hStops]

theorem length_le_text_readFraction (whole cs : List Char) :
    whole.length ≤ (readFraction whole cs).1.text.length := by
  unfold readFraction
  split
  · split <;> simp [text, numberText]
  · simp [text, numberText]

theorem length_lt_number {c : Char} {digits fraction rest : List Char}
    (h : (number (c :: digits) fraction).WellFormed)
    (hStops : (number (c :: digits) fraction).stops rest = false) :
    (number (c :: digits) fraction).text.length <
      (read c (digits ++ (pointed fraction ++ rest))).1.text.length := by
  rw [read_digit (h.2.1 c (by simp))]
  have hTail : ∀ d ∈ digits, d.isDigit = true := fun d hd =>
    h.2.1 d (List.mem_cons_of_mem c hd)
  cases fraction with
  | nil =>
    by_cases hGo : rest.head?.any Char.isDigit = true
    · have hLength := length_lt_takeWhile_append hTail hGo
      refine Nat.lt_of_lt_of_le ?_ (length_le_text_readFraction _ _)
      simpa [text, numberText, pointed] using hLength
    · rw [readNumber_append h.2.1 (head?_pointed_append fun _ => by simpa using hGo)]
      -- No digit follows, so it is a point with a digit behind it that the number goes on with.
      have hPoint : rest.head? = some '.' ∧ rest.tail.head?.any Char.isDigit = true := by
        simpa [stops, hGo] using hStops
      obtain ⟨cs, rfl⟩ := List.head?_eq_some_iff.1 hPoint.1
      cases cs with
      | nil => simp at hPoint
      | cons d ds =>
        have hd : d.isDigit = true := by simpa using hPoint.2
        simp [pointed, readFraction, hd, text, numberText]
  | cons d ds =>
    have hd : d.isDigit = true := h.2.2 d (by simp)
    have hAll : ∀ c ∈ ds, c.isDigit = true := fun c hc => h.2.2 c (by simp [hc])
    have hGo : rest.head?.any Char.isDigit = true := by
      simpa [stops] using hStops
    have hLength := length_lt_takeWhile_append hAll hGo
    rw [readNumber_append h.2.1 (by simp [pointed])]
    simpa [pointed, readFraction, hd, text, numberText] using hLength

/-! ## Words -/

theorem read_word_of_stops {c : Char} {letters rest : List Char}
    (h : (word (c :: letters)).WellFormed) (hStops : (word (c :: letters)).stops rest = true) :
    read c (letters ++ rest) = (word (c :: letters), rest) := by
  have hStart : isWordStart c = true := by simpa using h.1
  have hAll : ∀ d ∈ letters, isWordPart d = true := fun d hd => h.2 d (by simp [hd])
  have hStop : rest.head?.any isWordPart = false := by simpa [stops] using hStops
  rw [read_letter hStart, readWord, takeWhile_append_of_stop hAll hStop,
    dropWhile_append_of_stop hAll hStop]

theorem length_lt_word {c : Char} {letters rest : List Char}
    (h : (word (c :: letters)).WellFormed) (hStops : (word (c :: letters)).stops rest = false) :
    (word (c :: letters)).text.length < (read c (letters ++ rest)).1.text.length := by
  have hStart : isWordStart c = true := by simpa using h.1
  have hAll : ∀ d ∈ letters, isWordPart d = true := fun d hd => h.2 d (by simp [hd])
  have hGo : rest.head?.any isWordPart = true := by simpa [stops] using hStops
  have hLength := length_lt_takeWhile_append hAll hGo
  simpa [read_letter hStart, readWord, text] using hLength

end Element

/-! ## Punctuators -/

namespace Punctuator

/-- A long spelling that begins with a short one extends it. -/
theorem isExtendedBy_of_pair {p q : Punctuator} {c d : Char} (hp : p.characters = [c])
    (hq : q.characters = [c, d]) : p.isExtendedBy d = true := by
  obtain ⟨rfl, rfl | rfl | rfl | rfl⟩ := eq_of_characters_eq_pair hq <;>
    cases p <;> simp [characters] at hp <;> rfl

/-- A punctuator that is not a slash is extended to a longer punctuator. -/
theorem exists_pair_of_isExtendedBy {p : Punctuator} {d : Char} (h : p.isExtendedBy d = true)
    (hSlash : p ≠ slash) :
    ∃ (c : Char) (q : Punctuator), p.characters = [c] ∧ q.characters = [c, d] := by
  cases p <;> simp [isExtendedBy] at h hSlash <;> subst h
  · exact ⟨'!', bangEqual, rfl, rfl⟩
  · exact ⟨'=', equalEqual, rfl, rfl⟩
  · exact ⟨'>', greaterEqual, rfl, rfl⟩
  · exact ⟨'<', lessEqual, rfl, rfl⟩

theorem isSign_of_head? {p : Punctuator} {c : Char} (h : p.characters.head? = some c) :
    Element.isSign c = true := by
  cases p <;> simp only [characters, List.head?_cons, Option.some.injEq] at h <;> subst h <;> decide

theorem eq_slash_of_head? {p : Punctuator} (h : p.characters.head? = some '/') : p = slash := by
  cases p <;> simp [characters] at h ⊢

/-- A spelling has one character or two. -/
theorem length_characters (p : Punctuator) :
    (∃ c, p.characters = [c]) ∨ ∃ c d, p.characters = [c, d] := by
  cases p <;> simp [characters]

end Punctuator

namespace Element

theorem readPunctuator_of_stops {p : Punctuator} {c : Char} {cs rest : List Char}
    (hStops : (punctuator p).stops rest = true) (hText : p.characters ++ rest = c :: cs) :
    readPunctuator c cs = (punctuator p, rest) := by
  obtain ⟨d, hp⟩ | ⟨d, d', hp⟩ := p.length_characters
  · obtain ⟨rfl, rfl⟩ : d = c ∧ rest = cs := by simpa [hp] using hText
    have hShort : ∀ (q : Punctuator) (e : Char), rest.head? = some e → q.characters ≠ [d, e] := by
      intro q e he hq
      simp [stops, he, Punctuator.isExtendedBy_of_pair hp hq] at hStops
    rw [readPunctuator, Punctuator.read?_single hp hShort]
  · obtain ⟨rfl, rfl⟩ : d = c ∧ d' :: rest = cs := by simpa [hp] using hText
    rw [readPunctuator, Punctuator.read?_pair hp]

theorem read_punctuator_of_stops {p : Punctuator} {c : Char} {cs rest : List Char}
    (hStops : (punctuator p).stops rest = true) (hText : p.characters ++ rest = c :: cs) :
    read c cs = (punctuator p, rest) := by
  have hHead : p.characters.head? = some c := by
    obtain ⟨d, hp⟩ | ⟨d, d', hp⟩ := p.length_characters <;> simp_all
  have hComment : c = '/' → cs.head? ≠ some '/' ∧ cs.head? ≠ some '*' := by
    rintro rfl
    obtain rfl := Punctuator.eq_slash_of_head? hHead
    obtain rfl : rest = cs := by simpa [Punctuator.characters] using hText
    constructor <;> intro hNext <;> simp [stops, hNext, Punctuator.isExtendedBy] at hStops
  rw [read_sign (Punctuator.isSign_of_head? hHead) hComment, readPunctuator_of_stops hStops hText]

theorem length_lt_punctuator {p : Punctuator} {c : Char} {cs rest : List Char}
    (hStops : (punctuator p).stops rest = false) (hText : p.characters ++ rest = c :: cs) :
    (punctuator p).text.length < (read c cs).1.text.length := by
  obtain ⟨d, ds, rfl⟩ : ∃ d ds, rest = d :: ds := by
    cases rest with
    | nil => simp [stops] at hStops
    | cons d ds => exact ⟨d, ds, rfl⟩
  have hd : p.isExtendedBy d = true := by simpa [stops] using hStops
  by_cases hSlash : p = .slash
  · subst hSlash
    obtain ⟨rfl, rfl⟩ : '/' = c ∧ d :: ds = cs := by simpa [Punctuator.characters] using hText
    obtain rfl | rfl : d = '/' ∨ d = '*' := by simpa [Punctuator.isExtendedBy] using hd
    · simp [read_lineComment, readLineComment, text, Punctuator.characters]
    · rw [read_blockComment, readBlockComment, ofCommentTail]
      split <;> simp [text, Punctuator.characters]
  · obtain ⟨c', q, hp, hq⟩ := Punctuator.exists_pair_of_isExtendedBy hd hSlash
    obtain ⟨rfl, rfl⟩ : c' = c ∧ d :: ds = cs := by simpa [hp] using hText
    have hHead : p.characters.head? = some c' := by rw [hp, List.head?_cons]
    have hNotSlash : c' ≠ '/' := fun hc => hSlash (Punctuator.eq_slash_of_head? (hc ▸ hHead))
    rw [read_sign (Punctuator.isSign_of_head? hHead) (absurd · hNotSlash), readPunctuator,
      Punctuator.read?_pair hq]
    simp [text, hp, hq]

/-! ## All elements -/

theorem read_stray_of_wellFormed {c : Char} (h : (stray c).WellFormed) (cs : List Char) :
    read c cs = (stray c, cs) := by
  obtain ⟨hBlank, hQuote, hDigit, hWord, hNone⟩ := h
  have hSlash : c ≠ '/' := fun hc => hNone .slash (hc ▸ rfl)
  have hSign : isSign c = true := by simp [isSign, hBlank, hQuote, hDigit, hWord]
  rw [read_sign hSign (absurd · hSlash), readPunctuator, Punctuator.read?_none hNone]

/-- An element that stops is the one that is read. -/
theorem read_of_stops {e : Element} {rest : List Char} {c : Char} {cs : List Char}
    (h : e.WellFormed) (hStops : e.stops rest = true) (hText : e.text ++ rest = c :: cs) :
    read c cs = (e, rest) := by
  cases e with
  | blank d =>
    obtain ⟨rfl, rfl⟩ := List.cons.inj hText
    exact read_blank h _
  | lineComment body =>
    obtain ⟨rfl, rfl⟩ := List.cons.inj hText
    exact read_lineComment_of_stops h hStops
  | blockComment body =>
    obtain ⟨rfl, rfl⟩ := List.cons.inj hText
    simpa using read_blockComment_of_wellFormed h rest
  | openComment body depth =>
    obtain rfl : rest = [] := by simpa [stops] using hStops
    obtain ⟨rfl, rfl⟩ := List.cons.inj hText
    simpa using read_openComment_of_wellFormed h
  | string body =>
    obtain ⟨rfl, rfl⟩ := List.cons.inj hText
    simpa using read_string_of_wellFormed h rest
  | openString body =>
    obtain rfl : rest = [] := by simpa [stops] using hStops
    obtain ⟨rfl, rfl⟩ := List.cons.inj hText
    simpa using read_openString_of_wellFormed h
  | number whole fraction =>
    cases whole with
    | nil => exact absurd rfl h.1
    | cons d digits =>
      obtain ⟨rfl, rfl⟩ := List.cons.inj hText
      simpa [pointed] using read_number_of_stops h hStops
  | word letters =>
    cases letters with
    | nil => simp [WellFormed] at h
    | cons d letters =>
      obtain ⟨rfl, rfl⟩ := List.cons.inj hText
      exact read_word_of_stops h hStops
  | punctuator p => exact read_punctuator_of_stops hStops hText
  | stray d =>
    obtain ⟨rfl, rfl⟩ := List.cons.inj hText
    exact read_stray_of_wellFormed h _

/-- Where an element does not stop, a longer one is read. -/
theorem length_lt_of_not_stops {e : Element} {rest : List Char} {c : Char} {cs : List Char}
    (h : e.WellFormed) (hOpen : e.isOpen = true → rest = []) (hStops : e.stops rest = false)
    (hText : e.text ++ rest = c :: cs) : e.text.length < (read c cs).1.text.length := by
  cases e with
  | lineComment body =>
    obtain ⟨rfl, rfl⟩ := List.cons.inj hText
    exact length_lt_lineComment h hStops
  | openComment body depth => simp [stops, hOpen rfl] at hStops
  | openString body => simp [stops, hOpen rfl] at hStops
  | number whole fraction =>
    cases whole with
    | nil => exact absurd rfl h.1
    | cons d digits =>
      obtain ⟨rfl, rfl⟩ := List.cons.inj hText
      simpa [pointed] using length_lt_number h hStops
  | word letters =>
    cases letters with
    | nil => simp [WellFormed] at h
    | cons d letters =>
      obtain ⟨rfl, rfl⟩ := List.cons.inj hText
      exact length_lt_word h hStops
  | punctuator p => exact length_lt_punctuator hStops hText
  | blank _ | blockComment _ | string _ | stray _ => simp [stops] at hStops

theorem text_ne_nil {e : Element} (h : e.WellFormed) : e.text ≠ [] := by
  cases e with
  | number whole fraction => simp [text, numberText, h.1]
  | word letters =>
    rintro hText
    obtain rfl : letters = [] := hText
    simp [WellFormed] at h
  | punctuator p => exact p.characters_ne_nil
  | _ => simp [text]

/-- The elements of a text that begins with an element that stops. -/
theorem elements_append {e : Element} (h : e.WellFormed) {rest : List Char}
    (hStops : e.stops rest = true) : elements (e.text ++ rest) = e :: elements rest := by
  obtain ⟨c, cs, hText⟩ : ∃ c cs, e.text ++ rest = c :: cs :=
    List.exists_cons_of_ne_nil (by simp [text_ne_nil h])
  rw [hText, elements_cons, read_of_stops h hStops hText]

/-! Blanks and closed comments stop whatever follows. -/

theorem elements_blank {c : Char} (h : isBlank c = true) (rest : List Char) :
    elements (c :: rest) = blank c :: elements rest :=
  elements_append (e := blank c) h rfl

theorem elements_lineComment {body : List Char} (h : (lineComment body).WellFormed)
    (rest : List Char) :
    elements ('/' :: '/' :: (body ++ '\n' :: rest)) =
      lineComment body :: blank '\n' :: elements rest := by
  have hFeed : (lineComment body).stops ('\n' :: rest) = true := rfl
  rw [← elements_blank rfl, ← elements_append h hFeed]
  rfl

theorem elements_blockComment {body : List Char} (h : (blockComment body).WellFormed)
    (rest : List Char) :
    elements ('/' :: '*' :: (body ++ '*' :: '/' :: rest)) =
      blockComment body :: elements rest := by
  have hStops : (blockComment body).stops rest = true := rfl
  rw [← elements_append h hStops]
  simp [text]

end Element

end LoxLexer
