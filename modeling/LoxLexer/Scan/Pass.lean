import LoxLexer.Diagnostic.Sink
import LoxLexer.Number.Rounding
import LoxLexer.Text.Bytes
import LoxLexer.Text.Characters
import LoxLexer.Token.Stream

/-!
# One pass over a text

A pass reads a text once, from the front to the back. It holds the byte offset of the character it
will read next, looks at most two characters ahead, counts lines as it moves over line feeds, and
hands every error to a sink at the moment it comes upon it.

There are four places where a pass moves over a line feed. Between elements, inside a string and
inside a block comment it counts it; a line comment stops in front of it.

A loop of a pass is given by what it does in one round. Every move is a move forward within the
text: `Follows`. This is why each loop ends.

## Main definitions

* `Loop.run`: goes through the rounds of a loop.
* `Pass.opening`: what the first character of an element leads to.
* `Pass.step`: reads one element and files its token or its error.
* `Pass.run`: reads a text to its end.
-/

namespace LoxLexer

open Text

/-! ## Loops -/

/-- What comes of a round: the loop goes on with a state, or the round was the last and gives a
result. -/
inductive Round (α β : Type) where
  | again (next : α)
  | last (result : β)

namespace Round

variable {α β : Type} {γ : Sort u} {again : α → γ} {last : β → γ}

/-- What becomes of a round, in one way or the other. -/
def elim (r : Round α β) (again : α → γ) (last : β → γ) : γ :=
  match r with
  | .again next => again next
  | .last result => last result

@[simp] theorem elim_again (next : α) : (Round.again next).elim again last = again next := rfl

@[simp] theorem elim_last (result : β) : (Round.last result).elim again last = last result := rfl

theorem elim_ite (p : Prop) [Decidable p] (r r' : Round α β) :
    (if p then r else r').elim again last =
      if p then r.elim again last else r'.elim again last := by
  split <;> rfl

end Round

/-- A loop, by its rounds. A round that goes on leaves less to be done. -/
structure Loop (α β : Type) where
  round : α → Round α β
  left : α → Nat
  left_lt : ∀ a, (round a).elim (left · < left a) fun _ => True

namespace Loop

variable {α β : Type}

/-- Goes round until it is over. -/
def run (loop : Loop α β) (a : α) : β :=
  match _h : loop.round a with
  | .again b => loop.run b
  | .last r => r
termination_by loop.left a
decreasing_by simpa [_h] using loop.left_lt a

theorem run_eq (loop : Loop α β) (a : α) : loop.run a = (loop.round a).elim loop.run id := by
  rw [run]
  split <;> simp_all

/-- What every round keeps holds in the end. -/
theorem run_induction {loop : Loop α β} {P : α → Prop} {Q : β → Prop}
    (hRound : ∀ a, P a → (loop.round a).elim P Q) {a : α} (h : P a) : Q (loop.run a) := by
  fun_induction run loop a with
  | case1 a b hAgain ih =>
    have hNext := hRound a h
    rw [hAgain] at hNext
    exact ih hNext
  | case2 a r hLast =>
    have hResult := hRound a h
    rwa [hLast] at hResult

end Loop

/-! ## Passes -/

/-- The state of a pass. Offsets are in bytes and lines are counted from 1. -/
structure Pass (σ : Type) where
  source : String
  /-- Where the lexeme begins that is being read. -/
  start : Nat
  /-- Where the next character begins. -/
  current : Nat
  line : Nat
  tokens : Array Token
  sink : σ

namespace Pass

variable {σ : Type}

/-- A pass in front of a text. -/
def ofSource (source : String) (sink : σ) : Pass σ := ⟨source, 0, 0, 1, #[], sink⟩

/-! ## Looking ahead -/

/-- The next character. -/
def peek? (s : Pass σ) : Option Char := String.Pos.Raw.get? s.source ⟨s.current⟩

/-- The character behind the next one. -/
def peekSecond? (s : Pass σ) : Option Char :=
  match s.peek? with
  | some c => String.Pos.Raw.get? s.source ⟨s.current + c.utf8Size⟩
  | none => none

/-- There is no next character. -/
def isAtEnd (s : Pass σ) : Bool := s.source.utf8ByteSize ≤ s.current

/-- The text between two offsets. -/
def between (s : Pass σ) (start stop : Nat) : String :=
  String.Pos.Raw.extract s.source ⟨start⟩ ⟨stop⟩

/-- The text that has been read since the lexeme began. -/
def lexeme (s : Pass σ) : String := s.between s.start s.current

/-! ## Moving -/

/-- Moves on by so many bytes. -/
def forward (n : Nat) (s : Pass σ) : Pass σ := { s with current := s.current + n }

/-- Counts a line. -/
def nextLine (s : Pass σ) : Pass σ := { s with line := s.line + 1 }

/-- Moves over the next character. -/
def advance (s : Pass σ) : Pass σ :=
  match s.peek? with
  | some c => s.forward c.utf8Size
  | none => s

/-- Moves over the next character if it is the one that is expected. -/
def accept? (expected : Char) (s : Pass σ) : Option (Pass σ) :=
  if s.peek? = some expected then some s.advance else none

/-- The next lexeme begins here. -/
def beginLexeme (s : Pass σ) : Pass σ := { s with start := s.current }

/-- The pass `t` stands in the same text as `s` and not in front of it. -/
structure Follows (t s : Pass σ) : Prop where
  source_eq : t.source = s.source
  current_le : s.current ≤ t.current

/-- The number of bytes in front of a pass. -/
def left (s : Pass σ) : Nat := s.source.utf8ByteSize - s.current

theorem Follows.refl (s : Pass σ) : s.Follows s := ⟨rfl, Nat.le_refl _⟩

theorem Follows.trans {s t u : Pass σ} (h : u.Follows t) (h' : t.Follows s) : u.Follows s :=
  ⟨h.source_eq.trans h'.source_eq, Nat.le_trans h'.current_le h.current_le⟩

theorem follows_forward (n : Nat) (s : Pass σ) : (s.forward n).Follows s :=
  ⟨rfl, Nat.le_add_right ..⟩

theorem follows_nextLine (s : Pass σ) : s.nextLine.Follows s := ⟨rfl, Nat.le_refl _⟩

theorem follows_advance (s : Pass σ) : s.advance.Follows s := by
  unfold advance
  split
  · exact follows_forward _ s
  · exact .refl s

theorem lt_of_utf8GetAux? {cs : List Char} {i n : Nat} {c : Char}
    (h : String.Pos.Raw.utf8GetAux? cs ⟨i⟩ ⟨n⟩ = some c) : n < i + byteLength cs := by
  induction cs generalizing i with
  | nil =>
    have hNone : none = some c := h
    simp at hNone
  | cons d cs ih =>
    have hPos := d.utf8Size_pos
    have hHead : (if (⟨i⟩ : String.Pos.Raw) = ⟨n⟩ then some d
        else String.Pos.Raw.utf8GetAux? cs ⟨i + d.utf8Size⟩ ⟨n⟩) = some c := h
    split at hHead
    · rename_i hHere
      obtain rfl : i = n := congrArg String.Pos.Raw.byteIdx hHere
      simp only [byteLength_cons]
      omega
    · have hRest : n < i + d.utf8Size + byteLength cs := ih hHead
      simp only [byteLength_cons]
      omega

/-- A pass that sees a character stands in front of the end of its text. -/
theorem current_lt_of_peek? {s : Pass σ} {c : Char} (h : s.peek? = some c) :
    s.current < s.source.utf8ByteSize := by
  have := lt_of_utf8GetAux? h
  rw [utf8ByteSize_eq]
  omega

theorem left_lt {s t : Pass σ} {c : Char} (hSource : t.source = s.source)
    (hCurrent : s.current < t.current) (h : s.peek? = some c) : t.left < s.left := by
  have := current_lt_of_peek? h
  simp only [left, hSource]
  omega

theorem left_forward_lt {s : Pass σ} {c : Char} (n : Nat) (h : s.peek? = some c) :
    (s.forward (n + 1)).left < s.left :=
  left_lt rfl (Nat.lt_add_of_pos_right n.succ_pos) h

theorem current_lt_advance {s : Pass σ} {c : Char} (h : s.peek? = some c) :
    s.current < s.advance.current := by
  have := c.utf8Size_pos
  simp only [advance, h, forward]
  omega

theorem left_advance_lt {s : Pass σ} {c : Char} (h : s.peek? = some c) : s.advance.left < s.left :=
  left_lt s.follows_advance.source_eq (current_lt_advance h) h

/-- One round of `walk`: moves over the next character if it is of the kind. -/
def onward (p : Char → Bool) (s : Pass σ) : Round (Pass σ) (Pass σ) :=
  if s.peek?.any p then .again s.advance else .last s

theorem left_onward_lt (p : Char → Bool) (s : Pass σ) :
    (s.onward p).elim (·.left < s.left) fun _ => True := by
  unfold onward
  split
  · rename_i hAny
    obtain ⟨c, hPeek, -⟩ := (Option.any_eq_true ..).1 hAny
    exact left_advance_lt hPeek
  · trivial

/-- Moves on while the next character is of the kind. -/
def walk (p : Char → Bool) (s : Pass σ) : Pass σ :=
  Loop.run ⟨onward p, left, left_onward_lt p⟩ s

theorem walk_eq_elim (p : Char → Bool) (s : Pass σ) : s.walk p = (s.onward p).elim (walk p) id :=
  Loop.run_eq _ s

theorem walk_of_none {s : Pass σ} (p : Char → Bool) (h : s.peek? = none) : s.walk p = s := by
  rw [walk_eq_elim]
  simp [onward, h]

theorem walk_of_some {s : Pass σ} {c : Char} (p : Char → Bool) (h : s.peek? = some c) :
    s.walk p = if p c then s.advance.walk p else s := by
  rw [walk_eq_elim, onward, h, Round.elim_ite]
  rfl

theorem follows_onward {p : Char → Bool} {s t : Pass σ} (h : t.Follows s) :
    (t.onward p).elim (Follows · s) (Follows · s) := by
  unfold onward
  split
  · exact (follows_advance t).trans h
  · exact h

theorem follows_walk (p : Char → Bool) (s : Pass σ) : (s.walk p).Follows s :=
  Loop.run_induction (P := (Follows · s)) (Q := (Follows · s)) (fun _ => follows_onward) (.refl s)

/-! ## Filing -/

/-- Files a token for the text that has been read since the lexeme began. -/
def push (kind : TokenKind) (literal : Option Literal) (line : Nat) (s : Pass σ) : Pass σ :=
  { s with tokens := s.tokens.push ⟨kind, s.lexeme, literal, line⟩ }

/-- Files a token that has no literal. -/
def add (kind : TokenKind) (s : Pass σ) : Pass σ := s.push kind none s.line

/-- Files one token if the expected character comes next and another if not. -/
def addEither (expected : Char) (long short : Punctuator) (s : Pass σ) : Pass σ :=
  match s.accept? expected with
  | some s => s.add (.punctuator long)
  | none => s.add (.punctuator short)

theorem follows_push (kind : TokenKind) (literal : Option Literal) (line : Nat) (s : Pass σ) :
    (s.push kind literal line).Follows s :=
  ⟨rfl, Nat.le_refl _⟩

theorem follows_add (kind : TokenKind) (s : Pass σ) : (s.add kind).Follows s :=
  follows_push ..

theorem follows_accept? {expected : Char} {s t : Pass σ} (h : s.accept? expected = some t) :
    t.Follows s := by
  unfold accept? at h
  split at h
  · cases h
    exact follows_advance s
  · simp at h

theorem follows_addEither (expected : Char) (long short : Punctuator) (s : Pass σ) :
    (s.addEither expected long short).Follows s := by
  unfold addEither
  split
  · rename_i t h
    exact (follows_add _ t).trans (follows_accept? h)
  · exact follows_add _ s

/-! ## Words and numbers -/

/-- Files the token of the word that has been read. -/
def fileWord (s : Pass σ) : Pass σ :=
  match Keyword.parse s.lexeme with
  | .ok k => s.add (.keyword k)
  | .error _ => s.add .identifier

/-- Reads on behind the first letter of a word. -/
def word (s : Pass σ) : Pass σ := (s.walk isWordPart).fileWord

/-- Moves over a point if there is a digit behind it. -/
def point (s : Pass σ) : Round (Pass σ) (Pass σ) :=
  if s.peek? = some '.' ∧ s.peekSecond?.any Char.isDigit then .again s.advance else .last s

/-- Moves over a point and the digits behind it, if there is a digit behind it. -/
def fraction (s : Pass σ) : Pass σ := s.point.elim (walk Char.isDigit) id

/-- Files the token of the number that has been read. A lexeme that is no decimal would leave the
token without a literal. -/
def fileNumber (s : Pass σ) : Pass σ :=
  let value := (Decimal.parse? s.lexeme.toList).map fun d => Literal.number d.nearest
  s.push .number value s.line

/-- Reads on behind the first digit of a number. -/
def number (s : Pass σ) : Pass σ := (s.walk Char.isDigit).fraction.fileNumber

theorem follows_fileWord (s : Pass σ) : s.fileWord.Follows s := by
  unfold fileWord
  split
  · exact follows_add _ s
  · exact follows_add _ s

theorem follows_word (s : Pass σ) : s.word.Follows s :=
  (follows_fileWord _).trans (follows_walk _ s)

theorem follows_fraction (s : Pass σ) : s.fraction.Follows s := by
  unfold fraction point
  split
  · exact (follows_walk _ _).trans (follows_advance s)
  · exact .refl s

theorem follows_number (s : Pass σ) : s.number.Follows s :=
  (follows_push ..).trans ((follows_fraction _).trans (follows_walk _ s))

/-! ## Strings and comments -/

/-- One round of `skipString`: moves over the next character, unless it is a quote. A line feed is
counted. -/
def insideString (s : Pass σ) : Round (Pass σ) (Pass σ) :=
  match s.peek? with
  | some c =>
    if c = '"' then .last s
    else if c = '\n' then .again s.nextLine.advance
    else .again s.advance
  | none => .last s

theorem left_insideString_lt (s : Pass σ) :
    s.insideString.elim (·.left < s.left) fun _ => True := by
  unfold insideString
  split
  · rename_i c hPeek
    split
    · trivial
    split
    · exact left_advance_lt (s := s.nextLine) hPeek
    · exact left_advance_lt hPeek
  · trivial

/-- Moves up to the next quote, or to the end of the text, and counts the lines on the way. -/
def skipString (s : Pass σ) : Pass σ := Loop.run ⟨insideString, left, left_insideString_lt⟩ s

variable [Sink σ]

/-- Hands an error to the sink. -/
def report (error : LexicalError) (s : Pass σ) : Pass σ :=
  { s with sink := Sink.receive error s.sink }

/-- Moves over the quote that closes a string. There is none at the end of the text. -/
def endString (s : Pass σ) : Round (Pass σ) (Pass σ) :=
  if s.isAtEnd then .last (s.report (.unterminatedString s.line)) else .again s.advance

omit [Sink σ] in
/-- Files the token of the string that has been read, on the given line. -/
def fileString (line : Nat) (s : Pass σ) : Pass σ :=
  let value := s.between (s.start + 1) (s.current - 1)
  s.push .string (some (.string value)) line

/-- Reads on behind the opening quote of a string. The token belongs on the line of that quote. -/
def string (s : Pass σ) : Pass σ := s.skipString.endString.elim (fileString s.line) id

/-- One round of `skipComment`, inside so many comments: moves over a delimiter and counts it, or
over a character. -/
def insideComment (depth : Nat) (s : Pass σ) : Round (Nat × Pass σ) (Pass σ) :=
  match s.peek? with
  | some c =>
    if c = '*' ∧ s.peekSecond? = some '/' then
      if depth - 1 = 0 then .last (s.forward 2) else .again (depth - 1, s.forward 2)
    else if c = '/' ∧ s.peekSecond? = some '*' then .again (depth + 1, s.forward 2)
    else if c = '\n' then .again (depth, s.nextLine.forward 1)
    else .again (depth, s.advance)
  | none => .last (s.report (.unterminatedBlockComment s.line depth))

theorem left_insideComment_lt (depth : Nat) (s : Pass σ) :
    (s.insideComment depth).elim (·.2.left < s.left) fun _ => True := by
  unfold insideComment
  split
  · rename_i c hPeek
    split
    · split
      · trivial
      · exact left_forward_lt 1 hPeek
    split
    · exact left_forward_lt 1 hPeek
    split
    · exact left_forward_lt (s := s.nextLine) 0 hPeek
    · exact left_advance_lt hPeek
  · trivial

/-- Reads on inside so many nested comments, up to the delimiter that closes the outermost. -/
def skipComment (depth : Nat) (s : Pass σ) : Pass σ :=
  Loop.run ⟨fun m => m.2.insideComment m.1, fun m => m.2.left,
    fun m => left_insideComment_lt m.1 m.2⟩ (depth, s)

theorem follows_report (error : LexicalError) (s : Pass σ) : (s.report error).Follows s :=
  ⟨rfl, Nat.le_refl _⟩

omit [Sink σ] in
theorem skipString_eq_elim (s : Pass σ) : s.skipString = s.insideString.elim skipString id :=
  Loop.run_eq _ s

omit [Sink σ] in
theorem skipString_of_none {s : Pass σ} (h : s.peek? = none) : s.skipString = s := by
  rw [skipString_eq_elim, insideString, h]
  rfl

omit [Sink σ] in
theorem skipString_of_some {s : Pass σ} {c : Char} (h : s.peek? = some c) :
    s.skipString =
      if c = '"' then s
      else if c = '\n' then s.nextLine.advance.skipString
      else s.advance.skipString := by
  rw [skipString_eq_elim, insideString, h]
  simp only [Round.elim_ite]
  rfl

theorem skipComment_eq_elim (depth : Nat) (s : Pass σ) :
    s.skipComment depth = (s.insideComment depth).elim (fun m => m.2.skipComment m.1) id :=
  Loop.run_eq _ (depth, s)

theorem skipComment_of_none {s : Pass σ} (depth : Nat) (h : s.peek? = none) :
    s.skipComment depth = s.report (.unterminatedBlockComment s.line depth) := by
  rw [skipComment_eq_elim, insideComment, h]
  rfl

theorem skipComment_of_some {s : Pass σ} {c : Char} (depth : Nat) (h : s.peek? = some c) :
    s.skipComment depth =
      if c = '*' ∧ s.peekSecond? = some '/' then
        if depth - 1 = 0 then s.forward 2 else (s.forward 2).skipComment (depth - 1)
      else if c = '/' ∧ s.peekSecond? = some '*' then (s.forward 2).skipComment (depth + 1)
      else if c = '\n' then (s.nextLine.forward 1).skipComment depth
      else s.advance.skipComment depth := by
  rw [skipComment_eq_elim, insideComment, h]
  simp only [Round.elim_ite]
  rfl

omit [Sink σ] in
theorem follows_insideString {s t : Pass σ} (h : t.Follows s) :
    t.insideString.elim (Follows · s) (Follows · s) := by
  unfold insideString
  split
  · split
    · exact h
    split
    · exact (follows_advance _).trans (t.follows_nextLine.trans h)
    · exact t.follows_advance.trans h
  · exact h

omit [Sink σ] in
theorem follows_skipString (s : Pass σ) : s.skipString.Follows s :=
  Loop.run_induction (P := (Follows · s)) (Q := (Follows · s)) (fun _ => follows_insideString)
    (.refl s)

theorem follows_string (s : Pass σ) : s.string.Follows s := by
  have hSkip := follows_skipString s
  unfold string endString
  split
  · exact (follows_report _ _).trans hSkip
  · exact (follows_push ..).trans ((follows_advance _).trans hSkip)

theorem follows_insideComment {s t : Pass σ} (depth : Nat) (h : t.Follows s) :
    (t.insideComment depth).elim (Follows ·.2 s) (Follows · s) := by
  unfold insideComment
  split
  · split
    · split
      · exact (t.follows_forward 2).trans h
      · exact (t.follows_forward 2).trans h
    split
    · exact (t.follows_forward 2).trans h
    split
    · exact (follows_forward 1 _).trans (t.follows_nextLine.trans h)
    · exact t.follows_advance.trans h
  · exact (follows_report _ t).trans h

theorem follows_skipComment (depth : Nat) (s : Pass σ) : (s.skipComment depth).Follows s :=
  Loop.run_induction (P := (Follows ·.2 s)) (Q := (Follows · s))
    (fun m => follows_insideComment m.1) (.refl s)

/-! ## Elements -/

/-- What the beginning of an element leads to. The element is complete, or it goes on in a way of
its own. -/
inductive Opening (σ : Type) where
  | complete (s : Pass σ)
  | lineComment (s : Pass σ)
  | blockComment (s : Pass σ)
  | string (s : Pass σ)
  | number (s : Pass σ)
  | word (s : Pass σ)

/-- Reads on to the end of an element. -/
def Opening.readOn : Opening σ → Pass σ
  | complete s => s
  | lineComment s => s.walk (· != '\n')
  | blockComment s => s.skipComment 1
  | string s => s.string
  | number s => s.number
  | word s => s.word

omit [Sink σ] in
/-- What a slash leads to. -/
def slash (s : Pass σ) : Opening σ :=
  match s.accept? '/' with
  | some s => .lineComment s
  | none =>
    match s.accept? '*' with
    | some s => .blockComment s
    | none => .complete (s.add (.punctuator .slash))

/-- What the first character of an element leads to, for a pass that stands behind it. -/
def opening (c : Char) (s : Pass σ) : Opening σ :=
  match c with
  | '(' => .complete (s.add (.punctuator .leftParen))
  | ')' => .complete (s.add (.punctuator .rightParen))
  | '\x7b' => .complete (s.add (.punctuator .leftBrace))
  | '\x7d' => .complete (s.add (.punctuator .rightBrace))
  | ',' => .complete (s.add (.punctuator .comma))
  | '.' => .complete (s.add (.punctuator .dot))
  | '-' => .complete (s.add (.punctuator .minus))
  | '+' => .complete (s.add (.punctuator .plus))
  | ';' => .complete (s.add (.punctuator .semicolon))
  | '*' => .complete (s.add (.punctuator .star))
  | '!' => .complete (s.addEither '=' .bangEqual .bang)
  | '=' => .complete (s.addEither '=' .equalEqual .equal)
  | '<' => .complete (s.addEither '=' .lessEqual .less)
  | '>' => .complete (s.addEither '=' .greaterEqual .greater)
  | '/' => s.slash
  | ' ' => .complete s
  | '\r' => .complete s
  | '\t' => .complete s
  | '\n' => .complete s.nextLine
  | '"' => .string s
  | c =>
    if c.isDigit then .number s
    else if isWordStart c then .word s
    else .complete (s.report (.unexpectedCharacter s.line c))

/-- Reads on behind the first character of an element. -/
def dispatch (c : Char) (s : Pass σ) : Pass σ := (s.opening c).readOn

/-- Reads the next element. -/
def step (s : Pass σ) : Pass σ :=
  match s.peek? with
  | some c => s.advance.dispatch c
  | none => s

theorem follows_slash (s : Pass σ) : s.slash.readOn.Follows s := by
  unfold slash
  split
  · rename_i t h
    exact (follows_walk _ t).trans (follows_accept? h)
  split
  · rename_i t h
    exact (follows_skipComment 1 t).trans (follows_accept? h)
  · exact follows_add _ s

theorem follows_dispatch (c : Char) (s : Pass σ) : (s.dispatch c).Follows s := by
  unfold dispatch opening
  split
  case h_11 | h_12 | h_13 | h_14 => exact follows_addEither ..
  case h_15 => exact follows_slash s
  case h_16 | h_17 | h_18 => exact .refl s
  case h_19 => exact follows_nextLine s
  case h_20 => exact follows_string s
  case h_21 =>
    split
    · exact follows_number s
    split
    · exact follows_word s
    · exact follows_report _ s
  all_goals exact follows_add _ s

theorem follows_step (s : Pass σ) : s.step.Follows s.advance := by
  unfold step
  split
  · exact follows_dispatch _ _
  · rename_i h
    simpa [advance, h] using Follows.refl s

/-- Every element takes up a part of the text. -/
theorem current_lt_step {s : Pass σ} {c : Char} (h : s.peek? = some c) :
    s.current < s.step.current :=
  Nat.lt_of_lt_of_le (current_lt_advance h) s.follows_step.current_le

/-- One turn of a run: the pass begins a lexeme and reads an element. -/
def turn (s : Pass σ) : Pass σ := s.beginLexeme.step

/-- One round of `run`: a turn, if there is anything left. -/
def another (s : Pass σ) : Round (Pass σ) (Pass σ) :=
  match s.peek? with
  | some _ => .again s.turn
  | none => .last s

theorem left_another_lt (s : Pass σ) : s.another.elim (·.left < s.left) fun _ => True := by
  unfold another
  split
  · rename_i c hPeek
    have hSource := ((follows_step s.beginLexeme).trans (follows_advance _)).source_eq
    exact left_lt (s := s) hSource (current_lt_step (s := s.beginLexeme) hPeek) hPeek
  · trivial

/-- Reads the text to its end. -/
def run (s : Pass σ) : Pass σ := Loop.run ⟨another, left, left_another_lt⟩ s

theorem run_eq_elim (s : Pass σ) : s.run = s.another.elim run id := Loop.run_eq _ s

theorem run_of_none {s : Pass σ} (h : s.peek? = none) : s.run = s := by
  rw [run_eq_elim, another, h]
  rfl

theorem run_of_some {s : Pass σ} {c : Char} (h : s.peek? = some c) :
    s.run = s.beginLexeme.step.run := by
  rw [run_eq_elim, another, h]
  rfl

omit [Sink σ] in
/-- The tokens that a pass has filed, and the line it has come to. -/
def stream (s : Pass σ) : TokenStream := ⟨s.tokens.toList, s.line⟩

end Pass

end LoxLexer
