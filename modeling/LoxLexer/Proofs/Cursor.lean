import Mathlib.Computability.StateTransition
import LoxLexer.Proofs.Pass
import LoxLexer.Proofs.RoundTrip

/-!
# The cursor of a pass

A pass holds two byte offsets into its text: where the lexeme began, and where it will read next. It
cuts texts out between such offsets, and it counts open comments down. All this is sound only while
the offsets are in order, lie in the text and cut no character, and while a comment is open.

These are statements on every moment of a run, also on those inside a loop. So a run is taken apart
here into moments, each with what the pass is busy with. From one moment to the next the pass moves
at most once; inside a loop it goes through one round. `Task.Fits` is the invariant: it says what
the pass has read since the lexeme began. A step keeps it, hence it holds at every moment.

## Main definitions

* `Pass.Moment.next`: the moment behind a moment.
* `Pass.Task.Fits`: what has been read since the lexeme began, by what the pass is busy with.

## Main results

* `Pass.reaches_run`: a run goes through its moments and ends where they end.
* `Pass.Moment.Sound.next`: a step keeps the invariant.
* `Pass.exists_turns`: a run is made of as many turns as the text has elements.
* `Pass.cursor_within_source`: every moment of a run is sound, and every turn moves on.
-/

namespace LoxLexer

open Text
open StateTransition (Reaches)

namespace Pass

/-! ## Moments -/

/-- What a pass is busy with. -/
inductive Task where
  /-- Between two elements. -/
  | between
  /-- In front of the first character of an element. -/
  | begun
  /-- Behind the first character of an element. -/
  | behind (c : Char)
  /-- In a line comment. -/
  | lineComment
  /-- Inside so many block comments. -/
  | blockComment (depth : Nat)
  /-- In a string that began on the given line. -/
  | string (startLine : Nat)
  /-- In front of the quote that closes a string, or at the end of the text. -/
  | stringEnd (startLine : Nat)
  /-- Behind the quote that closes a string. -/
  | closed (startLine : Nat)
  /-- In a word. -/
  | word
  /-- In the digits of a number that has had no point so far. -/
  | whole
  /-- In the digits of a number behind its point. -/
  | fraction
  /-- Behind a number. -/
  | numeral
deriving DecidableEq, Repr

/-- A pass in the middle of a run. -/
structure Moment (σ : Type) where
  task : Task
  pass : Pass σ

variable {σ : Type}

/-- The first moment behind the beginning of an element. -/
def Opening.moment : Opening σ → Moment σ
  | complete s => ⟨.between, s⟩
  | lineComment s => ⟨.lineComment, s⟩
  | blockComment s => ⟨.blockComment 1, s⟩
  | string s => ⟨.string s.line, s⟩
  | number s => ⟨.whole, s⟩
  | word s => ⟨.word, s⟩

variable [Sink σ]

/-- The moment behind a moment. There is none when the text is at its end. Inside a loop it is the
moment behind one round. -/
def Moment.next (m : Moment σ) : Option (Moment σ) :=
  let s := m.pass
  match m.task with
  | .between => if s.peek? = none then none else some ⟨.begun, s.beginLexeme⟩
  | .begun => s.peek?.map fun c => ⟨.behind c, s.advance⟩
  | .behind c => some (s.opening c).moment
  | .lineComment => some ((s.onward (· != '\n')).elim (⟨.lineComment, ·⟩) (⟨.between, ·⟩))
  | .blockComment depth =>
    some ((s.insideComment depth).elim (fun m => ⟨.blockComment m.1, m.2⟩) (⟨.between, ·⟩))
  | .string startLine =>
    some (s.insideString.elim (⟨.string startLine, ·⟩) (⟨.stringEnd startLine, ·⟩))
  | .stringEnd startLine => some (s.endString.elim (⟨.closed startLine, ·⟩) (⟨.between, ·⟩))
  | .closed startLine => some ⟨.between, s.fileString startLine⟩
  | .word => some ((s.onward isWordPart).elim (⟨.word, ·⟩) fun s => ⟨.between, s.fileWord⟩)
  | .whole =>
    some ((s.onward Char.isDigit).elim (⟨.whole, ·⟩) fun s =>
      s.point.elim (⟨.fraction, ·⟩) (⟨.numeral, ·⟩))
  | .fraction => some ((s.onward Char.isDigit).elim (⟨.fraction, ·⟩) (⟨.numeral, ·⟩))
  | .numeral => some ⟨.between, s.fileNumber⟩

/-- A moment and as many behind it as are asked for, or as there are. -/
def Moment.trail : Nat → Moment σ → List (Moment σ)
  | 0, m => [m]
  | count + 1, m => m :: m.next.elim [] (trail count)

theorem Moment.reaches_of_mem_trail {m n : Moment σ} {count : Nat} (h : n ∈ trail count m) :
    Reaches Moment.next m n := by
  induction count generalizing m with
  | zero => exact List.mem_singleton.1 h ▸ .refl
  | succ count ih =>
    rcases List.mem_cons.1 h with hHere | hBehind
    · exact hHere ▸ .refl
    · cases hNext : m.next with
      | none => simp [hNext] at hBehind
      | some next =>
        rw [hNext] at hBehind
        exact .head hNext (ih hBehind)

/-! ## A run goes through its moments -/

/-- Where each round of a loop leads on from moment to moment, the loop leads to what is behind
it. -/
theorem reaches_loop {α β : Type} {loop : Loop α β} (inside : α → Moment σ) (behind : β → Moment σ)
    (h : ∀ a, (loop.round a).elim (fun b => Reaches Moment.next (inside a) (inside b))
      fun r => Reaches Moment.next (inside a) (behind r)) (a : α) :
    Reaches Moment.next (inside a) (behind (loop.run a)) := by
  fun_induction Loop.run loop a with
  | case1 a b hRound ih =>
    have hAgain := h a
    rw [hRound] at hAgain
    exact hAgain.trans ih
  | case2 a r hRound =>
    have hLast := h a
    rwa [hRound] at hLast

/-- A loop goes through its moments where each of them leads on by one round. -/
theorem reaches_rounds {α β : Type} {loop : Loop α β} (inside : α → Moment σ)
    (behind : β → Moment σ) (h : ∀ a, (inside a).next = some ((loop.round a).elim inside behind))
    (a : α) : Reaches Moment.next (inside a) (behind (loop.run a)) := by
  apply reaches_loop
  intro a
  have hNext := h a
  cases hRound : loop.round a with
  | again b =>
    rw [hRound] at hNext
    exact .single hNext
  | last r =>
    rw [hRound] at hNext
    exact .single hNext

theorem reaches_lineComment (s : Pass σ) :
    Reaches Moment.next ⟨.lineComment, s⟩ ⟨.between, s.walk (· != '\n')⟩ :=
  reaches_rounds (⟨.lineComment, ·⟩) (⟨.between, ·⟩) (fun _ => rfl) s

theorem reaches_blockComment (depth : Nat) (s : Pass σ) :
    Reaches Moment.next ⟨.blockComment depth, s⟩ ⟨.between, s.skipComment depth⟩ :=
  reaches_rounds (fun m => ⟨.blockComment m.1, m.2⟩) (⟨.between, ·⟩) (fun _ => rfl) (depth, s)

theorem reaches_string (s : Pass σ) :
    Reaches Moment.next ⟨.string s.line, s⟩ ⟨.between, s.string⟩ := by
  have hSkip : Reaches Moment.next ⟨.string s.line, s⟩ ⟨.stringEnd s.line, s.skipString⟩ :=
    reaches_rounds (⟨.string s.line, ·⟩) (⟨.stringEnd s.line, ·⟩) (fun _ => rfl) s
  have hEnd : Moment.next ⟨.stringEnd s.line, s.skipString⟩ =
      some (s.skipString.endString.elim (⟨.closed s.line, ·⟩) (⟨.between, ·⟩)) := rfl
  refine hSkip.trans (.head hEnd ?_)
  rw [string]
  cases s.skipString.endString with
  | again t => exact .single rfl
  | last t => exact .refl

theorem reaches_fraction (s : Pass σ) :
    Reaches Moment.next (s.point.elim (⟨.fraction, ·⟩) (⟨.numeral, ·⟩)) ⟨.numeral, s.fraction⟩ := by
  rw [fraction]
  cases s.point with
  | again t => exact reaches_rounds (⟨.fraction, ·⟩) (⟨.numeral, ·⟩) (fun _ => rfl) t
  | last t => exact .refl

theorem reaches_number (s : Pass σ) : Reaches Moment.next ⟨.whole, s⟩ ⟨.between, s.number⟩ := by
  have hWhole : Reaches Moment.next ⟨.whole, s⟩
      ((s.walk Char.isDigit).point.elim (⟨.fraction, ·⟩) (⟨.numeral, ·⟩)) :=
    reaches_rounds (⟨.whole, ·⟩)
      (fun t : Pass σ => t.point.elim (⟨.fraction, ·⟩) (⟨.numeral, ·⟩)) (fun _ => rfl) s
  exact hWhole.trans ((reaches_fraction _).trans (.single rfl))

theorem reaches_word (s : Pass σ) : Reaches Moment.next ⟨.word, s⟩ ⟨.between, s.word⟩ :=
  reaches_rounds (⟨.word, ·⟩) (fun t : Pass σ => ⟨.between, t.fileWord⟩) (fun _ => rfl) s

/-- Behind the beginning of an element a pass goes on to the end of the element. -/
theorem reaches_readOn (o : Opening σ) : Reaches Moment.next o.moment ⟨.between, o.readOn⟩ := by
  cases o with
  | complete s => exact .refl
  | lineComment s => exact reaches_lineComment s
  | blockComment s => exact reaches_blockComment 1 s
  | string s => exact reaches_string s
  | number s => exact reaches_number s
  | word s => exact reaches_word s

theorem reaches_turn {s : Pass σ} {c : Char} (h : s.peek? = some c) :
    Reaches Moment.next ⟨.between, s⟩ ⟨.between, s.turn⟩ := by
  have hPeek : s.beginLexeme.peek? = some c := h
  have hTurn : s.turn = s.beginLexeme.advance.dispatch c := by
    rw [turn, step, hPeek]
  rw [hTurn]
  refine .head (b := ⟨.begun, s.beginLexeme⟩) (by simp [Moment.next, h]) ?_
  refine .head (b := ⟨.behind c, s.beginLexeme.advance⟩) (by simp [Moment.next, hPeek]) ?_
  exact .head rfl (reaches_readOn (s.beginLexeme.advance.opening c))

/-- A run goes through its moments up to the end of the text. -/
theorem reaches_run (s : Pass σ) : Reaches Moment.next ⟨.between, s⟩ ⟨.between, s.run⟩ := by
  refine reaches_loop (⟨.between, ·⟩) (⟨.between, ·⟩) (fun s => ?_) s
  show (another s).elim _ _
  unfold another
  split
  · rename_i c hPeek
    exact reaches_turn hPeek
  · exact .refl

theorem peek?_run (s : Pass σ) : s.run.peek? = none := by
  refine Loop.run_induction (P := fun _ => True) (Q := (peek? · = none)) (fun s _ => ?_) trivial
  show (another s).elim _ _
  unfold another
  split
  · trivial
  · assumption

/-! ## The invariant -/

/-- What a pass has read since the lexeme began, `front`, and what it has in front of it, `after`,
by what it is busy with. -/
def Task.Fits : Task → (front after : List Char) → Prop
  | .begun, front, _ => front = []
  | .behind c, front, _ => front = [c]
  | .blockComment depth, _, _ => 1 ≤ depth
  | .string _, front, _ => ∃ body, front = '"' :: body
  | .stringEnd _, front, after =>
    (∃ body, front = '"' :: body) ∧ (after = [] ∨ after.head? = some '"')
  | .closed _, front, _ => ∃ body, front = '"' :: (body ++ ['"'])
  | .whole, front, _ => Token.IsDigits front
  | .fraction, front, after =>
    ∃ whole places, front = whole ++ '.' :: places ∧ Token.IsDigits whole ∧
      (∀ c ∈ places, c.isDigit = true) ∧ (places = [] → after.head?.any Char.isDigit = true)
  | .numeral, front, _ => Token.IsNumeral front
  | .between, _, _ => True
  | .lineComment, _, _ => True
  | .word, _, _ => True

omit [Sink σ] in
/-- The pass stands in the source between characters, and what it has read fits to what it is busy
with. -/
def Moment.Sound (source : String) (m : Moment σ) : Prop :=
  ∃ before front after, m.pass.Reads before front after ∧
    source.toList = before ++ (front ++ after) ∧ m.task.Fits front after

omit [Sink σ] in
theorem sound_start (source : String) (sink : σ) :
    Moment.Sound source ⟨.between, Pass.ofSource source sink⟩ :=
  ⟨[], [], source.toList, ⟨Stands.ofSource source sink, rfl⟩, rfl, trivial⟩

namespace Reads

variable {source : String} {s : Pass σ} {before front after : List Char}

omit [Sink σ] in
theorem advance {c : Char} (h : s.Reads before front (c :: after)) :
    s.advance.Reads before (front ++ [c]) after := by
  have hStands := h.stands.advance
  have hStart : s.advance.start = s.start := by rw [h.stands.advance_eq, forward]
  rw [List.append_assoc] at hStands
  exact ⟨hStands, hStart.trans h.start_eq⟩

omit [Sink σ] in
theorem forward (cs : List Char) (h : s.Reads before front (cs ++ after)) :
    (s.forward (byteLength cs)).Reads before (front ++ cs) after := by
  have hStands := h.stands.forward cs
  rw [List.append_assoc] at hStands
  exact ⟨hStands, h.start_eq⟩

/-- An element that is read as a whole has been read since the lexeme began. -/
theorem dispatch {c : Char} (h : s.Reads before [c] after) :
    (s.dispatch c).Reads before (Element.read c after).1.text (Element.read c after).2 := by
  have hText := Element.text_append_rest_read c after
  rw [h.dispatch_eq]
  refine ⟨⟨?_, ?_⟩, h.start_eq⟩
  · show s.source.toList = _
    rw [h.stands.source_eq, List.append_assoc, List.append_assoc, hText, List.singleton_append]
  · show s.start + byteLength (Element.read c after).1.text = _
    rw [h.start_eq, byteLength_append]

omit [Sink σ] in
theorem nextLine (h : s.Reads before front after) : s.nextLine.Reads before front after :=
  ⟨⟨h.stands.source_eq, h.stands.current_eq⟩, h.start_eq⟩

omit [Sink σ] in
theorem push (kind : TokenKind) (literal : Option Literal) (line : Nat)
    (h : s.Reads before front after) : (s.push kind literal line).Reads before front after :=
  ⟨⟨h.stands.source_eq, h.stands.current_eq⟩, h.start_eq⟩

theorem report (error : LexicalError) (h : s.Reads before front after) :
    (s.report error).Reads before front after :=
  ⟨⟨h.stands.source_eq, h.stands.current_eq⟩, h.start_eq⟩

omit [Sink σ] in
theorem fileWord (h : s.Reads before front after) : s.fileWord.Reads before front after := by
  unfold Pass.fileWord
  split
  · exact h.push _ _ _
  · exact h.push _ _ _

omit [Sink σ] in
/-- The bytes of the lexeme lie in the source. -/
theorem isWithin (h : s.Reads before front after)
    (hText : source.toList = before ++ (front ++ after)) :
    ByteRange.IsWithin ⟨s.start, s.current⟩ source := by
  have hWithin := isWithin_of_append hText
  rwa [← byteLength_append, ← h.stands.current_eq, ← h.start_eq] at hWithin

omit [Sink σ] in
theorem source_eq (h : s.Reads before front after)
    (hText : source.toList = before ++ (front ++ after)) : s.source = source := by
  rw [← String.toList_inj, h.stands.source_eq, hText, List.append_assoc]

omit [Sink σ] in
/-- A pass may read on to a task that what it has read then fits to. -/
theorem sound_forward {task : Task} (cs : List Char) (h : s.Reads before front (cs ++ after))
    (hText : source.toList = before ++ (front ++ (cs ++ after)))
    (hFits : task.Fits (front ++ cs) after) :
    Moment.Sound source ⟨task, s.forward (byteLength cs)⟩ := by
  refine ⟨before, front ++ cs, after, h.forward cs, ?_, hFits⟩
  rw [hText, List.append_assoc]

omit [Sink σ] in
theorem sound_advance {task : Task} {c : Char} (h : s.Reads before front (c :: after))
    (hText : source.toList = before ++ (front ++ c :: after))
    (hFits : task.Fits (front ++ [c]) after) : Moment.Sound source ⟨task, s.advance⟩ := by
  refine ⟨before, front ++ [c], after, h.advance, ?_, hFits⟩
  rw [hText, List.append_assoc, List.singleton_append]

/-! Each lemma below goes through what can come next in front of a pass, and says to which task and
to which part of the source it leads. -/

omit [Sink σ] in
theorem sound_onward {p : Char → Bool} {task : Task} {done : Pass σ → Moment σ}
    (h : s.Reads before front after) (hText : source.toList = before ++ (front ++ after))
    (hOn : ∀ c rest, after = c :: rest → p c = true → task.Fits (front ++ [c]) rest)
    (hDone : after.head?.any p = false → (done s).Sound source) :
    Moment.Sound source ((s.onward p).elim (⟨task, ·⟩) done) := by
  rw [onward, h.stands.peek?_eq]
  cases after with
  | nil => exact hDone rfl
  | cons c rest =>
    by_cases hp : p c = true
    · rw [if_pos (by simp [hp])]
      exact h.sound_advance hText (hOn c rest rfl hp)
    · rw [if_neg (by simp [hp])]
      exact hDone (by simp [hp])

/-- An element that is complete with its beginning has been read as a whole. -/
theorem sound_complete {c : Char} {t : Pass σ} (h : s.Reads before [c] after)
    (hText : source.toList = before ++ ([c] ++ after)) (hComplete : s.opening c = .complete t) :
    Moment.Sound source ⟨.between, t⟩ := by
  have hReads := h.dispatch
  rw [Pass.dispatch, hComplete] at hReads
  refine ⟨before, _, _, hReads, ?_, trivial⟩
  rw [Element.text_append_rest_read, hText, List.singleton_append]

omit [Sink σ] in
theorem sound_slash (h : s.Reads before ['/'] after)
    (hText : source.toList = before ++ (['/'] ++ after)) : s.slash.moment.Sound source := by
  rw [slash, h.stands.accept?_eq, h.stands.accept?_eq]
  by_cases hLine : after.head? = some '/'
  · obtain ⟨rest, rfl⟩ := List.head?_eq_some_iff.1 hLine
    rw [if_pos hLine]
    exact h.sound_advance hText trivial
  rw [if_neg hLine]
  by_cases hBlock : after.head? = some '*'
  · obtain ⟨rest, rfl⟩ := List.head?_eq_some_iff.1 hBlock
    rw [if_pos hBlock]
    exact h.sound_advance hText (Nat.le_refl 1)
  · rw [if_neg hBlock]
    exact ⟨before, ['/'], after, h.push _ _ _, hText, trivial⟩

theorem sound_opening {c : Char} (h : s.Reads before [c] after)
    (hText : source.toList = before ++ ([c] ++ after)) : (s.opening c).moment.Sound source := by
  unfold opening
  split
  case h_15 => exact h.sound_slash hText
  case h_20 => exact ⟨before, _, after, h, hText, [], rfl⟩
  case h_21 =>
    split
    · rename_i hDigit
      exact ⟨before, [c], after, h, hText, by simp, by simpa using hDigit⟩
    split
    · exact ⟨before, [c], after, h, hText, trivial⟩
    · exact ⟨before, [c], after, h.report _, hText, trivial⟩
  all_goals exact h.sound_complete hText rfl

/-- The depth is counted down only inside a comment. -/
theorem sound_insideComment {depth : Nat} (h : s.Reads before front after)
    (hText : source.toList = before ++ (front ++ after)) (hDepth : 1 ≤ depth) :
    Moment.Sound source
      ((s.insideComment depth).elim (fun m => ⟨.blockComment m.1, m.2⟩) (⟨.between, ·⟩)) := by
  rw [insideComment, h.stands.peek?_eq]
  cases after with
  | nil => exact ⟨before, front, [], h.report _, hText, trivial⟩
  | cons c rest =>
    have hSecond : s.peekSecond? = rest.head? := h.stands.peekSecond?_eq
    dsimp only [List.head?_cons]
    by_cases hClosing : c = '*' ∧ s.peekSecond? = some '/'
    · obtain ⟨rfl, hSlash⟩ := hClosing
      obtain ⟨others, rfl⟩ := List.head?_eq_some_iff.1 (hSecond ▸ hSlash)
      rw [if_pos ⟨rfl, hSlash⟩]
      by_cases hLast : depth - 1 = 0
      · rw [if_pos hLast]
        exact h.sound_forward ['*', '/'] hText trivial
      · rw [if_neg hLast]
        exact h.sound_forward ['*', '/'] hText (Nat.pos_of_ne_zero hLast)
    rw [if_neg hClosing]
    by_cases hOpening : c = '/' ∧ s.peekSecond? = some '*'
    · obtain ⟨rfl, hStar⟩ := hOpening
      obtain ⟨others, rfl⟩ := List.head?_eq_some_iff.1 (hSecond ▸ hStar)
      rw [if_pos ⟨rfl, hStar⟩]
      exact h.sound_forward ['/', '*'] hText (Nat.succ_pos depth)
    rw [if_neg hOpening]
    by_cases hFeed : c = '\n'
    · subst hFeed
      rw [if_pos rfl]
      exact h.nextLine.sound_forward ['\n'] hText hDepth
    · rw [if_neg hFeed]
      exact h.sound_advance hText hDepth

omit [Sink σ] in
theorem sound_insideString {startLine : Nat} (h : s.Reads before front after)
    (hText : source.toList = before ++ (front ++ after)) (hFront : ∃ body, front = '"' :: body) :
    Moment.Sound source
      (s.insideString.elim (⟨.string startLine, ·⟩) (⟨.stringEnd startLine, ·⟩)) := by
  rw [insideString, h.stands.peek?_eq]
  cases after with
  | nil => exact ⟨before, front, [], h, hText, hFront, .inl rfl⟩
  | cons c rest =>
    obtain ⟨body, rfl⟩ := hFront
    dsimp only [List.head?_cons]
    by_cases hQuote : c = '"'
    · subst hQuote
      rw [if_pos rfl]
      exact ⟨before, _, _, h, hText, ⟨body, rfl⟩, .inr rfl⟩
    rw [if_neg hQuote]
    by_cases hFeed : c = '\n'
    · subst hFeed
      rw [if_pos rfl]
      exact h.nextLine.sound_advance hText ⟨body ++ ['\n'], rfl⟩
    · rw [if_neg hFeed]
      exact h.sound_advance hText ⟨body ++ [c], rfl⟩

/-- A string that has not come to the end of the text has come to its closing quote. -/
theorem sound_endString {startLine : Nat} (h : s.Reads before front after)
    (hText : source.toList = before ++ (front ++ after))
    (hFits : (Task.stringEnd startLine).Fits front after) :
    Moment.Sound source (s.endString.elim (⟨.closed startLine, ·⟩) (⟨.between, ·⟩)) := by
  obtain ⟨⟨body, rfl⟩, hEnd⟩ := hFits
  rw [endString]
  by_cases hAtEnd : s.isAtEnd = true
  · rw [if_pos hAtEnd]
    exact ⟨before, _, after, h.report _, hText, trivial⟩
  · rw [if_neg hAtEnd]
    rw [h.stands.isAtEnd_iff] at hAtEnd
    obtain ⟨rest, rfl⟩ := List.head?_eq_some_iff.1 (hEnd.resolve_left hAtEnd)
    exact h.sound_advance hText ⟨body, rfl⟩

omit [Sink σ] in
/-- A point belongs to a number only if a digit comes behind it. -/
theorem sound_point (h : s.Reads before front after)
    (hText : source.toList = before ++ (front ++ after)) (hDigits : Token.IsDigits front) :
    Moment.Sound source (s.point.elim (⟨.fraction, ·⟩) (⟨.numeral, ·⟩)) := by
  rw [point]
  by_cases hPoint : s.peek? = some '.' ∧ s.peekSecond?.any Char.isDigit = true
  · rw [if_pos hPoint]
    obtain ⟨rest, rfl⟩ := List.head?_eq_some_iff.1 (h.stands.peek?_eq ▸ hPoint.1)
    have hSecond : s.peekSecond? = rest.head? := h.stands.peekSecond?_eq
    refine h.sound_advance hText ⟨front, [], rfl, hDigits, by simp, ?_⟩
    intro _
    rw [← hSecond]
    exact hPoint.2
  · rw [if_neg hPoint]
    exact ⟨before, front, after, h, hText, .inl hDigits⟩

end Reads

theorem forall_isDigit_concat {cs : List Char} {c : Char} (h : ∀ d ∈ cs, d.isDigit = true)
    (hc : c.isDigit = true) : ∀ d ∈ cs ++ [c], d.isDigit = true := by
  intro d hd
  rcases List.mem_append.1 hd with hOld | hNew
  · exact h d hOld
  · rwa [List.mem_singleton.1 hNew]

/-- A step keeps the invariant. -/
theorem Moment.Sound.next {source : String} {m n : Moment σ} (h : m.Sound source)
    (hNext : m.next = some n) : n.Sound source := by
  obtain ⟨task, s⟩ := m
  obtain ⟨before, front, after, hReads, hText, hFits⟩ := h
  dsimp only at hReads hFits
  cases task with
  | between =>
    simp only [Moment.next, Option.ite_none_left_eq_some, Option.some.injEq] at hNext
    obtain rfl := hNext.2
    have hBegin : s.beginLexeme.Stands ((before ++ front) ++ []) after := by
      rw [List.append_nil]
      exact ⟨hReads.stands.source_eq, hReads.stands.current_eq⟩
    refine ⟨before ++ front, [], after, ⟨hBegin, hReads.stands.current_eq⟩, ?_, rfl⟩
    rw [hText, List.nil_append, List.append_assoc]
  | begun =>
    obtain rfl : front = [] := hFits
    simp only [Moment.next, hReads.stands.peek?_eq, Option.map_eq_some_iff] at hNext
    obtain ⟨c, hHead, rfl⟩ := hNext
    obtain ⟨rest, rfl⟩ := List.head?_eq_some_iff.1 hHead
    exact hReads.sound_advance hText rfl
  | behind c =>
    obtain rfl : front = [c] := hFits
    obtain rfl := Option.some.inj hNext
    exact hReads.sound_opening hText
  | lineComment =>
    obtain rfl := Option.some.inj hNext
    refine hReads.sound_onward hText (fun _ _ _ _ => trivial) ?_
    intro _
    exact ⟨before, front, after, hReads, hText, trivial⟩
  | blockComment depth =>
    obtain rfl := Option.some.inj hNext
    exact hReads.sound_insideComment hText hFits
  | string startLine =>
    obtain rfl := Option.some.inj hNext
    exact hReads.sound_insideString hText hFits
  | stringEnd startLine =>
    obtain rfl := Option.some.inj hNext
    exact hReads.sound_endString hText hFits
  | closed startLine =>
    obtain rfl := Option.some.inj hNext
    exact ⟨before, front, after, hReads.push _ _ _, hText, trivial⟩
  | word =>
    obtain rfl := Option.some.inj hNext
    refine hReads.sound_onward hText (fun _ _ _ _ => trivial) ?_
    intro _
    exact ⟨before, front, after, hReads.fileWord, hText, trivial⟩
  | whole =>
    obtain rfl := Option.some.inj hNext
    obtain ⟨hSome, hDigits⟩ : Token.IsDigits front := hFits
    refine hReads.sound_onward hText ?_ fun _ => hReads.sound_point hText ⟨hSome, hDigits⟩
    intro c rest _ hDigit
    exact ⟨by simp, forall_isDigit_concat hDigits hDigit⟩
  | fraction =>
    obtain rfl := Option.some.inj hNext
    obtain ⟨whole, places, rfl, hWhole, hPlaces, hMore⟩ := hFits
    refine hReads.sound_onward hText ?_ ?_
    · intro c rest _ hDigit
      exact ⟨whole, places ++ [c], by simp, hWhole, forall_isDigit_concat hPlaces hDigit, by simp⟩
    · intro hStop
      have hSome : places ≠ [] := by
        intro hNone
        rw [hMore hNone] at hStop
        simp at hStop
      exact ⟨before, _, after, hReads, hText, .inr ⟨whole, places, hWhole, ⟨hSome, hPlaces⟩, rfl⟩⟩
  | numeral =>
    obtain rfl := Option.some.inj hNext
    exact ⟨before, front, after, hReads.push _ _ _, hText, trivial⟩

/-- Every moment of a run is sound. -/
theorem Moment.Sound.of_reaches {source : String} {m n : Moment σ} (h : m.Sound source)
    (hReach : Reaches Moment.next m n) : n.Sound source := by
  induction hReach with
  | refl => exact h
  | tail _ hNext ih => exact ih.next hNext

/-! ## What the invariant says of offsets -/

omit [Sink σ] in
/-- Between the quotes of a string that is closed lies its body. -/
theorem Reads.isWithin_quotes {source : String} {s : Pass σ} {before body after : List Char}
    (h : s.Reads before ('"' :: (body ++ ['"'])) after)
    (hText : source.toList = before ++ ('"' :: (body ++ ['"']) ++ after)) :
    ByteRange.IsWithin ⟨s.start + 1, s.current - 1⟩ source := by
  have hQuote : '"'.utf8Size = 1 := rfl
  have hBody : source.toList = (before ++ ['"']) ++ (body ++ ('"' :: after)) := by
    rw [hText]
    simp
  have hWithin := isWithin_of_append hBody
  have hStart : byteLength (before ++ ['"']) = s.start + 1 := by
    rw [byteLength_append, ← h.start_eq]
    rfl
  have hStop : byteLength (before ++ ['"']) + byteLength body = s.current - 1 := by
    rw [h.stands.current_eq]
    simp only [byteLength_append, byteLength_cons, byteLength_nil, hQuote]
    omega
  rwa [hStop, hStart] at hWithin

/-- A numeral is a decimal. -/
theorem exists_decimal_of_isNumeral {cs : List Char} (h : Token.IsNumeral cs) :
    ∃ d, Decimal.parse? cs = some d := by
  obtain ⟨whole, fraction, hForm, rfl⟩ := Element.exists_number_of_isNumeral h
  exact ⟨_, Element.parse?_numberText hForm⟩

/-! ## Turns -/

theorem length_elements_le (cs : List Char) : (Element.elements cs).length ≤ cs.length := by
  fun_induction Element.elements cs with
  | case1 => exact Nat.le_refl 0
  | case2 c cs ih =>
    have hRest := Element.length_rest_read_le c cs
    simp only [List.length_cons]
    omega

/-- A run is made of as many turns as the text has elements. Each of them begins in front of a
character and moves on. -/
theorem exists_turns {s : Pass σ} {before after : List Char} (h : s.Stands before after) :
    turn^[(Element.elements after).length] s = s.run ∧
      ∀ k < (Element.elements after).length,
        (turn^[k] s).isAtEnd = false ∧ Reaches Moment.next ⟨.between, s⟩ ⟨.between, turn^[k] s⟩ ∧
          (turn^[k] s).current < (turn^[k + 1] s).current := by
  fun_induction Element.elements after generalizing s before with
  | case1 => exact ⟨(run_of_none h.peek?_eq).symm, fun k hk => absurd hk (Nat.not_lt_zero k)⟩
  | case2 c cs ih =>
    have hPeek : s.peek? = some c := h.peek?_eq
    have hSplit := Element.text_append_rest_read c cs
    have hBegin : s.beginLexeme.Stands before (c :: cs) := ⟨h.source_eq, h.current_eq⟩
    have hTurn : s.turn.Stands (before ++ (Element.read c cs).1.text) (Element.read c cs).2 := by
      rw [turn, h.beginLexeme_step]
      exact (hSplit.symm ▸ hBegin).finish rfl
    obtain ⟨hRun, hTurns⟩ := ih hTurn
    refine ⟨?_, ?_⟩
    · rw [List.length_cons, Function.iterate_succ_apply, hRun, run_of_some hPeek, turn]
    · intro k hk
      cases k with
      | zero =>
        refine ⟨?_, .refl, current_lt_step (s := s.beginLexeme) hPeek⟩
        rw [Bool.eq_false_iff, Function.iterate_zero_apply, Ne, h.isAtEnd_iff]
        exact List.cons_ne_nil c cs
      | succ k =>
        obtain ⟨hMore, hReach, hOn⟩ := hTurns k (Nat.lt_of_succ_lt_succ hk)
        rw [Function.iterate_succ_apply, Function.iterate_succ_apply]
        exact ⟨hMore, (reaches_turn hPeek).trans hReach, hOn⟩

/-- At every moment of a run, inside a loop or not, the two offsets of the pass are in order, lie in
the text and cut no character, so that the lexeme can be cut out. So do those between which the
value of a closed string is cut out. Inside a block comment there is a comment to close. A number is
handed on as digits, perhaps with a point and digits behind it, and that is a decimal. And from
every moment the run comes to its end.

The run is made of turns, at most as many as the text has characters. Each turn begins at such a
moment and in front of the end, and each moves on. -/
theorem cursor_within_source (source : String) (sink : σ) :
    let start : Pass σ := Pass.ofSource source sink
    (∀ m : Moment σ, Reaches Moment.next ⟨.between, start⟩ m →
      m.pass.source = source ∧
        ByteRange.IsWithin ⟨m.pass.start, m.pass.current⟩ source ∧
        (∀ startLine, m.task = .closed startLine →
          ByteRange.IsWithin ⟨m.pass.start + 1, m.pass.current - 1⟩ source) ∧
        (∀ depth, m.task = .blockComment depth → 1 ≤ depth) ∧
        (m.task = .numeral → Token.IsNumeral m.pass.lexeme.toList ∧
          ∃ d, Decimal.parse? m.pass.lexeme.toList = some d) ∧
        Reaches Moment.next m ⟨.between, start.run⟩) ∧
      Moment.next ⟨.between, start.run⟩ = none ∧
      ∃ count ≤ source.length, turn^[count] start = start.run ∧
        ∀ k < count, (turn^[k] start).isAtEnd = false ∧
          Reaches Moment.next ⟨.between, start⟩ ⟨.between, turn^[k] start⟩ ∧
            (turn^[k] start).current < (turn^[k + 1] start).current := by
  have hEnd : Moment.next ⟨.between, (Pass.ofSource source sink).run⟩ = none := by
    simp [Moment.next, peek?_run]
  refine ⟨?_, hEnd, ?_⟩
  · intro m hReach
    obtain ⟨before, front, after, hReads, hText, hFits⟩ :=
      (sound_start source sink).of_reaches hReach
    refine ⟨hReads.source_eq hText, hReads.isWithin hText, ?_, ?_, ?_, ?_⟩
    · intro startLine hTask
      rw [hTask] at hFits
      obtain ⟨body, rfl⟩ := hFits
      exact hReads.isWithin_quotes hText
    · intro depth hTask
      rw [hTask] at hFits
      exact hFits
    · intro hTask
      rw [hTask] at hFits
      rw [hReads.stands.lexeme_eq hReads.start_eq, String.toList_ofList]
      exact ⟨hFits, exists_decimal_of_isNumeral hFits⟩
    · -- A moment has at most one behind it, so this one lies on the way to the last.
      rcases StateTransition.reaches_total hReach (reaches_run (Pass.ofSource source sink)) with
        hOn | hBack
      · exact hOn
      · rcases Relation.ReflTransGen.cases_head hBack with hSame | ⟨n, hNext, -⟩
        · exact hSame ▸ .refl
        · rw [hEnd] at hNext
          simp at hNext
  · obtain ⟨hRun, hTurns⟩ := exists_turns (Stands.ofSource source sink)
    exact ⟨_, length_elements_le source.toList, hRun, hTurns⟩

/-- A comment in a comment, a string with a character of two bytes and a number with a point. -/
theorem cursor_within_source_nested :
    (∃ m : Moment Silence,
      Reaches Moment.next ⟨.between, Pass.ofSource "/*/**/*/\"é\"1.5" ⟨⟩⟩ m ∧
        m.task = .blockComment 2 ∧ 1 ≤ 2) ∧
      (∃ m : Moment Silence,
        Reaches Moment.next ⟨.between, Pass.ofSource "/*/**/*/\"é\"1.5" ⟨⟩⟩ m ∧
          m.task = .closed 1 ∧
          m.pass.between (m.pass.start + 1) (m.pass.current - 1) = "é" ∧
          ByteRange.IsWithin ⟨m.pass.start + 1, m.pass.current - 1⟩ "/*/**/*/\"é\"1.5") ∧
      ∃ m : Moment Silence,
        Reaches Moment.next ⟨.between, Pass.ofSource "/*/**/*/\"é\"1.5" ⟨⟩⟩ m ∧
          m.task = .numeral ∧ m.pass.lexeme = "1.5" ∧ Token.IsNumeral m.pass.lexeme.toList ∧
          ∃ d, Decimal.parse? m.pass.lexeme.toList = some d := by
  have hMoments := (cursor_within_source "/*/**/*/\"é\"1.5" Silence.mk).1
  have hComment : ∃ m ∈ Moment.trail 19 ⟨.between, Pass.ofSource "/*/**/*/\"é\"1.5" Silence.mk⟩,
      m.task = .blockComment 2 := by decide +kernel
  have hClosed : ∃ m ∈ Moment.trail 19 ⟨.between, Pass.ofSource "/*/**/*/\"é\"1.5" Silence.mk⟩,
      m.task = .closed 1 ∧ m.pass.between (m.pass.start + 1) (m.pass.current - 1) = "é" := by
    decide +kernel
  have hNumeral : ∃ m ∈ Moment.trail 19 ⟨.between, Pass.ofSource "/*/**/*/\"é\"1.5" Silence.mk⟩,
      m.task = .numeral ∧ m.pass.lexeme = "1.5" := by decide +kernel
  refine ⟨?_, ?_, ?_⟩
  · obtain ⟨m, hMem, hTask⟩ := hComment
    have hReach := Moment.reaches_of_mem_trail hMem
    obtain ⟨-, -, -, hDepth, -⟩ := hMoments m hReach
    exact ⟨m, hReach, hTask, hDepth 2 hTask⟩
  · obtain ⟨m, hMem, hTask, hValue⟩ := hClosed
    have hReach := Moment.reaches_of_mem_trail hMem
    obtain ⟨-, -, hWithin, -⟩ := hMoments m hReach
    exact ⟨m, hReach, hTask, hValue, hWithin 1 hTask⟩
  · obtain ⟨m, hMem, hTask, hLexeme⟩ := hNumeral
    have hReach := Moment.reaches_of_mem_trail hMem
    obtain ⟨-, -, -, -, hForm, -⟩ := hMoments m hReach
    exact ⟨m, hReach, hTask, hLexeme, hForm hTask⟩

end Pass

end LoxLexer
