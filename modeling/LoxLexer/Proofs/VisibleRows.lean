import LoxLexer.Proofs.ShownLines

/-!
# What a terminal shows of an excerpt

A terminal takes the escape codes out of a text and shows what is left. Of an excerpt it shows rows
whose bars stand in one column, and in no row does a style outlast the row.

A styled text is read piece by piece. What a piece gives does not hang on what follows it, since a
code never runs on into the next piece and plain pieces have no codes in them. So the rows are put
together from their pieces, and the excerpt from its rows.

## Main results

* `Terminal.flatMap_text_signals`: a terminal takes the whole text, in its order.
* `Terminal.signals_append_of_escapeCode?`: a code is read alike whatever follows it.
* `Terminal.Shows.apply`: a style is not seen, and it is turned off where it ends.
* `Report.visible_excerpt`: the rows that a terminal shows of an excerpt.
-/

namespace LoxLexer

open Text

namespace Terminal

/-! ## Escape codes -/

/-- The character that begins an escape code. -/
def escape : Char := '\x1b'

/-- A character that may stand among the parameters of an escape code. -/
def isParameter (c : Char) : Bool := c.isDigit || c == ';'

/-- The parameters of an escape code, up to the `m` that ends it, and what follows it. -/
def parameters? : List Char → Option (List Char × List Char)
  | [] => none
  | c :: cs =>
    if c = 'm' then some ([], cs)
    else if isParameter c then (parameters? cs).map fun (ps, rest) => (c :: ps, rest)
    else none

/-- The escape code at the beginning of a text: its parameters and what follows it. -/
def escapeCode? : List Char → Option (List Char × List Char)
  | c :: '[' :: cs => if c = escape then parameters? cs else none
  | _ => none

section

variable {cs ps rest : List Char}

theorem parameters?_eq_some_iff :
    parameters? cs = some (ps, rest) ↔
      (∀ p ∈ ps, isParameter p = true) ∧ cs = ps ++ 'm' :: rest := by
  constructor
  · intro h
    induction cs generalizing ps with
    | nil => cases h
    | cons c cs ih =>
      rw [parameters?] at h
      by_cases hEnd : c = 'm'
      · rw [if_pos hEnd] at h
        cases h
        exact ⟨fun p hMem => absurd hMem List.not_mem_nil, by rw [hEnd, List.nil_append]⟩
      · rw [if_neg hEnd] at h
        by_cases hParameter : isParameter c = true
        · rw [if_pos hParameter] at h
          obtain ⟨⟨qs, _⟩, hRest, hEq⟩ := Option.map_eq_some_iff.1 h
          cases hEq
          obtain ⟨hAll, hSplit⟩ := ih hRest
          exact ⟨List.forall_mem_cons.2 ⟨hParameter, hAll⟩, by rw [hSplit, List.cons_append]⟩
        · rw [if_neg hParameter] at h
          cases h
  · intro ⟨hAll, hSplit⟩
    subst hSplit
    induction ps with
    | nil => rfl
    | cons p ps ih =>
      obtain ⟨hParameter, hRest⟩ := List.forall_mem_cons.1 hAll
      have hEnd : p ≠ 'm' := by
        intro hEq
        rw [hEq] at hParameter
        exact absurd hParameter (by decide)
      rw [List.cons_append, parameters?, if_neg hEnd, if_pos hParameter, ih hRest, Option.map_some]

theorem escapeCode?_eq_some_iff :
    escapeCode? cs = some (ps, rest) ↔
      (∀ p ∈ ps, isParameter p = true) ∧ cs = escape :: '[' :: ps ++ 'm' :: rest := by
  constructor
  · intro h
    unfold escapeCode? at h
    split at h
    · split at h
      · rename_i hEscape
        obtain ⟨hAll, hSplit⟩ := parameters?_eq_some_iff.1 h
        exact ⟨hAll, by rw [hEscape, hSplit, List.cons_append, List.cons_append]⟩
      · cases h
    · cases h
  · intro ⟨hAll, hSplit⟩
    rw [hSplit, List.cons_append, List.cons_append, escapeCode?, if_pos rfl]
    exact parameters?_eq_some_iff.2 ⟨hAll, rfl⟩

theorem escapeCode?_append (h : escapeCode? cs = some (ps, rest)) (ds : List Char) :
    escapeCode? (cs ++ ds) = some (ps, rest ++ ds) := by
  obtain ⟨hAll, hSplit⟩ := escapeCode?_eq_some_iff.1 h
  apply escapeCode?_eq_some_iff.2
  refine ⟨hAll, ?_⟩
  rw [hSplit, List.append_assoc]
  rfl

theorem length_of_escapeCode? (h : escapeCode? cs = some (ps, rest)) :
    rest.length < cs.length := by
  rw [(escapeCode?_eq_some_iff.1 h).2]
  simp only [List.length_append, List.length_cons]
  omega

theorem escapeCode?_cons_of_ne {c : Char} (h : c ≠ escape) (cs : List Char) :
    escapeCode? (c :: cs) = none := by
  unfold escapeCode?
  split
  · rename_i hList
    cases hList
    exact if_neg h
  · rfl

end

/-! ## Signals -/

/-- What a terminal takes from a text at once: a character, which it shows, or an escape code. -/
inductive Signal where
  | shown (c : Char)
  | code (parameters : List Char)
deriving DecidableEq, Repr

/-- The signals of a text. -/
def signals (cs : List Char) : List Signal :=
  match cs with
  | [] => []
  | c :: cs =>
    match _ : escapeCode? (c :: cs) with
    | some (ps, rest) => .code ps :: signals rest
    | none => .shown c :: signals cs
termination_by cs.length
decreasing_by
  · exact length_of_escapeCode? ‹_›
  · exact Nat.lt_succ_self _

namespace Signal

/-- The part of the text that a signal is taken from. -/
def text : Signal → List Char
  | shown c => [c]
  | code ps => escape :: '[' :: ps ++ ['m']

/-- The character that is shown. -/
def shown? : Signal → Option Char
  | shown c => some c
  | code _ => none

end Signal

/-- A text without its escape codes. -/
def visible (s : String) : String := String.ofList ((signals s.toList).filterMap Signal.shown?)

/-- The parameters of the code that turns all styles off. -/
def off : List Char := ['0']

/-- Behind every code that turns a style on all styles are turned off, in the same row. -/
def Settled (received : List Signal) : Prop :=
  ∀ before ps after, received = before ++ .code ps :: after → ps ≠ off →
    ∃ styled rest, after = styled ++ .code off :: rest ∧ .shown '\n' ∉ styled

theorem signals_nil : signals [] = [] := by
  rw [signals]

theorem signals_of_escapeCode? {cs ps rest : List Char} (h : escapeCode? cs = some (ps, rest)) :
    signals cs = .code ps :: signals rest := by
  cases cs with
  | nil => simp [escapeCode?] at h
  | cons c cs =>
    rw [signals]
    split
    · rename_i hCode
      rw [h] at hCode
      cases hCode
      rfl
    · rename_i hCode
      rw [h] at hCode
      cases hCode

theorem signals_cons_of_none {c : Char} {cs : List Char} (h : escapeCode? (c :: cs) = none) :
    signals (c :: cs) = .shown c :: signals cs := by
  rw [signals]
  split
  · rename_i hCode
    rw [h] at hCode
    cases hCode
  · rfl

/-- A terminal takes the whole text, in its order. -/
theorem flatMap_text_signals (cs : List Char) : (signals cs).flatMap Signal.text = cs := by
  induction cs using signals.induct with
  | case1 => rw [signals_nil, List.flatMap_nil]
  | case2 c cs ps rest hCode ih =>
    rw [signals_of_escapeCode? hCode, List.flatMap_cons, ih, (escapeCode?_eq_some_iff.1 hCode).2,
      Signal.text,
      List.append_assoc, List.singleton_append]
  | case3 c cs hNone ih =>
    rw [signals_cons_of_none hNone, List.flatMap_cons, ih, Signal.text, List.singleton_append]

/-- A code is read alike whatever follows it. -/
theorem signals_append_of_escapeCode? {cs ps : List Char} (h : escapeCode? cs = some (ps, []))
    (ds : List Char) : signals (cs ++ ds) = [.code ps] ++ signals ds := by
  rw [signals_of_escapeCode? (escapeCode?_append h ds)]
  rfl

theorem signals_append_of_not_mem {cs : List Char} (h : escape ∉ cs) (ds : List Char) :
    signals (cs ++ ds) = cs.map .shown ++ signals ds := by
  induction cs with
  | nil => rfl
  | cons c cs ih =>
    rw [List.mem_cons, not_or] at h
    rw [List.cons_append, signals_cons_of_none (escapeCode?_cons_of_ne (Ne.symm h.1) _),
      ih h.2]
    rfl

/-! ## Settled signals -/

namespace Settled

variable {received later : List Signal}

theorem append (h : Settled received) (hLater : Settled later) : Settled (received ++ later) := by
  intro before ps after hSplit hOn
  rcases List.append_eq_append_iff.1 hSplit with ⟨front, -, hBehind⟩ | ⟨back, hFirst, hBehind⟩
  · exact hLater front ps after hBehind hOn
  · cases back with
    | nil => exact hLater [] ps after hBehind.symm hOn
    | cons signal back =>
      rw [List.cons_append] at hBehind
      injection hBehind with hSignal hAfter
      subst hSignal
      obtain ⟨styled, rest, rfl, hFeed⟩ := h before ps back hFirst hOn
      refine ⟨styled, rest ++ later, ?_, hFeed⟩
      rw [hAfter, List.append_assoc, List.cons_append]

theorem map_shown (cs : List Char) : Settled (cs.map .shown) := by
  intro before ps after hSplit _
  have hCode : Signal.code ps ∈ cs.map .shown := by
    rw [hSplit]
    exact List.mem_append_right before List.mem_cons_self
  obtain ⟨c, -, hShown⟩ := List.mem_map.1 hCode
  cases hShown

theorem off_singleton : Settled [.code off] := by
  intro before ps after hSplit hOn
  have hCode : Signal.code ps ∈ [.code off] := by
    rw [hSplit]
    exact List.mem_append_right before List.mem_cons_self
  cases List.mem_singleton.1 hCode
  exact absurd rfl hOn

/-- A code may stand in front of what ends with all styles off. -/
theorem code_cons (h : Settled received) (hFeed : .shown '\n' ∉ received) (ps : List Char) :
    Settled (.code ps :: (received ++ [.code off])) := by
  intro before qs after hSplit hOn
  cases before with
  | nil =>
    injection hSplit with _ hAfter
    exact ⟨received, [], hAfter.symm, hFeed⟩
  | cons signal before =>
    injection hSplit with _ hBehind
    exact h.append off_singleton before qs after hBehind hOn

end Settled

/-! ## Pieces of a text -/

/-- A terminal shows `plain` for the text `s`, whatever follows it, and all styles that `s` turns on
are turned off again. -/
def Shows (s plain : String) : Prop :=
  ∃ received, (∀ ds, signals (s.toList ++ ds) = received ++ signals ds) ∧ Settled received ∧
    received.filterMap Signal.shown? = plain.toList

namespace Shows

variable {s t plain rest : String}

theorem signals_eq (h : Shows s plain) : Settled (signals s.toList) ∧ visible s = plain := by
  obtain ⟨received, hReads, hSettled, hShown⟩ := h
  have hAll : signals s.toList = received := by
    rw [← List.append_nil s.toList, hReads, signals_nil, List.append_nil]
  rw [visible, hAll, hShown, String.ofList_toList]
  exact ⟨hSettled, rfl⟩

theorem append (h : Shows s plain) (hRest : Shows t rest) : Shows (s ++ t) (plain ++ rest) := by
  obtain ⟨received, hReads, hSettled, hShown⟩ := h
  obtain ⟨later, hReads', hSettled', hShown'⟩ := hRest
  refine ⟨received ++ later, ?_, hSettled.append hSettled', ?_⟩
  · intro ds
    rw [String.toList_append, List.append_assoc, hReads, hReads', List.append_assoc]
  · rw [List.filterMap_append, hShown, hShown', String.toList_append]

theorem of_not_mem (h : escape ∉ s.toList) : Shows s s := by
  refine ⟨s.toList.map .shown, signals_append_of_not_mem h, Settled.map_shown _, ?_⟩
  rw [List.filterMap_map]
  exact List.filterMap_some

theorem append_space (h : Shows s plain) (hRest : Shows t rest) :
    Shows (s ++ " " ++ t) (plain ++ " " ++ rest) :=
  (h.append (of_not_mem (by decide))).append hRest

/-- A style is not seen, and it is turned off where it ends. -/
theorem apply (h : Shows s plain) (hFeed : '\n' ∉ plain.toList) (style : Style) :
    Shows (style.apply s) plain := by
  obtain ⟨received, hReads, hSettled, hShown⟩ := h
  obtain ⟨ps, hOn⟩ : ∃ ps, escapeCode? style.code.toList = some (ps, []) := by
    cases style <;> exact ⟨_, rfl⟩
  have hOff : escapeCode? Style.reset.toList = some (off, []) := rfl
  have hRow : .shown '\n' ∉ received := by
    intro hMem
    exact hFeed (hShown ▸ List.mem_filterMap.2 ⟨_, hMem, rfl⟩)
  refine ⟨.code ps :: (received ++ [.code off]), ?_, hSettled.code_cons hRow ps, ?_⟩
  · intro ds
    rw [Style.apply, String.toList_append, String.toList_append, List.append_assoc,
      List.append_assoc, signals_append_of_escapeCode? hOn, hReads,
      signals_append_of_escapeCode? hOff]
    simp only [List.cons_append, List.nil_append, List.append_assoc]
  · rw [List.filterMap_cons_none rfl, List.filterMap_append, List.filterMap_cons_none rfl,
      List.filterMap_nil, List.append_nil, hShown]

theorem ofRows {rows plains : List String} (h : List.Forall₂ Shows rows plains) :
    Shows (Report.ofRows rows) (Report.ofRows plains) := by
  induction h with
  | nil => exact of_not_mem List.not_mem_nil
  | cons hRow _ ih =>
    have hFeed : Shows "\n" "\n" := of_not_mem (by decide)
    simpa [Report.ofRows] using (hRow.append hFeed).append ih

end Shows

end Terminal

namespace Report

open Terminal

/-! ## Rows as they are seen -/

/-- The row that says where a line is, without its styles. -/
def plainLocation (path : String) (n : Nat) : String :=
  margin n ++ " --> " ++ path ++ ":" ++ toString n

/-- The rows that have a bar, without their styles. In the line every tab becomes four spaces. -/
def plainRows (n : Nat) (line : String) (help : Option String) : List String :=
  [margin n ++ " ┃",
    toString n ++ " ┃ " ++ "    ".intercalate ((line.toList.splitOn '\t').map String.ofList)] ++
    (help.map (margin n ++ " ┃ help: " ++ ·)).toList ++ [margin n ++ " ┃"]

theorem not_mem_toString {c : Char} (h : c.isDigit = false) (n : Nat) :
    c ∉ (toString n).toList := by
  intro hMem
  rw [Nat.toString_eq_repr, Nat.toList_repr] at hMem
  have hDigit := Nat.isDigit_of_mem_toDigits (by decide) (by decide) hMem
  rw [h] at hDigit
  cases hDigit

theorem not_mem_margin {c : Char} (h : c ≠ ' ') (n : Nat) : c ∉ (margin n).toList := by
  intro hMem
  rw [margin, String.toList_ofList] at hMem
  exact h (List.eq_of_mem_replicate hMem)

theorem not_mem_expandTabs {c : Char} {s : String} (hSpace : c ≠ ' ') (h : c ∉ s.toList) :
    c ∉ (expandTabs s).toList := by
  intro hMem
  rw [expandTabs, String.toList_ofList] at hMem
  obtain ⟨d, hFrom, hPiece⟩ := List.mem_flatMap.1 hMem
  split at hPiece
  · exact hSpace (List.eq_of_mem_replicate hPiece)
  · exact h (List.mem_singleton.1 hPiece ▸ hFrom)

section

variable {file : SourceFile} {n : Nat}

theorem shows_gutter (n : Nat) : Shows (gutter n) (margin n) := by
  rw [gutter_eq_margin]
  exact .of_not_mem (not_mem_margin (by decide) n)

theorem shows_toString (n : Nat) : Shows (toString n) (toString n) :=
  .of_not_mem (not_mem_toString (by decide) n)

/-- What stands in front of a line or a help is bold and has a color. -/
theorem shows_bold {s : String} (h : Shows s s) (hFeed : '\n' ∉ s.toList) (color : Style) :
    Shows (Style.bold.apply (color.apply s)) s :=
  (h.apply hFeed color).apply hFeed .bold

theorem shows_bar : Shows bar "┃" := shows_bold (.of_not_mem (by decide)) (by decide) .cyan

theorem shows_locationRow (hPath : escape ∉ file.path.toList) (n : Nat) :
    Shows (locationRow file n) (plainLocation file.path n) := by
  have hArrow : Shows (Style.bold.apply (Style.cyan.apply "-->")) "-->" :=
    shows_bold (.of_not_mem (by decide)) (by decide) .cyan
  have hColon : Shows ":" ":" := .of_not_mem (by decide)
  have hPlace := ((shows_gutter n).append_space hArrow).append_space (.of_not_mem hPath)
  have hPlain : plainLocation file.path n =
      margin n ++ " " ++ "-->" ++ " " ++ file.path ++ ":" ++ toString n := by
    rw [← String.toList_inj]
    simp [plainLocation]
  rw [hPlain]
  exact (hPlace.append hColon).append (shows_toString n)

theorem shows_emptyRow (n : Nat) : Shows (emptyRow n) (margin n ++ " ┃") := by
  have hPlain : margin n ++ " ┃" = margin n ++ " " ++ "┃" := by
    rw [← String.toList_inj]
    simp
  rw [hPlain]
  exact (shows_gutter n).append_space shows_bar

theorem shows_sourceRow {line : String} (hEscape : escape ∉ line.toList)
    (hFeed : '\n' ∉ line.toList) (n : Nat) :
    Shows (sourceRow n line) (toString n ++ " ┃ " ++ expandTabs line) := by
  have hNumber := shows_bold (shows_toString n) (not_mem_toString (by decide) n) .cyan
  have hLine := (Shows.of_not_mem (not_mem_expandTabs (by decide) hEscape)).apply
    (not_mem_expandTabs (by decide) hFeed) .underline
  have hPlain : toString n ++ " ┃ " ++ expandTabs line =
      toString n ++ " " ++ "┃" ++ " " ++ expandTabs line := by
    rw [← String.toList_inj]
    simp
  rw [hPlain]
  exact (hNumber.append_space shows_bar).append_space hLine

theorem shows_helpRow {help : String} (hEscape : escape ∉ help.toList) (n : Nat) :
    Shows (helpRow n help) (margin n ++ " ┃ help: " ++ help) := by
  have hLabel : Shows (Style.bold.apply (Style.yellow.apply "help")) "help" :=
    shows_bold (.of_not_mem (by decide)) (by decide) .yellow
  have hColon : Shows ": " ": " := .of_not_mem (by decide)
  have hPlain : margin n ++ " ┃ help: " ++ help =
      margin n ++ " ┃" ++ " " ++ "help" ++ ": " ++ help := by
    rw [← String.toList_inj]
    simp
  rw [hPlain]
  exact (((shows_emptyRow n).append_space hLabel).append hColon).append (.of_not_mem hEscape)

theorem ofRows_singleton (row : String) : ofRows [row] = row ++ "\n" := by
  rw [← String.toList_inj]
  simp [ofRows]

theorem shows_excerpt_of_line? {line : String} {help : Option String}
    (hPath : escape ∉ file.path.toList) (hHelp : ∀ remedy ∈ help, escape ∉ remedy.toList)
    (hShown : file.line? n = some line) (hEscape : escape ∉ line.toList)
    (hFeed : '\n' ∉ line.toList) :
    Shows (excerpt file n help)
      (ofRows (plainLocation file.path n :: plainRows n line help)) := by
  have hEmpty := shows_emptyRow n
  rw [excerpt, excerptRows_of_line? hShown, plainRows, ← expandTabs_eq_intercalate]
  apply Shows.ofRows
  refine .cons (shows_locationRow hPath n) (.cons hEmpty
    (.cons (shows_sourceRow hEscape hFeed n) ?_))
  cases help with
  | none => exact .cons hEmpty .nil
  | some remedy => exact .cons (shows_helpRow (hHelp remedy rfl) n) (.cons hEmpty .nil)

theorem mem_plainRows {line row : String} {help : Option String}
    (h : row ∈ plainRows n line help) :
    row = margin n ++ " ┃" ∨ row = toString n ++ " ┃ " ++ expandTabs line ∨
      ∃ remedy ∈ help, row = margin n ++ " ┃ help: " ++ remedy := by
  rw [plainRows, ← expandTabs_eq_intercalate] at h
  rcases List.mem_append.1 h with hRow | hLast
  · rcases List.mem_append.1 hRow with hFront | hRemedy
    · rcases List.mem_cons.1 hFront with hEmpty | hSource
      · exact .inl hEmpty
      · exact .inr (.inl (List.mem_singleton.1 hSource))
    · obtain ⟨remedy, hMem, hEq⟩ := Option.map_eq_some_iff.1 (Option.mem_toList.1 hRemedy)
      exact .inr (.inr ⟨remedy, hMem, hEq.symm⟩)
  · exact .inl (List.mem_singleton.1 hLast)

/-- The bar of a row stands behind what is in front of it and a space. -/
theorem idxOf_bar {cs : List Char} (h : '┃' ∉ cs) (ds : List Char) :
    (cs ++ ' ' :: '┃' :: ds).idxOf '┃' = cs.length + 1 := by
  rw [List.idxOf_append_of_notMem h]
  rfl

theorem idxOf_bar_of_mem_plainRows {line row : String} {help : Option String}
    (h : row ∈ plainRows n line help) :
    row.toList.idxOf '┃' = (toString n).length + 1 := by
  have hMargin : ∀ ds, ((margin n).toList ++ ' ' :: '┃' :: ds).idxOf '┃' =
      (toString n).length + 1 := by
    intro ds
    rw [idxOf_bar (not_mem_margin (by decide) n), margin, String.toList_ofList,
      List.length_replicate]
  rcases mem_plainRows h with rfl | rfl | ⟨remedy, -, rfl⟩
  · rw [String.toList_append]
    exact hMargin []
  · rw [String.toList_append, String.toList_append, List.append_assoc]
    exact idxOf_bar (not_mem_toString (by decide) n) (' ' :: (expandTabs line).toList)
  · rw [String.toList_append, String.toList_append, List.append_assoc]
    exact hMargin (" help: ".toList ++ remedy.toList)

theorem not_mem_append {c : Char} {s t : String} (h : c ∉ s.toList) (hRest : c ∉ t.toList) :
    c ∉ (s ++ t).toList := by
  rw [String.toList_append, List.mem_append, not_or]
  exact ⟨h, hRest⟩

theorem not_mem_plainLocation {path : String} (h : '\n' ∉ path.toList) (n : Nat) :
    '\n' ∉ (plainLocation path n).toList := by
  have hStart : '\n' ∉ (margin n ++ " --> ").toList :=
    not_mem_append (not_mem_margin (by decide) n) (by decide)
  have hPlace : '\n' ∉ (margin n ++ " --> " ++ path ++ ":").toList :=
    not_mem_append (not_mem_append hStart h) (by decide)
  exact not_mem_append hPlace (not_mem_toString (by decide) n)

theorem not_mem_of_mem_plainRows {line row : String} {help : Option String}
    (hLine : '\n' ∉ line.toList) (hHelp : ∀ remedy ∈ help, '\n' ∉ remedy.toList)
    (h : row ∈ plainRows n line help) : '\n' ∉ row.toList := by
  have hMargin : '\n' ∉ (margin n).toList := not_mem_margin (by decide) n
  have hNumber : '\n' ∉ (toString n).toList := not_mem_toString (by decide) n
  rcases mem_plainRows h with rfl | rfl | ⟨remedy, hMem, rfl⟩
  · exact not_mem_append hMargin (by decide)
  · have hTabs : '\n' ∉ (expandTabs line).toList := not_mem_expandTabs (by decide) hLine
    exact not_mem_append (not_mem_append hNumber (by decide)) hTabs
  · exact not_mem_append (not_mem_append hMargin (by decide)) (hHelp remedy hMem)

/-- A terminal shows an excerpt of a line in rows, each ended by its line feed and none with another
in it: where the line is, an empty gutter, the line behind its number with four spaces for every
tab, the help if there is one, and an empty gutter. The gutter is as wide as the number, so the bar
stands in one column. Of a line that the file does not have only the first row is shown. Whatever
style is turned on, all are turned off before the row ends. -/
theorem visible_excerpt (file : SourceFile) (n : Nat) (help : Option String)
    (hPath : escape ∉ file.path.toList ∧ '\n' ∉ file.path.toList)
    (hHelp : ∀ remedy, help = some remedy → escape ∉ remedy.toList ∧ '\n' ∉ remedy.toList)
    (hLine : ∀ line, file.line? n = some line → escape ∉ line.toList) :
    (1 ≤ n ∧ n ≤ file.lineCount → ∃ line, file.line? n = some line ∧
      visible (excerpt file n help) =
          String.join ((plainLocation file.path n :: plainRows n line help).map (· ++ "\n")) ∧
        (∀ row ∈ plainLocation file.path n :: plainRows n line help, '\n' ∉ row.toList) ∧
        ∀ row ∈ plainRows n line help, row.toList.idxOf '┃' = (toString n).length + 1) ∧
    (¬(1 ≤ n ∧ n ≤ file.lineCount) →
      visible (excerpt file n help) = plainLocation file.path n ++ "\n" ∧
        '\n' ∉ (plainLocation file.path n).toList) ∧
    Settled (signals (excerpt file n help).toList) := by
  have hFirst : '\n' ∉ (plainLocation file.path n).toList := not_mem_plainLocation hPath.2 n
  by_cases hRange : 1 ≤ n ∧ n ≤ file.lineCount
  · obtain ⟨line, hShown⟩ := SourceFile.isSome_line? hRange.1 hRange.2
    have hFeed : '\n' ∉ line.toList := SourceFile.not_mem_of_line? hShown
    have hExcerpt := (shows_excerpt_of_line? hPath.1 (fun remedy hMem => (hHelp remedy hMem).1)
      hShown (hLine line hShown) hFeed).signals_eq
    refine ⟨fun _ => ⟨line, hShown, hExcerpt.2, ?_, fun row => idxOf_bar_of_mem_plainRows⟩,
      fun hOutside => absurd hRange hOutside, hExcerpt.1⟩
    intro row hMem
    rcases List.mem_cons.1 hMem with rfl | hRow
    · exact hFirst
    · exact not_mem_of_mem_plainRows hFeed (fun remedy hMem => (hHelp remedy hMem).2) hRow
  · have hNone : file.line? n = none := by
      rw [SourceFile.line?_eq_none_iff]
      omega
    have hExcerpt : Shows (excerpt file n help) (plainLocation file.path n ++ "\n") := by
      rw [excerpt, excerptRows, hNone, ← ofRows_singleton]
      exact Shows.ofRows (.cons (shows_locationRow hPath.1 n) .nil)
    exact ⟨fun hInside => absurd hInside hRange,
      fun _ => ⟨hExcerpt.signals_eq.2, hFirst⟩, hExcerpt.signals_eq.1⟩

/-- The tenth line of a file, the first whose gutter is two wide. -/
theorem visible_excerpt_tenth :
    visible (excerpt ⟨"a.lox", "\n\n\n\n\n\n\n\n\n\tprint @;"⟩ 10 (some "drop it")) =
        "   --> a.lox:10\n   ┃\n10 ┃     print @;\n   ┃ help: drop it\n   ┃\n" ∧
      Settled (signals
        (excerpt ⟨"a.lox", "\n\n\n\n\n\n\n\n\n\tprint @;"⟩ 10 (some "drop it")).toList) := by
  have hTenth : SourceFile.line? ⟨"a.lox", "\n\n\n\n\n\n\n\n\n\tprint @;"⟩ 10 =
      some "\tprint @;" := by decide +kernel
  have hBoth := visible_excerpt ⟨"a.lox", "\n\n\n\n\n\n\n\n\n\tprint @;"⟩ 10 (some "drop it")
    (by decide +kernel)
    (fun remedy hRemedy => by cases hRemedy; decide +kernel)
    (fun line hLine => by rw [hTenth] at hLine; cases hLine; decide +kernel)
  obtain ⟨line, hLine, hVisible, -⟩ := hBoth.1 (by decide +kernel)
  rw [hTenth] at hLine
  cases hLine
  refine ⟨?_, hBoth.2.2⟩
  rw [hVisible]
  decide +kernel

end

end Report
end LoxLexer
