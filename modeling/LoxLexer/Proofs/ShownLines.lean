import LoxLexer.Proofs.LineNumbers
import LoxLexer.Proofs.LineTable
import LoxLexer.Report.Excerpt

/-!
# The lines that reports show

A scan counts lines and a source file looks them up in its table. The line that a token or an error
was given is a line of the file, and it is the one on which they stand: the lexeme is found there,
as far as its first line feed, and so is a stray character. A report on an error therefore always
shows a line, and it has a row for the help where there is a help, and nowhere else.

## Main results

* `Text.firstLine_infix`: the first line of a part of a text lies in the line where the part begins.
* `Report.gutter_eq_margin`: the gutter is as wide as the number is when it is shown.
* `Report.expandTabs_eq_intercalate`: a tab is shown as four spaces.
* `Report.render_of_line?`: a report, row by row, as it is written.
* `Report.mem_writtenRows_iff`: a report has the row of a help where that is its help.
* `SourceFile.lines_scan`: the lines of a scan and those of the file agree.
-/

namespace LoxLexer

open Text

/-! ## Parts of a line -/

namespace Text

/-- The first line of a text. A text of one line is taken as it is; if a line feed follows, a
carriage return in front of it is dropped. -/
def firstLine (cs : List Char) : List Char :=
  if '\n' ∈ cs then dropCarriageReturn (cs.takeWhile (· != '\n')) else cs

/-- The first line of a part of a text lies in the line where the part begins. The last character of
that line may be dropped, so a part of one line must not end in a carriage return. -/
theorem firstLine_infix {cs : List Char} (h : '\n' ∉ cs → cs.getLast? ≠ some '\r')
    (last after : List Char) :
    firstLine cs <:+: dropCarriageReturn (last ++ (cs ++ after).takeWhile (· != '\n')) := by
  unfold firstLine
  split
  · rename_i hFeed
    obtain ⟨ds, es, rfl, hFirst⟩ := List.eq_append_cons_of_mem hFeed
    have hAll := bne_of_not_mem hFirst
    rw [List.append_assoc, takeWhile_append_of_stop hAll (by simp),
      takeWhile_append_of_stop hAll (by simp)]
    by_cases hEmpty : ds = []
    · subst hEmpty
      exact List.nil_infix
    · rw [dropCarriageReturn_append hEmpty]
      exact (List.suffix_append ..).isInfix
  · rename_i hFeed
    rw [List.takeWhile_append_of_pos (bne_of_not_mem hFeed), ← List.append_assoc]
    by_cases hBehind : after.takeWhile (· != '\n') = []
    · rw [hBehind, List.append_nil]
      by_cases hEmpty : cs = []
      · subst hEmpty
        exact List.nil_infix
      · rw [dropCarriageReturn_append hEmpty, dropCarriageReturn_of_getLast? (h hFeed)]
        exact (List.suffix_append ..).isInfix
    · rw [dropCarriageReturn_append hBehind]
      exact List.infix_append ..

end Text

namespace Element

/-- No token ends in a carriage return. -/
theorem getLast?_text_of_token? {line : Nat} {e : Element} {t : Token} (h : e.WellFormed)
    (hToken : e.token? line = some t) : e.text.getLast? ≠ some '\r' := by
  intro hLast
  have hMem : '\r' ∈ e.text := List.mem_of_getLast? hLast
  cases e with
  | string body =>
    rw [text, List.getLast?_concat] at hLast
    exact absurd (Option.some.inj hLast) (by decide)
  | number whole fraction =>
    have hWhole : '\r' ∉ whole := fun hMem => absurd (h.2.1 _ hMem) (by decide)
    have hFraction : '\r' ∉ fraction := fun hMem => absurd (h.2.2 _ hMem) (by decide)
    revert hMem
    simp only [text, numberText, List.mem_append, hWhole, false_or]
    split <;> simp [hFraction]
  | word letters => exact absurd (h.2 _ hMem) (by decide)
  | punctuator p =>
    revert hMem
    cases p <;> decide
  | _ => simp [token?] at hToken

theorem eq_stray_of_error? {line n : Nat} {e : Element} {c : Char}
    (h : e.error? line = some (.unexpectedCharacter n c)) : e = stray c ∧ line = n := by
  cases e <;> simp [error?] at h
  obtain ⟨rfl, rfl⟩ := h
  exact ⟨rfl, rfl⟩

end Element

/-! ## Rows -/

namespace Report

/-- As many spaces as a number has decimal digits. -/
def margin (n : Nat) : String := String.ofList (List.replicate (toString n).length ' ')

/-- The gutter is as wide as the number is when it is shown. -/
theorem gutter_eq_margin (n : Nat) : gutter n = margin n := by
  have hShown : (toString n).length = (Nat.toDigits 10 n).length := by
    rw [Nat.toString_eq_repr, ← String.length_toList, Nat.toList_repr]
  rw [← String.toList_inj, toList_gutter, margin, String.toList_ofList, hShown]

theorem expandTabs_eq_intercalate (s : String) :
    expandTabs s = "    ".intercalate ((s.toList.splitOn '\t').map String.ofList) := by
  rw [expandTabs, ← String.toList_inj, String.toList_ofList, String.toList_intercalate]
  induction s.toList with
  | nil => rfl
  | cons c cs ih =>
    obtain ⟨piece, pieces, hPieces⟩ := List.exists_cons_of_ne_nil (List.splitOn_ne_nil '\t' cs)
    rw [List.flatMap_cons, ih, List.splitOn_cons_eq_if_modifyHead, hPieces]
    by_cases hTab : c = '\t'
    · subst hTab
      simp [List.intercalate_cons_cons]
    · rw [if_neg hTab, if_neg (by simpa using hTab), List.modifyHead_cons]
      cases pieces <;> simp [List.intercalate_cons_cons]

/-- The bar as it is written, bold and cyan. -/
def writtenBar : String := "\x1b[1m\x1b[36m┃\x1b[0m\x1b[0m"

/-- A line as it is written, underlined behind its number. Every tab becomes four spaces. -/
def writtenLine (n : Nat) (line : String) : String :=
  "\x1b[1m\x1b[36m" ++ toString n ++ "\x1b[0m\x1b[0m " ++ writtenBar ++ " \x1b[4m" ++
    "    ".intercalate ((line.toList.splitOn '\t').map String.ofList) ++ "\x1b[0m"

/-- A help as it is written. -/
def writtenHelp (n : Nat) (remedy : String) : String :=
  margin n ++ " " ++ writtenBar ++ " \x1b[1m\x1b[33mhelp\x1b[0m\x1b[0m: " ++ remedy

/-- The rows of a report as they are written. -/
def writtenRows (path : String) (n : Nat) (message line : String) (help : Option String) :
    List String :=
  ["\x1b[1m\x1b[31m[error]:\x1b[0m\x1b[0m \x1b[1m" ++ message ++ "\x1b[0m",
    margin n ++ " \x1b[1m\x1b[36m-->\x1b[0m\x1b[0m " ++ path ++ ":" ++ toString n,
    margin n ++ " " ++ writtenBar, writtenLine n line] ++
    (help.map (writtenHelp n)).toList ++ [margin n ++ " " ++ writtenBar]

theorem headline_eq (message : String) :
    headline message = "\x1b[1m\x1b[31m[error]:\x1b[0m\x1b[0m \x1b[1m" ++ message ++ "\x1b[0m" := by
  rw [← String.toList_inj]
  simp [headline, Style.apply, Style.code, Style.reset]

theorem locationRow_eq (file : SourceFile) (n : Nat) :
    locationRow file n =
      margin n ++ " \x1b[1m\x1b[36m-->\x1b[0m\x1b[0m " ++ file.path ++ ":" ++ toString n := by
  rw [locationRow, gutter_eq_margin, ← String.toList_inj]
  simp [Style.apply, Style.code, Style.reset]

theorem emptyRow_eq (n : Nat) : emptyRow n = margin n ++ " " ++ writtenBar := by
  rw [emptyRow, gutter_eq_margin]
  rfl

theorem sourceRow_eq (n : Nat) (line : String) : sourceRow n line = writtenLine n line := by
  rw [sourceRow, expandTabs_eq_intercalate, ← String.toList_inj]
  simp [writtenLine, writtenBar, bar, Style.apply, Style.code, Style.reset]

theorem helpRow_eq (n : Nat) (remedy : String) : helpRow n remedy = writtenHelp n remedy := by
  rw [helpRow, gutter_eq_margin, ← String.toList_inj]
  simp [writtenHelp, writtenBar, bar, Style.apply, Style.code, Style.reset]

theorem excerptRows_of_line? {file : SourceFile} {n : Nat} {text : String}
    (h : file.line? n = some text) (help : Option String) :
    excerptRows file n help =
      [locationRow file n, emptyRow n, sourceRow n text] ++ (help.map (helpRow n)).toList ++
        [emptyRow n] := by
  simp only [excerptRows, h]

/-- A report on a line that the file has, row by row. -/
theorem render_of_line? {file : SourceFile} {d : Diagnostic} {line : String}
    (h : file.line? d.line = some line) :
    render file d =
      String.join ((writtenRows file.path d.line d.message line d.help).map (· ++ "\n")) := by
  have hHelp : helpRow d.line = writtenHelp d.line := funext (helpRow_eq d.line)
  rw [render, excerpt, ofRows, excerptRows_of_line? h, headline_eq, locationRow_eq, emptyRow_eq,
    sourceRow_eq, hHelp]
  simp [writtenRows, String.append_assoc]

/-- There is always a margin, since every number has a digit. -/
theorem exists_toList_margin (n : Nat) : ∃ k, (margin n).toList = ' ' :: List.replicate k ' ' := by
  have hSome : 0 < (Nat.toDigits 10 n).length := Nat.length_toDigits_pos
  refine ⟨(Nat.toDigits 10 n).length - 1, ?_⟩
  rw [← gutter_eq_margin, toList_gutter, ← List.replicate_succ, Nat.sub_add_cancel hSome]

/-- No other row of a report can be taken for that of a help. -/
theorem mem_writtenRows_iff {path message line remedy : String} {n : Nat} {help : Option String} :
    writtenHelp n remedy ∈ writtenRows path n message line help ↔ help = some remedy := by
  have hSame : ∀ other, writtenHelp n remedy = writtenHelp n other ↔ remedy = other := by
    intro other
    simp [writtenHelp]
  -- A help begins with its margin, the headline and the line with a code.
  obtain ⟨k, hMargin⟩ := exists_toList_margin n
  have hHeadline : writtenHelp n remedy ≠
      "\x1b[1m\x1b[31m[error]:\x1b[0m\x1b[0m \x1b[1m" ++ message ++ "\x1b[0m" := by
    simp [writtenHelp, ← String.toList_inj, hMargin]
  have hLine : writtenHelp n remedy ≠ writtenLine n line := by
    simp [writtenHelp, writtenLine, ← String.toList_inj, hMargin]
  -- Behind the margin it has a bar and no arrow, and behind the bar there is more.
  have hLocation : writtenHelp n remedy ≠
      margin n ++ " \x1b[1m\x1b[36m-->\x1b[0m\x1b[0m " ++ path ++ ":" ++ toString n := by
    simp [writtenHelp, writtenBar, ← String.toList_inj]
  have hEmpty : writtenHelp n remedy ≠ margin n ++ " " ++ writtenBar := by
    simp [writtenHelp, ← String.toList_inj]
  simp only [writtenRows, List.mem_append, List.mem_cons, List.not_mem_nil, hHeadline, hLine,
    hLocation, hEmpty, false_or, or_false]
  cases help with
  | none => simp
  | some other => simp [hSame, eq_comm]

/-- The rows of a report are parts of it. -/
theorem row_infix_render {file : SourceFile} {d : Diagnostic} {line row : String}
    (h : file.line? d.line = some line)
    (hRow : row ∈ writtenRows file.path d.line d.message line d.help) :
    row.toList <:+: (render file d).toList := by
  obtain ⟨rows, rows', hRows⟩ := List.append_of_mem hRow
  rw [render_of_line? h, hRows]
  refine ⟨(String.join (rows.map (· ++ "\n"))).toList,
    ("\n" ++ String.join (rows'.map (· ++ "\n"))).toList, ?_⟩
  simp

end Report

/-! ## Files -/

namespace SourceFile

variable {file : SourceFile}

theorem line_endToken (file : SourceFile) :
    file.scan.stream.endToken.line = file.lineCount := by
  rw [scan, Scan.ofSource_eq, lineCount_eq, Nat.add_comm]
  rfl

/-- An element of a file has its first line in the line of the file that it was given. -/
theorem exists_line_of_mem_placed {p : Placed} (h : p ∈ Scan.placed file.content.toList)
    (hEnd : p.element.text.getLast? ≠ some '\r') :
    ∃ line, file.line? p.line = some line ∧ firstLine p.element.text <:+: line.toList := by
  obtain ⟨-, before, after, hText, hLine, -⟩ := Scan.exists_append_of_mem_placed h
  obtain ⟨last, hShown⟩ := line?_of_append hText
  refine ⟨_, hLine ▸ hShown, ?_⟩
  rw [String.toList_ofList]
  exact firstLine_infix (fun _ => hEnd) last after

theorem exists_line_of_mem_tokens {t : Token} (h : t ∈ file.scan.stream.tokens) :
    ∃ line, file.line? t.line = some line ∧ firstLine t.lexeme.toList <:+: line.toList := by
  rw [scan, Scan.ofSource_eq] at h
  obtain ⟨p, hPlaced, hToken⟩ := List.mem_filterMap.1 h
  have hForm := (Scan.exists_append_of_mem_placed hPlaced).1
  rw [Placed.line_of_token? hToken, Element.lexeme_of_token? hToken, String.toList_ofList]
  exact exists_line_of_mem_placed hPlaced (Element.getLast?_text_of_token? hForm hToken)

theorem exists_line_of_unexpectedCharacter {n : Nat} {c : Char}
    (h : .unexpectedCharacter n c ∈ file.scan.errors) :
    ∃ line, file.line? n = some line ∧ c ∈ line.toList := by
  rw [scan, Scan.ofSource_eq] at h
  obtain ⟨⟨e, line, offset⟩, hPlaced, hError⟩ := List.mem_filterMap.1 h
  obtain ⟨rfl, rfl⟩ := Element.eq_stray_of_error? hError
  obtain ⟨hBlank, -⟩ := (Scan.exists_append_of_mem_placed hPlaced).1
  have hReturn : c ≠ '\r' := by
    rintro rfl
    simp [isBlank] at hBlank
  have hFeed : c ≠ '\n' := by
    rintro rfl
    simp [isBlank] at hBlank
  obtain ⟨shown, hShown, hInfix⟩ :=
    exists_line_of_mem_placed hPlaced (by simpa [Element.text] using hReturn)
  have hFirst : firstLine (Element.stray c).text = [c] := by
    simp [firstLine, Element.text, Ne.symm hFeed]
  rw [hFirst] at hInfix
  exact ⟨shown, hShown, hInfix.subset (List.mem_singleton_self c)⟩

theorem exists_line_of_mem_errors {error : LexicalError} (h : error ∈ file.scan.errors) :
    ∃ line, file.line? error.line = some line := by
  obtain ⟨hPos, hLe⟩ := Scan.line_of_mem_errors h
  have hCount : error.line ≤ file.lineCount := by
    rw [lineCount_eq, Nat.add_comm]
    exact hLe
  exact isSome_line? hPos hCount

/-- The lines of a scan are those of the file. The end of the text is on the last line, and every
token and every error is on one of the lines that the file gives out. That line holds the lexeme up
to its first line feed, or the stray character. The report on an error shows the line, with four
spaces for every tab, and the help of the error and no other. There is a help when an element was
left open and only then. -/
theorem lines_scan (file : SourceFile) :
    file.scan.stream.endToken.line = file.lineCount ∧
      (∀ t ∈ file.scan.stream.toList, ∃ line, file.line? t.line = some line) ∧
      (∀ t ∈ file.scan.stream.tokens, ∃ line, file.line? t.line = some line ∧
        firstLine t.lexeme.toList <:+: line.toList) ∧
      (∀ n c, .unexpectedCharacter n c ∈ file.scan.errors →
        ∃ line, file.line? n = some line ∧ c ∈ line.toList) ∧
      ∀ error ∈ file.scan.errors, ∃ line, file.line? error.line = some line ∧
        Report.render file error.toDiagnostic =
            String.join ((Report.writtenRows file.path error.line error.message line
              error.help).map (· ++ "\n")) ∧
          (Report.writtenLine error.line line).toList <:+:
            (Report.render file error.toDiagnostic).toList ∧
          (∀ remedy, Report.writtenHelp error.line remedy ∈
              Report.writtenRows file.path error.line error.message line error.help ↔
            error.help = some remedy) ∧
          ((∃ remedy, error.help = some remedy ∧ (Report.writtenHelp error.line remedy).toList <:+:
              (Report.render file error.toDiagnostic).toList) ↔
            (∃ n, error = .unterminatedString n) ∨
              ∃ n depth, error = .unterminatedBlockComment n depth) := by
  refine ⟨line_endToken file, fun t ht => ?_, fun t ht => exists_line_of_mem_tokens ht,
    fun n c h => exists_line_of_unexpectedCharacter h, fun error h => ?_⟩
  · obtain hToken | hEnd := List.mem_append.1 ht
    · obtain ⟨line, hLine, -⟩ := exists_line_of_mem_tokens hToken
      exact ⟨line, hLine⟩
    · obtain rfl := List.mem_singleton.1 hEnd
      have hPos : 0 < file.lineCount := lineCount_eq file ▸ Nat.succ_pos _
      rw [line_endToken]
      exact isSome_line? hPos (Nat.le_refl _)
  · obtain ⟨line, hLine⟩ := exists_line_of_mem_errors h
    have hDiagnostic : file.line? error.toDiagnostic.line = some line := hLine
    refine ⟨line, hLine, Report.render_of_line? hDiagnostic,
      Report.row_infix_render hDiagnostic (by simp [Report.writtenRows, LexicalError.toDiagnostic]),
      fun remedy => Report.mem_writtenRows_iff, ?_⟩
    rw [← LexicalError.exists_help_iff]
    constructor
    · intro ⟨remedy, hHelp, _⟩
      exact ⟨remedy, hHelp⟩
    · intro ⟨remedy, hHelp⟩
      exact ⟨remedy, hHelp,
        Report.row_infix_render hDiagnostic (Report.mem_writtenRows_iff.2 hHelp)⟩

end SourceFile

end LoxLexer
