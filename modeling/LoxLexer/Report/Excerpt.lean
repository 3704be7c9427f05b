import LoxLexer.Diagnostic.Basic
import LoxLexer.Report.Style
import LoxLexer.Source.File

/-!
# Reports

A report shows a diagnostic on a terminal. It begins with a headline, which is the message, and
goes on with an excerpt: where the remark belongs, the line itself underlined, and the help. The
rows of an excerpt share a gutter that is as wide as the line number.

When the file has no such line the excerpt is only the row that says where.

## Main results

* `Report.toList_gutter`: the gutter is as wide as the decimal form of the number.
-/

namespace LoxLexer.Report

/-- The first row of a report. -/
def headline (message : String) : String :=
  Style.bold.apply (Style.red.apply "[error]:") ++ " " ++ Style.bold.apply message

/-- Counts the decimal digits of a number. The count starts at one, for the first digit, which no
division takes off. -/
def countDigits (counted n : Nat) : Nat :=
  if 10 ≤ n then countDigits (counted + 1) (n / 10) else counted

theorem countDigits_succ (k n : Nat) : countDigits (k + 1) n = k + (Nat.toDigits 10 n).length := by
  induction n using Nat.strongRecOn generalizing k with
  | ind n ih =>
    rw [countDigits]
    by_cases hMore : 10 ≤ n
    · rw [if_pos hMore, ih (n / 10) (Nat.div_lt_self (by omega) (by decide)),
        Nat.toDigits_of_base_le (by decide) hMore, List.length_append, List.length_singleton]
      omega
    · rw [if_neg hMore, Nat.toDigits_of_lt_base (Nat.lt_of_not_le hMore), List.length_singleton]

/-- Spaces as wide as a number. -/
def gutter (n : Nat) : String := String.ofList (List.replicate (countDigits 1 n) ' ')

theorem toList_gutter (n : Nat) :
    (gutter n).toList = List.replicate (Nat.toDigits 10 n).length ' ' := by
  rw [gutter, countDigits_succ, String.toList_ofList, Nat.zero_add]

/-- The bar to the right of the gutter. -/
def bar : String := Style.bold.apply (Style.cyan.apply "┃")

/-- A text in which every tab has become four spaces. -/
def expandTabs (s : String) : String :=
  String.ofList (s.toList.flatMap fun c => if c = '\t' then List.replicate 4 ' ' else [c])

/-- The row that says where a line is. -/
def locationRow (file : SourceFile) (line : Nat) : String :=
  gutter line ++ " " ++ Style.bold.apply (Style.cyan.apply "-->") ++ " " ++ file.path ++ ":" ++
    toString line

/-- A row with nothing behind the bar. -/
def emptyRow (line : Nat) : String := gutter line ++ " " ++ bar

/-- The row that shows a line. -/
def sourceRow (line : Nat) (text : String) : String :=
  Style.bold.apply (Style.cyan.apply (toString line)) ++ " " ++ bar ++ " " ++
    Style.underline.apply (expandTabs text)

/-- The row that shows a help. -/
def helpRow (line : Nat) (help : String) : String :=
  gutter line ++ " " ++ bar ++ " " ++ Style.bold.apply (Style.yellow.apply "help") ++ ": " ++ help

/-- The rows of an excerpt. -/
def excerptRows (file : SourceFile) (line : Nat) (help : Option String) : List String :=
  match file.line? line with
  | none => [locationRow file line]
  | some text =>
    [locationRow file line, emptyRow line, sourceRow line text] ++
      (help.map (helpRow line)).toList ++ [emptyRow line]

/-- Rows as a text, each ended by a line feed. -/
def ofRows (rows : List String) : String := String.join (rows.map (· ++ "\n"))

/-- A line of a file and a help for it. -/
def excerpt (file : SourceFile) (line : Nat) (help : Option String) : String :=
  ofRows (excerptRows file line help)

/-- The report of a diagnostic on a file. -/
def render (file : SourceFile) (d : Diagnostic) : String :=
  headline d.message ++ "\n" ++ excerpt file d.line d.help

end LoxLexer.Report
