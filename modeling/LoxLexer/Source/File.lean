import LoxLexer.Scan
import LoxLexer.Text.Lines
import LoxLexer.Text.Quoted
import LoxLexer.Text.Utf8

/-!
# Source files

A source file is a text with a path. The path is a label and is never opened. A file is made from
bytes, which have to be UTF-8, and gives out its lines by their numbers, counted from 1 as the
lines of tokens are.

## Main results

* `lineCount_eq`: a file has one line more than it has line feeds.
* `line?_eq_none_iff`: the lines that a file gives out are those from 1 to its line count.
-/

namespace LoxLexer

open Text

/-- A text with a path. -/
structure SourceFile where
  path : String
  content : String
deriving DecidableEq, Repr

namespace SourceFile

/-! ## Making a file -/

/-- The bytes of a file as they are mapped into memory. A file without bytes cannot be mapped. -/
def mapped? (bytes : List UInt8) : Option (List UInt8) :=
  if bytes.length = 0 then none else some bytes

/-- The text of what is mapped. Where nothing is, it is empty. -/
def readText (mapped? : Option (List UInt8)) : Except Utf8.Fault (List Char) :=
  mapped?.elim (.ok []) Utf8.decode

/-- The file that holds the given bytes, unless they are not UTF-8. -/
def load (path : String) (bytes : List UInt8) : Except Utf8.Fault SourceFile :=
  (readText (mapped? bytes)).map fun content => ⟨path, String.ofList content⟩

/-- A file for a text that has none yet. Its name is made unique by `tag`. -/
def temporary (tag : String) (content : String) : Except Utf8.Fault SourceFile :=
  load ("lox" ++ tag ++ ".lox") (Utf8.encode content.toList)

/-- The last part of the path. -/
def name (file : SourceFile) : List Char :=
  (file.path.toList.reverse.takeWhile (· != '/')).reverse

/-- The name is one that a temporary file gets. -/
def hasTemporaryName (file : SourceFile) : Bool :=
  ['l', 'o', 'x'].isPrefixOf file.name && ['.', 'l', 'o', 'x'].isSuffixOf file.name

/-! ## Lines -/

/-- The line table of a file. -/
def lineTable (file : SourceFile) : List ByteRange := lineRanges file.content.toList

/-- The number of lines. -/
def lineCount (file : SourceFile) : Nat := file.lineTable.length

/-- The line with the given number, without its line feed and a carriage return in front of it. -/
def line? (file : SourceFile) : Nat → Option String
  | 0 => none
  | n + 1 =>
    file.lineTable[n]?.map fun range =>
      String.ofList (dropCarriageReturn (range.slice file.content.toList))

theorem lineCount_eq (file : SourceFile) :
    file.lineCount = lineFeeds file.content.toList + 1 :=
  length_lineRanges _

theorem line?_eq_none_iff (file : SourceFile) (n : Nat) :
    file.line? n = none ↔ n = 0 ∨ file.lineCount < n := by
  cases n with
  | zero => simp [line?]
  | succ n =>
    rw [line?, Option.map_eq_none_iff, List.getElem?_eq_none_iff, lineCount]
    omega

/-! ## Views -/

/-- A file in one line: its path and how many lines it has. -/
def summary (file : SourceFile) : String :=
  "SourceFile \x7b full_path: " ++ quote file.path ++ ", line_count: " ++ toString file.lineCount ++
    " \x7d"

/-- The scan of the text of a file. -/
def scan (file : SourceFile) : Scan := Scan.ofSource file.content

end SourceFile

end LoxLexer
