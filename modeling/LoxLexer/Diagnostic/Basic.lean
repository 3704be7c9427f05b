/-!
# Diagnostics

A diagnostic is a remark about one line of a source file. It has a message and may have a help,
a hint at the remedy.
-/

namespace LoxLexer

/-- A remark about a line. -/
structure Diagnostic where
  line : Nat
  message : String
  help : Option String := none
deriving DecidableEq, Repr

end LoxLexer
