import LoxLexer.Diagnostic.Lexical

/-!
# Sinks

A scan hands its errors to a sink, one by one, as it comes upon them. Three sinks need nothing but
the errors: one keeps them, one counts them and one drops them.

## Main results

* `ErrorLog.receiveAll_errors`, `ErrorCount.receiveAll_count`: what a sink holds after it has
  received a list of errors.
-/

namespace LoxLexer

/-- A state that takes in errors, and may be able to forget them. -/
class Sink (σ : Type) where
  receive : LexicalError → σ → σ
  reset : σ → σ := id

namespace Sink

variable {σ : Type} [Sink σ]

/-- Receives errors one by one. -/
def receiveAll (errors : List LexicalError) (sink : σ) : σ :=
  errors.foldl (fun sink error => receive error sink) sink

@[simp] theorem receiveAll_nil (sink : σ) : receiveAll [] sink = sink := rfl

@[simp] theorem receiveAll_cons (error : LexicalError) (errors : List LexicalError) (sink : σ) :
    receiveAll (error :: errors) sink = receiveAll errors (receive error sink) := rfl

end Sink

/-- Keeps the errors it receives, the first one first. -/
structure ErrorLog where
  errors : List LexicalError := []
deriving DecidableEq, Repr

instance : Sink ErrorLog where
  receive error log := ⟨log.errors ++ [error]⟩
  reset _ := ⟨[]⟩

/-- Counts the errors it receives. -/
structure ErrorCount where
  count : Nat := 0
deriving DecidableEq, Repr

instance : Sink ErrorCount where
  receive _ tally := ⟨tally.count + 1⟩
  reset _ := ⟨0⟩

/-- Drops the errors it receives. -/
structure Silence where
deriving DecidableEq, Repr

instance : Sink Silence where
  receive _ silence := silence

theorem ErrorLog.receiveAll_errors (errors : List LexicalError) (log : ErrorLog) :
    (Sink.receiveAll errors log).errors = log.errors ++ errors := by
  induction errors generalizing log with
  | nil => simp
  | cons error errors ih => simp [ih, Sink.receive]

theorem ErrorCount.receiveAll_count (errors : List LexicalError) (tally : ErrorCount) :
    (Sink.receiveAll errors tally).count = tally.count + errors.length := by
  induction errors generalizing tally with
  | nil => simp
  | cons error errors ih =>
    simp [ih, Sink.receive]
    omega

end LoxLexer
