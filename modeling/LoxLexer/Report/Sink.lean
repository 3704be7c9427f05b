import LoxLexer.Report.Excerpt

/-!
# Scanning into a sink

A scan hands its errors to a sink, one by one and in the order of the text. What the sink does with
them has no way back into the scan. Here is the one sink that needs more than the errors: it prints
them, and for that it has to know the file.

## Main results

* `Console.receiveAll_hasPrinted`: whether anything was printed for a list of errors.
-/

namespace LoxLexer

namespace Sink

variable {σ : Type} [Sink σ]

/-- Scans a text and hands its errors to a sink. -/
def scan (source : String) (sink : σ) : TokenStream × σ :=
  let pass := (Pass.ofSource source sink).run
  (pass.stream, pass.sink)

/-- One thing that can happen to a sink. -/
inductive Step where
  | scan (source : String)
  | receive (error : LexicalError)
  | reset
deriving DecidableEq, Repr

/-- Takes a step: the tokens, if it is a scan, and the sink behind it. -/
def take (sink : σ) : Step → Option TokenStream × σ
  | .scan source => (some (scan source sink).1, (scan source sink).2)
  | .receive error => (none, receive error sink)
  | .reset => (none, reset sink)

/-- What comes of each of a sequence of steps. -/
def trace (sink : σ) : List Step → List (Option TokenStream × σ)
  | [] => []
  | step :: steps => take sink step :: trace (take sink step).2 steps

/-- The sink behind a sequence of steps. -/
def run (sink : σ) (steps : List Step) : σ := steps.foldl (fun sink step => (take sink step).2) sink

@[simp] theorem run_nil (sink : σ) : run sink [] = sink := rfl

@[simp] theorem run_cons (sink : σ) (step : Step) (steps : List Step) :
    run sink (step :: steps) = run (take sink step).2 steps := rfl

end Sink

/-! ## The console -/

/-- Prints a report on every error it receives, and remembers whether there was one. What has been
printed cannot be taken back by a reset. -/
structure Console where
  file : SourceFile
  hasPrinted : Bool := false
deriving DecidableEq, Repr

namespace Console

/-- What is printed for a diagnostic. -/
def render (console : Console) (d : Diagnostic) : String := Report.render console.file d

end Console

instance : Sink Console where
  receive _ console := { console with hasPrinted := true }

theorem Console.receiveAll_hasPrinted (errors : List LexicalError) (console : Console) :
    (Sink.receiveAll errors console).hasPrinted = (console.hasPrinted || !errors.isEmpty) := by
  induction errors generalizing console with
  | nil => simp
  | cons error errors ih => simp [ih, Sink.receive]

end LoxLexer
