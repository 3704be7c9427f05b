import LoxLexer.Proofs.Pass
import Mathlib.Data.List.DropRight

/-!
# Sinks in step with each other

Whatever sink a scan has, and whatever that sink has received before, the tokens are the same, and
the sink is handed the errors of the text in their order. So a sink knows of a sequence of steps just
the errors that came in it, and where it was reset. Sinks that take the same steps differ only in
what they keep of that: the log all errors since the last reset, the count their number, and the
console whether there was ever one.

## Main definitions

* `Sink.received`, `Sink.receivedSinceReset`: the errors that came in a sequence of steps.
* `Sink.Agree`: what the sinks hold together behind a sequence of steps.

## Main results

* `Sink.take_eq`: what a step does to any sink.
* `Sink.Agree.take`, `Sink.agree_run`: sinks that agree do so behind a step, and so behind a run.
* `Sink.sinks_agree`: what comes of a step, and which errors each sink has kept behind it.
-/

namespace LoxLexer

namespace Sink

/-! ## What a step does -/

/-- The errors that come with a step. With a scan these are the errors of the elements of its text,
in their order. -/
def Step.errors : Step → List LexicalError
  | scan source => (Scan.ofText source.toList).errors
  | receive error => [error]
  | reset => []

/-- The tokens that come of a step. A scan gives those of a scan into a new log. -/
def Step.tokens? : Step → Option TokenStream
  | scan source => some (Scan.ofSource source).stream
  | receive _ => none
  | reset => none

variable {σ : Type} [Sink σ]

/-- A step has its tokens from any sink, and hands to any sink its errors, unless it is a reset. -/
theorem take_eq (sink : σ) (step : Step) :
    take sink step =
      (step.tokens?, if step = .reset then reset sink else receiveAll step.errors sink) := by
  cases step with
  | scan source =>
    rw [if_neg (by simp)]
    show (some (scan source sink).1, (scan source sink).2) =
      (some (Scan.ofSource source).stream, receiveAll (Scan.ofText source.toList).errors sink)
    rw [Scan.ofSource_eq, scan_eq]
  | receive error => rfl
  | reset => rfl

theorem take_of_ne_reset {step : Step} (h : step ≠ .reset) (sink : σ) :
    take sink step = (step.tokens?, receiveAll step.errors sink) := by
  rw [take_eq, if_neg h]

theorem run_concat (sink : σ) (steps : List Step) (step : Step) :
    run sink (steps ++ [step]) = (take (run sink steps) step).2 := by
  simp [run]

/-- What comes of a step in a sequence: the step is taken by the sink that the steps before it leave
behind. -/
theorem getElem?_trace (sink : σ) (before : List Step) (step : Step) (after : List Step) :
    (trace sink (before ++ step :: after))[before.length]? = some (take (run sink before) step) := by
  induction before generalizing sink with
  | nil => rfl
  | cons first before ih =>
    show (trace (take sink first).2 (before ++ step :: after))[before.length]? = _
    rw [ih, run_cons]

/-! ## What came in a sequence of steps -/

/-- The errors that came in a sequence of steps, the first one first. -/
def received (steps : List Step) : List LexicalError := steps.flatMap Step.errors

/-- The errors that came since the last reset, or since the beginning if there was none. -/
def receivedSinceReset (steps : List Step) : List LexicalError :=
  received (steps.rtakeWhile (· != .reset))

theorem received_concat (steps : List Step) (step : Step) :
    received (steps ++ [step]) = received steps ++ step.errors := by
  simp [received]

theorem receivedSinceReset_reset (steps : List Step) :
    receivedSinceReset (steps ++ [.reset]) = [] := by
  rw [receivedSinceReset, List.rtakeWhile_concat_neg _ _ _ (by simp)]
  rfl

theorem receivedSinceReset_of_ne_reset {step : Step} (h : step ≠ .reset) (steps : List Step) :
    receivedSinceReset (steps ++ [step]) = receivedSinceReset steps ++ step.errors := by
  rw [receivedSinceReset, List.rtakeWhile_concat_pos _ _ _ (by simpa using h), received_concat]
  rfl

/-! ## Sinks that take the same steps -/

/-- What a log, a count and a console hold together behind a sequence of steps. -/
structure Agree (file : SourceFile) (steps : List Step) (log : ErrorLog) (tally : ErrorCount)
    (console : Console) : Prop where
  errors_eq : log.errors = receivedSinceReset steps
  count_eq : tally.count = log.errors.length
  file_eq : console.file = file
  hasPrinted_eq : console.hasPrinted = !(received steps).isEmpty

theorem receiveAll_file (errors : List LexicalError) (console : Console) :
    (receiveAll errors console).file = console.file := by
  induction errors generalizing console with
  | nil => rfl
  | cons error errors ih =>
    rw [receiveAll_cons, ih]
    rfl

/-- Sinks that agree still do when all of them have taken a step. -/
theorem Agree.take {file : SourceFile} {steps : List Step} {log : ErrorLog} {tally : ErrorCount}
    {console : Console} (h : Agree file steps log tally console) (step : Step) :
    Agree file (steps ++ [step]) (take log step).2 (take tally step).2 (take console step).2 := by
  by_cases hReset : step = .reset
  · subst hReset
    constructor
    · rw [receivedSinceReset_reset]
      rfl
    · rfl
    · exact h.file_eq
    · rw [received_concat]
      show console.hasPrinted = !(received steps ++ []).isEmpty
      rw [List.append_nil, h.hasPrinted_eq]
  · simp only [take_of_ne_reset hReset]
    constructor
    · rw [ErrorLog.receiveAll_errors, h.errors_eq, receivedSinceReset_of_ne_reset hReset]
    · rw [ErrorCount.receiveAll_count, ErrorLog.receiveAll_errors, h.count_eq, List.length_append]
    · rw [receiveAll_file, h.file_eq]
    · rw [Console.receiveAll_hasPrinted, h.hasPrinted_eq, received_concat]
      cases received steps with
      | nil => rfl
      | cons _ _ => rfl

/-- Sinks that are new agree behind every run. -/
theorem agree_run (file : SourceFile) (steps : List Step) :
    Agree file steps (run {} steps) (run {} steps) (run ⟨file, false⟩ steps) := by
  induction steps using List.reverseRecOn with
  | nil => exact ⟨rfl, rfl, rfl, rfl⟩
  | append_singleton steps step ih =>
    rw [run_concat, run_concat, run_concat]
    exact ih.take step

/-- Sinks that are new and take the same steps agree behind each of them. All of them get the same
tokens from a scan, and these are the tokens of a scan into a new log. The log holds the errors that
came since the last reset, in their order, and the count is their number. The console has printed
something if and only if an error came at all. -/
theorem sinks_agree (file : SourceFile) (before : List Step) (step : Step) (after : List Step) :
    let steps := before ++ step :: after
    let held := receivedSinceReset (before ++ [step])
    (trace ({} : ErrorLog) steps)[before.length]? = some (step.tokens?, ⟨held⟩) ∧
      (trace ({} : ErrorCount) steps)[before.length]? = some (step.tokens?, ⟨held.length⟩) ∧
      (trace ({} : Silence) steps)[before.length]? = some (step.tokens?, {}) ∧
      (trace (⟨file, false⟩ : Console) steps)[before.length]? =
        some (step.tokens?, ⟨file, !(received (before ++ [step])).isEmpty⟩) := by
  intro steps held
  -- The sink behind the step is the one that a run up to it ends with.
  have hTrace {σ : Type} [Sink σ] (sink : σ) : (trace sink steps)[before.length]? =
      some (step.tokens?, run sink (before ++ [step])) := by
    rw [getElem?_trace, run_concat, take_eq]
  have hAgree := agree_run file (before ++ [step])
  have hLog : run ({} : ErrorLog) (before ++ [step]) = ⟨held⟩ := congrArg ErrorLog.mk hAgree.errors_eq
  have hTally : run ({} : ErrorCount) (before ++ [step]) = ⟨held.length⟩ :=
    congrArg ErrorCount.mk (hAgree.count_eq.trans (by rw [hLog]))
  have hConsole : run (⟨file, false⟩ : Console) (before ++ [step]) =
      ⟨file, !(received (before ++ [step])).isEmpty⟩ :=
    congrArg₂ Console.mk hAgree.file_eq hAgree.hasPrinted_eq
  exact ⟨by rw [hTrace, hLog], by rw [hTrace, hTally], hTrace _, by rw [hTrace, hConsole]⟩

/-- A reset empties the log, but what was printed stays printed. -/
example (file : SourceFile) :
    run ({} : ErrorLog) [.receive (.unterminatedString 1), .reset] = {} ∧
      run (⟨file, false⟩ : Console) [.receive (.unterminatedString 1), .reset] = ⟨file, true⟩ :=
  ⟨rfl, rfl⟩

end Sink

end LoxLexer
