import SourceCritic.Violation

/-!
# Verdicts

The overall judgement of a run.  It is picked from the worst grade among the violations; in the
harsh mode every violation counts as one of the worst grade.
-/

namespace SourceCritic

inductive Verdict where
  | clean
  | tolerable
  | needsWork
  | earthquake
  deriving DecidableEq, Repr

namespace Verdict

/-- The judgement as a number, larger for a harsher one. -/
def rank : Verdict → Nat
  | .clean => 0
  | .tolerable => 1
  | .needsWork => 2
  | .earthquake => 3

/-- The judgement that a single violation of a grade leads to. -/
def ofSeverity (harsh : Bool) : Severity → Verdict
  | .brutal => .earthquake
  | .moderate => if harsh then .earthquake else .needsWork
  | .gentle => if harsh then .earthquake else .tolerable

def ofViolations (violations : List Violation) (harsh : Bool) : Verdict :=
  match Severity.worst? (violations.map (·.severity)) with
  | none => .clean
  | some severity => ofSeverity harsh severity

def message : Verdict → String
  | .clean => "No violations found. Suspiciously clean code... 🤔"
  | .tolerable => "Minor sins detected. Your code is mostly tolerable"
  | .needsWork => "Your code needs work"
  | .earthquake => "Your code looks like it was written during an earthquake"

end Verdict

end SourceCritic
