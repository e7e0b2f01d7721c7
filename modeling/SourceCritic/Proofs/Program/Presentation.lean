import Mathlib
import SourceCritic.Program
import SourceCritic.Proofs.Json.Documents
import SourceCritic.Proofs.SourceFiles.Enumeration

/-!
# Conclusions and their presentation

What the program finds out depends on the files, on the root and on the file with the settings.  How
it is told depends on the other arguments and on the surroundings.  The two do not mix: the status
and the JSON output follow from the conclusion alone, a report is printed only where there is
something to report, and settings that cannot be loaded end the program before it looks at anything
else.
-/

namespace SourceCritic.Program

open CommandLine (Options Request)

/-! ## Conclusions -/

/-- What the program finds out: the violations of the run, or what is wrong with the settings or
with the root. -/
def conclusion (files : FileSystem) (path : Path) (config : Option Path) :
    Except String (List Violation) :=
  match config.elim (.ok .default) (Config.load files) with
  | .error error => .error error.message
  | .ok settings =>
      match (Run.start files settings path).outcome with
      | .error error => .error error.message
      | .ok analysis => .ok analysis.violations

/-- Whether there is a failure or a violation of the worst grade. -/
def isBad : Except String (List Violation) → Bool
  | .error _ => true
  | .ok violations => violations.any fun violation => violation.severity = .brutal

variable {files : FileSystem} {surroundings : Surroundings} {options : Options}

theorem loadConfig_eq_elim (files : FileSystem) (options : Options) :
    loadConfig files options = options.config.elim (.ok .default) (Config.load files) := by
  rw [loadConfig]
  cases options.config with
  | none => rfl
  | some path => rfl

/-! ## How a conclusion is told -/

theorem status_success (surroundings : Surroundings) (options : Options) (analysis : Analysis) :
    (success surroundings options analysis).status = (isBad (.ok analysis.violations)).toNat := by
  rw [success, isBad]
  cases analysis.violations.any fun violation => violation.severity = .brutal with
  | false => rfl
  | true => rfl

/-- The status is 1 for a bad conclusion and 0 for any other one. -/
theorem status_runWith (files : FileSystem) (surroundings : Surroundings) (options : Options) :
    (runWith files surroundings options).status =
      (isBad (conclusion files options.path options.config)).toNat := by
  rw [runWith, conclusion, loadConfig_eq_elim]
  cases options.config.elim (.ok .default) (Config.load files) with
  | error error =>
      simp only [configFailure]
      split <;> rfl
  | ok settings =>
      simp only
      cases (Run.start files settings options.path).outcome with
      | error error =>
          simp only [runFailure]
          split <;> rfl
      | ok analysis => exact status_success surroundings options analysis

theorem execute_of_accepted
    {arguments : List (List UInt8)} (accepted : Request.ofArguments arguments = .run options)
    (files : FileSystem) (surroundings : Surroundings) :
    execute files surroundings arguments = runWith files surroundings options := by
  rw [execute, accepted]

end SourceCritic.Program
