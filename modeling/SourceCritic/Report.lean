import SourceCritic.Analysis
import SourceCritic.Json.Printer
import SourceCritic.Text.Style
import SourceCritic.Verdict

/-!
# Reports

The result of a run for a reader, with the worst violations first and a verdict at the end, or
for a program, as a JSON document.
-/

namespace SourceCritic.Report

/-- How a report for a reader looks: with styles or without, and with the measured values of
every violation and a harsh verdict or without. -/
structure Options where
  colored : Bool
  harsh : Bool

def version : String :=
  "0.1.0"

def motto : String :=
  "Your code is shit. Here's why."

/-- The order in which the grades are reported. -/
def grades : List Severity :=
  [.brutal, .moderate, .gentle]

/-- The style of a grade. -/
def style : Severity → Text.Style
  | .brutal => [.brightRed]
  | .moderate => [.yellow]
  | .gentle => [.blue]

def title : Severity → String
  | .brutal => "💀 BRUTAL VIOLATIONS"
  | .moderate => "⚠️  MODERATE VIOLATIONS"
  | .gentle => "👀 GENTLE VIOLATIONS"

def verdictStyle : Verdict → Text.Style
  | .clean => [.green]
  | .tolerable => [.blue]
  | .needsWork => [.yellow]
  | .earthquake => [.bold, .brightRed]

def decimal (value : Nat) : String :=
  String.ofList (Nat.toDigits 10 value)

/-- The lines for one violation. -/
def entry (options : Options) (violation : Violation) : List String :=
  let styled := Text.styled options.colored
  let color := style violation.severity
  let place := styled [.bold] (violation.filePath ++ ":" ++ decimal violation.lineNumber)
  let line :=
    "  " ++ place ++ " [" ++ styled color violation.rule ++ "] " ++
      styled color violation.message
  if options.harsh then
    [line,
      "    " ++ styled [.dimmed] "Metrics:" ++ " " ++
        styled [.dimmed] violation.context.compact]
  else
    [line]

/-- The lines for all violations of a grade, if there are any. -/
def gradeLines (options : Options) (violations : List Violation) (severity : Severity) :
    List String :=
  let entries := Violation.bucket violations severity
  if entries.isEmpty then
    []
  else
    let heading := Text.styled options.colored (.bold :: style severity) (title severity)
    (heading ++ " (" ++ decimal entries.length ++ ")") ::
      (entries.flatMap (entry options) ++ [""])

/-- The line that sums a run up.  `elapsed` is the time that it took. -/
def summary (options : Options) (analysis : Analysis) (elapsed : String) : String :=
  let styled := Text.styled options.colored
  let counts := grades.map fun severity =>
    styled (style severity)
      (decimal (Violation.bucket analysis.violations severity).length ++ " " ++ severity.word)
  let separator := " " ++ styled [.dimmed] "·" ++ " "
  "Done: " ++
    separator.intercalate ((decimal analysis.filesScanned ++ " scanned") :: counts ++ [elapsed])

def judgement (options : Options) (violations : List Violation) : String :=
  let verdict := Verdict.ofViolations violations options.harsh
  Text.styled options.colored (verdictStyle verdict) ("VERDICT: " ++ verdict.message)

def lines (options : Options) (analysis : Analysis) (elapsed : String) : List String :=
  let styled := Text.styled options.colored
  [styled [.bold] "🔍" ++ " " ++ styled [.bold, .brightRed] "SHITLINT ANALYSIS" ++ " v" ++ version,
    styled [.italic] motto,
    ""] ++
    grades.flatMap (gradeLines options analysis.violations) ++
    [summary options analysis elapsed, judgement options analysis.violations]

def joinLines (lines : List String) : String :=
  String.join (lines.map (· ++ "\n"))

/-- A report for a reader. -/
def human (options : Options) (analysis : Analysis) (elapsed : String) : String :=
  joinLines (lines options analysis elapsed)

def json (violations : List Violation) : String :=
  (Json.array (violations.map Violation.toJson)).pretty

def jsonError (message : String) : String :=
  (Json.object [("error", .string message)]).pretty

end SourceCritic.Report
