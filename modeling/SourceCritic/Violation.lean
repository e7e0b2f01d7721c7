import SourceCritic.Json.Basic
import SourceCritic.Severity

/-!
# Violations

What a rule has to say about a file, and how it stands in a JSON report.
-/

namespace SourceCritic

/-- One complaint of one rule about one file. -/
structure Violation where
  rule : String
  filePath : String
  lineNumber : Nat
  severity : Severity
  message : String
  context : Json
  deriving Repr

namespace Violation

/-- A violation as an object with six members in a fixed order. -/
def toJson (violation : Violation) : Json :=
  .object
    [("rule", .string violation.rule),
      ("file_path", .string violation.filePath),
      ("line_number", .count violation.lineNumber),
      ("severity", .string violation.severity.word),
      ("message", .string violation.message),
      ("context", violation.context)]

/-- The violations of one grade, in the order in which they were found. -/
def bucket (violations : List Violation) (severity : Severity) : List Violation :=
  violations.filter fun violation => violation.severity = severity

end Violation

end SourceCritic
