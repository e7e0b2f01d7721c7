import SourceCritic.Text.Line
import SourceCritic.Text.Space
import SourceCritic.Violation

/-!
# The size rule

A file is too long if it has 200 lines or more that are not blank.
-/

namespace SourceCritic.Rule.Size

/-- The number of lines that hold something else than white space. -/
def filledLines (text : List Char) : Nat :=
  (Text.lines text).countP fun line => !Text.isBlank line

def severity? (count : Nat) : Option Severity :=
  if count < 200 then
    none
  else if count < 300 then
    some .gentle
  else if count < 500 then
    some .moderate
  else
    some .brutal

def message (count : Nat) : Severity → String
  | .brutal => s!"Architectural war crime: {count} lines of JavaScript chaos"
  | .moderate => s!"JavaScript novel detected: {count} lines of callback spaghetti"
  | .gentle => s!"File bloat detected: {count} lines need refactoring"

def check (path : String) (text : List Char) : List Violation :=
  let count := filledLines text
  match severity? count with
  | none => []
  | some severity =>
      [{ rule := "giant_file"
         filePath := path
         lineNumber := count
         severity := severity
         message := message count severity
         context := .sortedObject [("line_count", .count count)] }]

end SourceCritic.Rule.Size
