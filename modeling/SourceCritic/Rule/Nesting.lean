import SourceCritic.Text.Line
import SourceCritic.Violation

/-!
# The nesting rule

An estimate of how deep callbacks are nested.  A line that mentions a function opens one level,
and a line with more closing than opening braces closes as many levels as it has braces too many.
-/

namespace SourceCritic.Rule.Nesting

/-- Whether a line mentions a function. -/
def opensLevel (line : List Char) : Bool :=
  Text.holds "function".toList line || Text.holds "=>".toList line

/-- The number of levels that a line closes. -/
def closedLevels (line : List Char) : Nat :=
  line.count '}' - line.count '{'

/-- The number of open levels and the largest number so far. -/
structure Depth where
  current : Nat
  largest : Nat
  deriving DecidableEq, Repr

def Depth.next (depth : Depth) (line : List Char) : Depth :=
  let opened := if opensLevel line then depth.current + 1 else depth.current
  { current := opened - closedLevels line
    largest := max depth.largest opened }

/-- The largest number of levels that are open at once. -/
def deepest (text : List Char) : Nat :=
  ((Text.lines text).foldl Depth.next { current := 0, largest := 0 }).largest

def severity? (depth : Nat) : Option Severity :=
  if depth ≤ 4 then
    none
  else if depth ≤ 7 then
    some .moderate
  else
    some .brutal

def message (depth : Nat) : Severity → String
  | .brutal => s!"Callback hell detected: {depth} levels of nesting is async nightmare fuel"
  | _ => s!"Nested callbacks: {depth} levels suggests promise refactoring needed"

def check (path : String) (text : List Char) : List Violation :=
  let depth := deepest text
  match severity? depth with
  | none => []
  | some severity =>
      [{ rule := "callback_hell"
         filePath := path
         lineNumber := 1
         severity := severity
         message := message depth severity
         context := .sortedObject [("max_nesting", .count depth)] }]

end SourceCritic.Rule.Nesting
