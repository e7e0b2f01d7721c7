import SourceCritic.Pattern.Search
import SourceCritic.Violation

/-!
# The inline creation rule

In markup files, an object or a function that is written in place is created anew on every
rendering.  A file counts as markup if its path mentions `tsx` or `jsx` anywhere.
-/

namespace SourceCritic.Rule.Inline

inductive Creation where
  | object
  | function
  deriving DecidableEq, Repr

namespace Creation

def word : Creation → String
  | .object => "object"
  | .function => "function"

/-- How a kind of creation is recognised: an object between double braces, or an arrow function
between braces. -/
def pattern : Creation → Pattern
  | .object =>
      { first := .anywhere
        items :=
          [.one (.literal '{'), .many .longest .space, .one (.literal '{'),
            .many .shortest .inLine, .one (.literal '}'), .many .longest .space,
            .one (.literal '}')]
        last := .anywhere }
  | .function =>
      { first := .anywhere
        items :=
          [.one (.literal '{'), .many .longest .space, .one (.literal '('),
            .many .shortest .inLine, .one (.literal ')'), .many .longest .space,
            .one (.literal '='), .one (.literal '>'), .many .longest .space,
            .many .shortest .inLine, .one (.literal '}')]
        last := .anywhere }

def violation (path : String) (creation : Creation) (line : Nat) : Violation :=
  let kind := creation.word
  { rule := "react_inline_creation"
    filePath := path
    lineNumber := line
    severity := .moderate
    message := s!"Inline {kind} creation in JSX causes unnecessary re-renders"
    context := .sortedObject [("type", .string kind)] }

end Creation

/-- Whether a path is the path of a markup file. -/
def isMarkup (path : String) : Bool :=
  Text.holds "tsx".toList path.toList || Text.holds "jsx".toList path.toList

/-- Reports everything that is created in place: first the objects, then the functions. -/
def check (path : String) (text : List Char) : List Violation :=
  if isMarkup path then
    [Creation.object, Creation.function].flatMap fun creation =>
      (creation.pattern.occurrences text).map fun occurrence =>
        creation.violation path occurrence.place.line
  else
    []

end SourceCritic.Rule.Inline
