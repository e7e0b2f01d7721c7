import SourceCritic.Pattern.Search
import SourceCritic.Violation

/-!
# The function rule

Every declaration of a named function is looked at on its own.  Its body is taken to end at the
first closing brace that balances the braces since the declaration began; the body is too complex
if it has more than ten branches or more than fifty lines.
-/

namespace SourceCritic.Rule.Functions

/-- The head of a declaration: the word `function`, a name and an opening parenthesis. -/
def declaration : Pattern where
  first := .anywhere
  items :=
    Item.text "function" ++
      [.one .space, .many .longest .space, .one .word, .many .longest .word,
        .many .longest .space, .one (.literal '(')]
  last := .anywhere

def declaredName (head : List Char) : List Char :=
  ((head.drop "function".length).dropWhile Text.isSpace).takeWhile Text.isWordCharacter

/-- The words that begin a branch. -/
def branchWords : List String :=
  ["if", "else", "for", "while", "switch", "case", "try", "catch"]

/-- A word with no word character on either side. -/
def wholeWord (word : String) : Pattern where
  first := .wordEdge
  items := Item.text word
  last := .wordEdge

/-- The number of branches of a body, the straight one included. -/
def complexity (body : List Char) : Nat :=
  1 + (branchWords.map fun word => ((wholeWord word).occurrences body).length).foldl Nat.add 0

/-- The number of characters in front of the closing brace that ends a body.  `depth` is the
number of opening less the number of closing braces so far, `opened` tells whether there has been
an opening brace, and `length` is the number of characters passed. -/
def bodyLength? :
    (depth : Int) → (opened : Bool) → (length : Nat) → (text : List Char) → Option Nat
  | _, _, _, [] => none
  | depth, opened, length, head :: rest =>
      if head = '{' then
        bodyLength? (depth + 1) true (length + 1) rest
      else if head = '}' then
        if depth - 1 = 0 ∧ opened then
          some length
        else
          bodyLength? (depth - 1) opened (length + 1) rest
      else
        bodyLength? depth opened (length + 1) rest

/-- The text from a declaration to the end of its body, without the closing brace. -/
def body? (tail : List Char) : Option (List Char) :=
  (bodyLength? 0 false 0 tail).map tail.take

structure Measure where
  name : List Char
  line : Nat
  complexity : Nat
  lines : Nat
  deriving DecidableEq, Repr

namespace Measure

/-- Measures a declaration, unless its body has no end. -/
def ofOccurrence? (occurrence : Occurrence) : Option Measure :=
  (body? occurrence.tail).map fun body =>
    { name := declaredName occurrence.matched
      line := occurrence.place.line
      complexity := Functions.complexity body
      lines := Text.lineCount body }

def severity? (measure : Measure) : Option Severity :=
  if measure.complexity > 15 ∨ measure.lines > 80 then
    some .brutal
  else if measure.complexity > 10 ∨ measure.lines > 50 then
    some .moderate
  else
    none

def message (measure : Measure) (severity : Severity) : String :=
  let name := String.ofList measure.name
  let branches := measure.complexity
  let lines := measure.lines
  match severity with
  | .brutal => s!"Function '{name}' is a complexity nightmare: {branches} branches, {lines} lines"
  | _ => s!"Function '{name}' is getting complex: {branches} branches, {lines} lines"

/-- The violation for a declaration, if it deserves one. -/
def violation? (path : String) (measure : Measure) : Option Violation :=
  measure.severity?.map fun severity =>
    { rule := "complex_function"
      filePath := path
      lineNumber := measure.line
      severity := severity
      message := measure.message severity
      context :=
        .sortedObject
          [("complexity", .count measure.complexity), ("lines", .count measure.lines)] }

end Measure

/-- Reports the declarations that are too complex, in the order in which they begin. -/
def check (path : String) (text : List Char) : List Violation :=
  ((declaration.occurrences text).filterMap Measure.ofOccurrence?).filterMap
    (Measure.violation? path)

end SourceCritic.Rule.Functions
