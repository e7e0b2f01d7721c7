import SourceCritic.Pattern.Search
import SourceCritic.Violation

/-!
# The import rule

A file depends on too much if it has 15 or more imports.  Two forms are counted: an import
statement that fills whole lines, and a call of `require` with a quoted argument.
-/

namespace SourceCritic.Rule.Imports

/-- An import statement from the start of a line to the end of one. -/
def statement : Pattern where
  first := .lineStart
  items :=
    Item.text "import" ++
      [.one .space, .many .longest .space, .many .shortest .inLine] ++
      Item.text "from" ++
      [.one .space, .many .longest .space, .one .quote, .many .shortest .inLine, .one .quote,
        .optional (.literal ';')]
  last := .lineEnd

/-- A call of `require` whose argument starts and ends with a quote. -/
def call : Pattern where
  first := .anywhere
  items :=
    Item.text "require" ++
      [.many .longest .space, .one (.literal '('), .one .quote, .many .shortest .inLine,
        .one .quote, .one (.literal ')')]
  last := .anywhere

/-- The texts of all imports: first the statements, then the calls. -/
def imports (text : List Char) : List String :=
  (statement.occurrences text ++ call.occurrences text).map fun occurrence =>
    String.ofList occurrence.matched

/-- The grade of a file with a number of imports. -/
def severity? (count : Nat) : Option Severity :=
  if count < 15 then
    none
  else if count < 25 then
    some .moderate
  else
    some .brutal

def message (count : Nat) : Severity → String
  | .brutal => s!"Import addiction detected: {count} dependencies is npm dependency hell"
  | _ => s!"Import ceremony: {count} imports suggests tight coupling"

def check (path : String) (text : List Char) : List Violation :=
  let found := imports text
  match severity? found.length with
  | none => []
  | some severity =>
      [{ rule := "import_ceremony"
         filePath := path
         lineNumber := 1
         severity := severity
         message := message found.length severity
         context :=
          .sortedObject
            [("import_count", .count found.length), ("imports", .array (found.map .string))] }]

end SourceCritic.Rule.Imports
