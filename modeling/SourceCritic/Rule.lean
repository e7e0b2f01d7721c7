import SourceCritic.Rule.Functions
import SourceCritic.Rule.Imports
import SourceCritic.Rule.Inline
import SourceCritic.Rule.Nesting
import SourceCritic.Rule.Size

/-!
# All rules

The rules in the order in which they are applied to a file.
-/

namespace SourceCritic

inductive Rule where
  | size
  | imports
  | nesting
  | functions
  | inline
  deriving DecidableEq, Repr

namespace Rule

/-- The order in which rules are applied. -/
def all : List Rule :=
  [.size, .imports, .nesting, .functions, .inline]

def check : Rule → (path : String) → (text : List Char) → List Violation
  | .size => Size.check
  | .imports => Imports.check
  | .nesting => Nesting.check
  | .functions => Functions.check
  | .inline => Inline.check

end Rule

/-- The violations in the text of a file: rule by rule, and in the order of the text within each
rule. -/
def analyze (path : String) (text : String) : List Violation :=
  Rule.all.flatMap fun rule => rule.check path text.toList

end SourceCritic
