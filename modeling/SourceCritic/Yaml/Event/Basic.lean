import SourceCritic.Yaml.Token.Basic

/-!
# YAML events

What a YAML text says, in the order in which it says it: documents, and in them scalars, aliases
and collections with everything between their beginning and their end.
-/

namespace SourceCritic.Yaml

/-- A scalar with its tag, if it has one that matters. -/
structure Scalar where
  style : ScalarStyle
  tag : Option (List Char)
  text : List Char
  deriving DecidableEq, Repr

/-- What happens in a text.  The name of an anchor stands in front of what it names. -/
inductive EventKind where
  | streamStart
  | streamEnd
  | documentStart
  | documentEnd
  | alias (name : List Char)
  | scalar (anchor : Option (List Char)) (scalar : Scalar)
  | sequenceStart (anchor : Option (List Char))
  | sequenceEnd
  | mappingStart (anchor : Option (List Char))
  | mappingEnd
  deriving DecidableEq, Repr

structure Event where
  kind : EventKind
  mark : Mark
  deriving DecidableEq, Repr

namespace Event

/-- The scalar that stands where nothing is written. -/
def emptyScalar (mark : Mark) : Event where
  kind := .scalar none { style := .plain, tag := none, text := [] }
  mark := mark

end Event

end SourceCritic.Yaml
