import SourceCritic.Yaml.Input

/-!
# YAML tokens

The words of a YAML text.  Indentation is told by tokens that begin and end block collections.
-/

namespace SourceCritic.Yaml

inductive ScalarStyle where
  | plain
  | singleQuoted
  | doubleQuoted
  | literal
  | folded
  deriving DecidableEq, Repr

inductive TokenKind where
  | streamStart
  | streamEnd
  | version (major minor : Nat)
  | tagHandle (handle expansion : List Char)
  | documentStart
  | documentEnd
  | blockSequenceStart
  | blockMappingStart
  | blockEnd
  | flowSequenceStart
  | flowSequenceEnd
  | flowMappingStart
  | flowMappingEnd
  | blockEntry
  | flowEntry
  | key
  | value
  | alias (name : List Char)
  | anchor (name : List Char)
  | tag (handle suffix : List Char)
  | scalar (style : ScalarStyle) (text : List Char)
  deriving DecidableEq, Repr

structure Token where
  kind : TokenKind
  first : Mark
  last : Mark
  deriving DecidableEq, Repr

/-- The white space since the last character of a scalar that may go on over several lines: the
blanks on the first line, and whether and how the line was broken. -/
structure Gap where
  blanks : List Char
  broken : Bool
  firstBreak : Option Char
  laterBreaks : List Char
  deriving DecidableEq, Repr

namespace Gap

def none : Gap where
  blanks := []
  broken := false
  firstBreak := Option.none
  laterBreaks := []

/-- A line break that leaves no trace. -/
def escapedBreak : Gap where
  blanks := []
  broken := true
  firstBreak := Option.none
  laterBreaks := []

/-- One more blank, which counts only in front of the first line break. -/
def addBlank (gap : Gap) (blank : Char) : Gap :=
  if gap.broken then gap else { gap with blanks := gap.blanks ++ [blank] }

/-- One more line break, which takes the blanks in front of it away. -/
def addBreak (gap : Gap) (lineBreak : Char) : Gap :=
  if gap.broken then
    { gap with laterBreaks := gap.laterBreaks ++ [foldedBreak lineBreak] }
  else
    { gap with blanks := [], broken := true, firstBreak := some (foldedBreak lineBreak) }

/-- What the white space amounts to in the scalar: a single line break becomes a space, and of
several line breaks the first one vanishes. -/
def text (gap : Gap) : List Char :=
  if !gap.broken then
    gap.blanks
  else if gap.firstBreak = some '\n' then
    if gap.laterBreaks.isEmpty then [' '] else gap.laterBreaks
  else
    gap.firstBreak.toList ++ gap.laterBreaks

end Gap

end SourceCritic.Yaml
