import SourceCritic.Text.Space

/-!
# Patterns

A pattern is a sequence of items, each of which takes characters of one class: exactly one, at
most one, or any number of them.  A pattern may also ask for a place in the text at which its
match has to begin and for one at which it has to end.

`Matches` says which texts a sequence of items can be laid over in some way; it ignores which
repetitions are preferred.  The search in `SourceCritic.Pattern.Search` does not ignore it.
-/

namespace SourceCritic

/-- Whether a character is an ASCII letter, an ASCII digit or an underscore. -/
def Text.isWordCharacter (tested : Char) : Bool :=
  tested.isAlphanum || tested = '_'

/-- Whether a character divides lines for a pattern. -/
def Text.isLineBreak (tested : Char) : Bool :=
  tested = '\n' || tested = '\r'

/-- A set of characters that an item may take. -/
inductive CharClass where
  | literal (expected : Char)
  | space
  | word
  | quote
  | inLine
  deriving DecidableEq, Repr

def CharClass.contains : CharClass → Char → Bool
  | .literal expected, tested => tested = expected
  | .space, tested => Text.isSpace tested
  | .word, tested => Text.isWordCharacter tested
  | .quote, tested => tested = '\'' || tested = '"'
  | .inLine, tested => !Text.isLineBreak tested

/-- Which end of a repetition is tried first: the longest or the shortest. -/
inductive Preference where
  | longest
  | shortest
  deriving DecidableEq, Repr

/-- One step of a pattern. -/
inductive Item where
  | one (taken : CharClass)
  | optional (taken : CharClass)
  | many (preference : Preference) (taken : CharClass)
  deriving DecidableEq, Repr

/-- A condition on the two characters around a place, either of which is missing at an end of
the text. -/
inductive Anchor where
  | anywhere
  | lineStart
  | lineEnd
  | wordEdge
  deriving DecidableEq, Repr

/-- Whether an anchor holds between two characters.  A `'\r'` and the `'\n'` behind it divide
lines together, so no line starts or ends between them. -/
def Anchor.holds : Anchor → Option Char → Option Char → Bool
  | .anywhere, _, _ => true
  | .lineStart, none, _ => true
  | .lineStart, some before, after => before = '\n' || (before = '\r' && after ≠ some '\n')
  | .lineEnd, _, none => true
  | .lineEnd, before, some after => after = '\r' || (after = '\n' && before ≠ some '\r')
  | .wordEdge, before, after =>
      before.any Text.isWordCharacter != after.any Text.isWordCharacter

/-- A sequence of items between two anchors. -/
structure Pattern where
  first : Anchor
  items : List Item
  last : Anchor
  deriving DecidableEq, Repr

def Item.text (expected : String) : List Item :=
  expected.toList.map fun character => .one (.literal character)

/-- `Matches items text` holds if the whole of `text` can be divided among the items in order. -/
inductive Matches : List Item → List Char → Prop where
  | nil : Matches [] []
  | one {taken : CharClass} {items : List Item} {head : Char} {rest : List Char} :
      taken.contains head = true →
      Matches items rest →
      Matches (.one taken :: items) (head :: rest)
  | absent {taken : CharClass} {items : List Item} {text : List Char} :
      Matches items text →
      Matches (.optional taken :: items) text
  | present {taken : CharClass} {items : List Item} {head : Char} {rest : List Char} :
      taken.contains head = true →
      Matches items rest →
      Matches (.optional taken :: items) (head :: rest)
  | finished {preference : Preference} {taken : CharClass} {items : List Item}
      {text : List Char} :
      Matches items text →
      Matches (.many preference taken :: items) text
  | another {preference : Preference} {taken : CharClass} {items : List Item}
      {head : Char} {rest : List Char} :
      taken.contains head = true →
      Matches (.many preference taken :: items) rest →
      Matches (.many preference taken :: items) (head :: rest)

/-- `pattern.Spans before matched after` holds if the pattern fits `matched` where it stands
in the text `before ++ matched ++ after`. -/
def Pattern.Spans (pattern : Pattern) (before matched after : List Char) : Prop :=
  Matches pattern.items matched ∧
    pattern.first.holds before.getLast? (matched ++ after).head? = true ∧
    pattern.last.holds (before ++ matched).getLast? after.head? = true

end SourceCritic
