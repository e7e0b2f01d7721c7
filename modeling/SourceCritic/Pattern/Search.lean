import SourceCritic.Pattern.Basic
import SourceCritic.Text.Line

/-!
# Searching for a pattern

Laid over the text behind a place, the items of a pattern may fit in several ways.  Where an item
may go on repeating or stop, its preference says which of the two is tried first, and the first
way that can be completed decides how long the match is.

What is tried first at a place depends on what can be completed at the next one, so the lengths
are found in one sweep from the end of the text to its beginning.  At every place the sweep keeps
the length for each tail of the items, and that row is all that the place in front needs.

`Pattern.occurrences` then reads the lengths from left to right: it takes the first place where
the pattern fits, and goes on behind what was taken.
-/

namespace SourceCritic

/-- The lengths of the preferred ways at one place, for each tail of a sequence of items, the
whole sequence first.  A tail that does not fit has none. -/
abbrev MatchRow : Type :=
  List (Option Nat)

namespace MatchRow

def whole (row : MatchRow) : Option Nat :=
  row.headD none

/-- The row at a place with the character `next` behind it.  `closes` tells whether a match may
end at the place, and `behind` is the row behind the character. -/
def atPlace (closes : Bool) (next : Option Char) : List Item → (behind : MatchRow) → MatchRow
  | [], _ => [if closes then some 0 else none]
  | item :: items, behind =>
      let later := atPlace closes next items behind.tail
      let taking (taken : CharClass) (rest : Option Nat) : Option Nat :=
        if next.any taken.contains then rest.map (· + 1) else none
      let length :=
        match item with
        | .one taken => taking taken (whole behind.tail)
        | .optional taken => (taking taken (whole behind.tail)).or later.whole
        | .many .longest taken => (taking taken behind.whole).or later.whole
        | .many .shortest taken => later.whole.or (taking taken behind.whole)
      length :: later

end MatchRow

/-- A sweep from the end of a text towards its beginning, in front of the character `next`.
`row` belongs to the place behind that character, and `lengths` holds the length of the match at
that place and at every later one. -/
structure Sweep where
  next : Option Char
  row : MatchRow
  lengths : List (Option Nat)
  deriving DecidableEq, Repr

namespace Sweep

/-- A sweep that has not visited any place of a text. -/
def start : Sweep where
  next := none
  row := []
  lengths := []

/-- Visits the place behind the character `previous`. -/
def visit (pattern : Pattern) (previous : Option Char) (sweep : Sweep) : Sweep :=
  let closes := pattern.last.holds previous sweep.next
  let row := MatchRow.atPlace closes sweep.next pattern.items sweep.row
  { next := previous
    row := row
    lengths :=
      (if pattern.first.holds previous sweep.next then row.whole else none) :: sweep.lengths }

/-- The sweep that has visited every place of a text but the one at its beginning. -/
def through (pattern : Pattern) (text : List Char) : Sweep :=
  text.foldr (fun current sweep => sweep.visit pattern (some current)) start

@[simp]
theorem through_nil (pattern : Pattern) : through pattern [] = start :=
  rfl

@[simp]
theorem through_cons (pattern : Pattern) (head : Char) (rest : List Char) :
    through pattern (head :: rest) = (through pattern rest).visit pattern (some head) :=
  rfl

end Sweep

/-- A match in a text: its place, the rest of the text from there on, and its length. -/
structure Occurrence where
  place : Text.Place
  tail : List Char
  length : Nat
  deriving DecidableEq, Repr

def Occurrence.matched (occurrence : Occurrence) : List Char :=
  occurrence.tail.take occurrence.length

namespace Pattern

/-- The length of the match at each place of a text, from its beginning to its end. -/
def lengths (pattern : Pattern) (text : List Char) : List (Option Nat) :=
  ((Sweep.through pattern text).visit pattern none).lengths

/-- The matches from a place on, after `skipped` more characters, for the lengths of the matches
at the places from there on. -/
def occurrencesFrom :
    (place : Text.Place) → (skipped : Nat) → (text : List Char) →
    (lengths : List (Option Nat)) → List Occurrence
  | _, _, [], _ => []
  | _, _, _ :: _, [] => []
  | place, skipped + 1, head :: rest, _ :: later =>
      occurrencesFrom (place.next head) skipped rest later
  | place, 0, head :: rest, none :: later =>
      occurrencesFrom (place.next head) 0 rest later
  | place, 0, head :: rest, some length :: later =>
      { place := place, tail := head :: rest, length := length } ::
        occurrencesFrom (place.next head) (length - 1) rest later

/-- The matches of a pattern in a text from left to right, each one behind the one before. -/
def occurrences (pattern : Pattern) (text : List Char) : List Occurrence :=
  occurrencesFrom .start 0 text (pattern.lengths text)

end Pattern

end SourceCritic
