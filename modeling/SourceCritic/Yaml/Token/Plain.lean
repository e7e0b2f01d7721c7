import SourceCritic.Yaml.Token.Basic

/-!
# Plain scalars

A scalar without quotes goes on until something follows that may not be part of it.  In a flow
collection that includes the characters which divide the collection.
-/

namespace SourceCritic.Yaml.Plain

/-- Whether a character divides a flow collection. -/
def isFlowIndicator (tested : Char) : Bool :=
  tested = ',' || tested = '[' || tested = ']' || tested = '{' || tested = '}'

/-- A scalar that is being read: its text reversed, the white space behind that and whether there
was any, and the mark behind its last character. -/
structure State where
  text : List Char
  gap : Gap
  paused : Bool
  last : Mark
  deriving DecidableEq, Repr

/-- What was read: a text, the mark behind it, whether a line was broken behind it, and the
cursor behind the white space that follows. -/
structure Result where
  text : List Char
  last : Mark
  broken : Bool
  after : Cursor

def State.finish (state : State) (after : Cursor) : Result where
  text := state.text.reverse
  last := state.last
  broken := state.gap.broken
  after := after

/-- Reads the rest of a plain scalar.  `began` is the mark of its first character and `indent`
the least column at which a later line of it may start. -/
def scanFrom (inFlow : Bool) (indent : Int) (began : Mark) :
    State → Mark → List Char → Except SyntaxError Result
  | state, mark, [] => .ok (state.finish { rest := [], mark := mark })
  | state, mark, head :: rest =>
      let here : Cursor := { rest := head :: rest, mark := mark }
      if isBlank head then
        if state.gap.broken && decide ((mark.column : Int) < indent) && head = '\t' then
          .error (.during .plainScalar began .tabBeforeIndent mark)
        else
          scanFrom inFlow indent began
            { state with gap := state.gap.addBlank head, paused := true } (mark.advance 1) rest
      else if isBreak head then
        let broken := { state with gap := state.gap.addBreak head, paused := true }
        match head, rest with
        | '\r', '\n' :: later => scanFrom inFlow indent began broken (mark.newLine 2) later
        | _, later => scanFrom inFlow indent began broken (mark.newLine 1) later
      else if state.paused && !inFlow && decide ((mark.column : Int) < indent) then
        .ok (state.finish here)
      else if startsDocumentMark mark.column (head :: rest) then
        .ok (state.finish here)
      else if state.paused && head = '#' then
        .ok (state.finish here)
      else if inFlow && head = ':' && rest.head?.any (fun next =>
          isFlowIndicator next || next = '?') then
        .error (.during .plainScalar began .misplacedColon mark)
      else if (head = ':' && startsBlank rest) || (inFlow && isFlowIndicator head) then
        .ok (state.finish here)
      else
        scanFrom inFlow indent began
          { text := head :: (state.gap.text.reverse ++ state.text)
            gap := .none
            paused := false
            last := mark.advance 1 }
          (mark.advance 1) rest

def scan (inFlow : Bool) (indent : Int) (cursor : Cursor) : Except SyntaxError Result :=
  scanFrom inFlow indent cursor.mark
    { text := [], gap := .none, paused := false, last := cursor.mark } cursor.mark cursor.rest

end SourceCritic.Yaml.Plain
