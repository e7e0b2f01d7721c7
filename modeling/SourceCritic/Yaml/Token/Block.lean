import SourceCritic.Yaml.Token.Basic

/-!
# Block scalars

A scalar that consists of all following lines that are indented deep enough.  Its header may fix
the indentation and tell which line breaks at its end are kept.
-/

namespace SourceCritic.Yaml.Block

/-- Which line breaks at the end are kept: none, one or all of them. -/
inductive Chomping where
  | strip
  | clip
  | keep
  deriving DecidableEq, Repr

def chomping? : Char → Option Chomping
  | '+' => some .keep
  | '-' => some .strip
  | _ => none

/-- What the header of a block scalar says. -/
structure Header where
  chomping : Chomping
  increment : Nat
  deriving DecidableEq, Repr

def scanIncrement (began : Mark) (cursor : Cursor) : Except SyntaxError (Nat × Cursor) :=
  match cursor.rest with
  | digit :: _ =>
      if digit = '0' then
        .error (.during .blockScalar began .zeroIndent cursor.mark)
      else if digit.isDigit then
        .ok (digit.toNat - '0'.toNat, cursor.skip 1)
      else
        .ok (0, cursor)
  | [] => .ok (0, cursor)

def scanChomping (cursor : Cursor) : Option Chomping × Cursor :=
  match cursor.rest.head?.bind chomping? with
  | some chomping => (some chomping, cursor.skip 1)
  | none => (none, cursor)

/-- Reads the header behind its first character, up to the end of its line. -/
def scanHeader (began : Mark) (cursor : Cursor) : Except SyntaxError (Header × Cursor) :=
  let early := scanChomping cursor
  match scanIncrement began early.2 with
  | .error error => .error error
  | .ok (increment, behind) =>
      let late :=
        if early.1.isNone && increment ≠ 0 then scanChomping behind else (none, behind)
      let header : Header :=
        { chomping := (early.1.or late.1).getD .clip, increment := increment }
      let atEnd := (late.2.dropWhile isBlank).skipComment
      if startsBreak atEnd.rest then
        .ok (header, atEnd.skipBreak)
      else
        .error (.during .blockScalar began .noLineEnd atEnd.mark)

/-- A scalar that is being read.  `inLine` tells whether the cursor is within a line of the
scalar, and not in front of one; `indent` is not known before the first line that is not blank;
`deepest` is the largest column reached so far in front of a line. -/
structure State where
  text : List Char
  inLine : Bool
  indent : Option Nat
  deepest : Nat
  leadingBreak : Option Char
  laterBreaks : List Char
  leadingBlank : Bool
  last : Mark
  deriving DecidableEq, Repr

namespace State

/-- The line breaks between two lines of the scalar, of which the second starts with `next`.  In
a folded scalar a single one becomes a space, unless one of the lines starts with a blank. -/
def joint (state : State) (folded : Bool) (next : Char) : List Char :=
  if folded && state.leadingBreak = some '\n' && !state.leadingBlank && !isBlank next then
    if state.laterBreaks.isEmpty then [' '] else state.laterBreaks
  else
    state.leadingBreak.toList ++ state.laterBreaks

/-- The state within a line that starts with a character. -/
def startLine (state : State) (folded : Bool) (next : Char) : State :=
  { state with
    text := next :: ((state.joint folded next).reverse ++ state.text)
    inLine := true
    leadingBreak := none
    laterBreaks := []
    leadingBlank := isBlank next }

def finish (state : State) (chomping : Chomping) : List Char :=
  state.text.reverse ++
    match chomping with
    | .strip => []
    | .clip => state.leadingBreak.toList
    | .keep => state.leadingBreak.toList ++ state.laterBreaks

/-- The column at which the lines of the scalar start, once a line that is not blank is met. -/
def settledIndent (state : State) (least column : Nat) : Nat :=
  state.indent.getD (max (max state.deepest column) least)

end State

/-- Reads the lines of a block scalar.  `least` is the least column at which they may start. -/
def scanFrom (folded : Bool) (chomping : Chomping) (least : Nat) (began : Mark) :
    State → Mark → List Char → Except SyntaxError (List Char × Mark × Cursor)
  | state, mark, [] =>
      let last := if state.inLine then mark else state.last
      .ok (state.finish chomping, last, { rest := [], mark := mark })
  | state, mark, head :: rest =>
      if state.inLine then
        if isBreak head then
          let ended :=
            { state with inLine := false, leadingBreak := some (foldedBreak head), deepest := 0 }
          match head, rest with
          | '\r', '\n' :: later =>
              scanFrom folded chomping least began { ended with last := mark.newLine 2 }
                (mark.newLine 2) later
          | _, later =>
              scanFrom folded chomping least began { ended with last := mark.newLine 1 }
                (mark.newLine 1) later
        else
          scanFrom folded chomping least began { state with text := head :: state.text }
            (mark.advance 1) rest
      else
        let inFront := state.indent.all fun indent => decide (mark.column < indent)
        if inFront && head = ' ' then
          scanFrom folded chomping least began state (mark.advance 1) rest
        else if inFront && head = '\t' then
          .error (.during .blockScalar began .tabInIndent mark)
        else if isBreak head then
          let broken :=
            { state with
              laterBreaks := state.laterBreaks ++ [foldedBreak head]
              deepest := max state.deepest mark.column }
          match head, rest with
          | '\r', '\n' :: later =>
              scanFrom folded chomping least began { broken with last := mark.newLine 2 }
                (mark.newLine 2) later
          | _, later =>
              scanFrom folded chomping least began { broken with last := mark.newLine 1 }
                (mark.newLine 1) later
        else
          let indent := state.settledIndent least mark.column
          if mark.column = indent then
            scanFrom folded chomping least began
              { state.startLine folded head with indent := some indent } (mark.advance 1) rest
          else
            .ok (state.finish chomping, state.last, { rest := head :: rest, mark := mark })

/-- Reads a block scalar at the character that begins its header.  `parent` is the column of the
collection around it, or negative. -/
def scan (folded : Bool) (parent : Int) (cursor : Cursor) :
    Except SyntaxError (Token × Cursor) :=
  match scanHeader cursor.mark (cursor.skip 1) with
  | .error error => .error error
  | .ok (header, body) =>
      let fixed := (if parent < 0 then 0 else parent.toNat) + header.increment
      let state : State :=
        { text := []
          inLine := false
          indent := if header.increment = 0 then none else some fixed
          deepest := 0
          leadingBreak := none
          laterBreaks := []
          leadingBlank := false
          last := body.mark }
      let least := max (parent + 1).toNat 1
      match scanFrom folded header.chomping least cursor.mark state body.mark body.rest with
      | .error error => .error error
      | .ok (text, last, after) =>
          let style : ScalarStyle := if folded then .folded else .literal
          .ok ({ kind := .scalar style text, first := cursor.mark, last := last }, after)

end SourceCritic.Yaml.Block
