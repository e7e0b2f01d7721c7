import SourceCritic.Yaml.Token.Basic

/-!
# Quoted scalars

A scalar between single quotes, in which a quote is written twice, or between double quotes, in
which a backslash begins an escape.
-/

namespace SourceCritic.Yaml.Quoted

/-- What the character behind a backslash stands for. -/
inductive Escape where
  | character (meant : Char)
  | code (digits : Nat)
  deriving DecidableEq, Repr

def escape? : Char → Option Escape
  | '0' => some (.character (Char.ofNat 0x00))
  | 'a' => some (.character (Char.ofNat 0x07))
  | 'b' => some (.character (Char.ofNat 0x08))
  | 't' => some (.character '\t')
  | '\t' => some (.character '\t')
  | 'n' => some (.character '\n')
  | 'v' => some (.character (Char.ofNat 0x0B))
  | 'f' => some (.character (Char.ofNat 0x0C))
  | 'r' => some (.character '\r')
  | 'e' => some (.character (Char.ofNat 0x1B))
  | ' ' => some (.character ' ')
  | '"' => some (.character '"')
  | '/' => some (.character '/')
  | '\\' => some (.character '\\')
  | 'N' => some (.character (Char.ofNat 0x85))
  | '_' => some (.character (Char.ofNat 0xA0))
  | 'L' => some (.character (Char.ofNat 0x2028))
  | 'P' => some (.character (Char.ofNat 0x2029))
  | 'x' => some (.code 2)
  | 'u' => some (.code 4)
  | 'U' => some (.code 8)
  | _ => none

/-- A code that is being read: how many digits are left, the value of the digits so far, and
where the first one stands. -/
structure Code where
  left : Nat
  value : Nat
  began : Mark
  deriving DecidableEq, Repr

/-- A scalar that is being read: its text reversed, the white space behind that, and the code
that is being read in it. -/
structure State where
  text : List Char
  gap : Gap
  code : Option Code
  deriving DecidableEq, Repr

namespace State

def start : State where
  text := []
  gap := .none
  code := none

/-- The white space made part of the text. -/
def close (state : State) : State :=
  { state with text := state.gap.text.reverse ++ state.text, gap := .none }

def push (state : State) (read : Char) : State :=
  { state with text := read :: state.text }

end State

/-- Reads the rest of a quoted scalar.  `began` is the mark of its first quote. -/
def scanFrom (single : Bool) (began : Mark) :
    State → Mark → List Char → Except SyntaxError (List Char × Cursor)
  | state, mark, [] =>
      match state.code with
      | some code => .error (.during .quotedEscape began .noHexDigit code.began)
      | none => .error (.during .quotedScalar began .endOfText mark)
  | state, mark, head :: rest =>
      match state.code with
      | some code =>
          match hexValue? head with
          | none => .error (.during .quotedEscape began .noHexDigit code.began)
          | some digit =>
              let value := code.value * 16 + digit
              if code.left > 1 then
                scanFrom single began
                  { state with code := some { code with left := code.left - 1, value := value } }
                  (mark.advance 1) rest
              else if (0xD800 ≤ value ∧ value ≤ 0xDFFF) ∨ value > 0x10FFFF then
                .error (.during .quotedEscape began .badCodePoint code.began)
              else
                scanFrom single began
                  { state.push (Char.ofNat value) with code := none } (mark.advance 1) rest
      | none =>
          if isBlank head then
            scanFrom single began { state with gap := state.gap.addBlank head }
              (mark.advance 1) rest
          else if isBreak head then
            let broken := { state with gap := state.gap.addBreak head }
            match head, rest with
            | '\r', '\n' :: later => scanFrom single began broken (mark.newLine 2) later
            | _, later => scanFrom single began broken (mark.newLine 1) later
          else if startsDocumentMark mark.column (head :: rest) then
            .error (.during .quotedScalar began .documentMark mark)
          else
            let state := state.close
            if single then
              if head = '\'' then
                match rest with
                | '\'' :: later => scanFrom single began (state.push '\'') (mark.advance 2) later
                | later => .ok (state.text.reverse, { rest := later, mark := mark.advance 1 })
              else
                scanFrom single began (state.push head) (mark.advance 1) rest
            else if head = '"' then
              .ok (state.text.reverse, { rest := rest, mark := mark.advance 1 })
            else if head = '\\' then
              match rest with
              | [] => .error (.during .quotedEscape began .unknownEscape mark)
              | escaped :: later =>
                  if isBreak escaped then
                    let broken := { state with gap := .escapedBreak }
                    let next := mark.advance 1
                    match escaped, later with
                    | '\r', '\n' :: later => scanFrom single began broken (next.newLine 2) later
                    | _, later => scanFrom single began broken (next.newLine 1) later
                  else
                    match escape? escaped with
                    | none => .error (.during .quotedEscape began .unknownEscape mark)
                    | some (.character meant) =>
                        scanFrom single began (state.push meant) (mark.advance 2) later
                    | some (.code digits) =>
                        let next := mark.advance 2
                        scanFrom single began
                          { state with code := some { left := digits, value := 0, began := next } }
                          next later
            else
              scanFrom single began (state.push head) (mark.advance 1) rest

def scan (single : Bool) (cursor : Cursor) : Except SyntaxError (Token × Cursor) :=
  match scanFrom single cursor.mark .start (cursor.mark.advance 1) (cursor.rest.drop 1) with
  | .error error => .error error
  | .ok (text, after) =>
      let style : ScalarStyle := if single then .singleQuoted else .doubleQuoted
      .ok ({ kind := .scalar style text, first := cursor.mark, last := after.mark }, after)

end SourceCritic.Yaml.Quoted
