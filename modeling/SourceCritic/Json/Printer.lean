import SourceCritic.Json.Basic

/-!
# Writing JSON

Two ways of writing a value: `Json.compact` puts everything on one line without blanks, and
`Json.pretty` puts every item and member on a line of its own, two blanks deeper than the
brackets around it.  Empty arrays and objects are written without a line break in both.
-/

namespace SourceCritic.Json

def hexDigit (value : Nat) : Char :=
  Nat.digitChar value

/-- How one character stands in a written string: quotes, backslashes and control characters are
escaped, with a short form where there is one. -/
def escapeChar (written : Char) : List Char :=
  match written with
  | '"' => ['\\', '"']
  | '\\' => ['\\', '\\']
  | '\x08' => ['\\', 'b']
  | '\x0c' => ['\\', 'f']
  | '\n' => ['\\', 'n']
  | '\r' => ['\\', 'r']
  | '\t' => ['\\', 't']
  | other =>
      if other.toNat < 0x20 then
        ['\\', 'u', '0', '0', hexDigit (other.toNat / 16), hexDigit (other.toNat % 16)]
      else
        [other]

def quote (text : List Char) : List Char :=
  '"' :: (text.flatMap escapeChar ++ ['"'])

/-- The decimal digits of a number, with a sign if it is negative. -/
def numeral (value : Int) : List Char :=
  match value with
  | .ofNat magnitude => Nat.toDigits 10 magnitude
  | .negSucc predecessor => '-' :: Nat.toDigits 10 (predecessor + 1)

/-- How the parts of a value are laid out: what stands in front of an item at a depth, what in
front of the closing bracket, and what behind a key. -/
structure Layout where
  lead : Nat → List Char
  colon : List Char

/-- Everything on one line, without blanks. -/
def Layout.compact : Layout where
  lead := fun _ => []
  colon := [':']

/-- Every item on its own line, indented by two blanks for each level. -/
def Layout.pretty : Layout where
  lead := fun depth => '\n' :: List.replicate (2 * depth) ' '
  colon := [':', ' ']

mutual

/-- Writes a value that stands at a depth. -/
def write (layout : Layout) (depth : Nat) : Json → List Char
  | .null => ['n', 'u', 'l', 'l']
  | .bool true => ['t', 'r', 'u', 'e']
  | .bool false => ['f', 'a', 'l', 's', 'e']
  | .number value => numeral value
  | .string value => quote value.toList
  | .array [] => ['[', ']']
  | .array (first :: later) =>
      '[' :: (layout.lead (depth + 1) ++ write layout (depth + 1) first ++
        writeItems layout (depth + 1) later ++ layout.lead depth ++ [']'])
  | .object [] => ['{', '}']
  | .object (first :: later) =>
      '{' :: (layout.lead (depth + 1) ++ writeMember layout (depth + 1) first ++
        writeMembers layout (depth + 1) later ++ layout.lead depth ++ ['}'])

/-- Writes the items of an array behind the first one. -/
def writeItems (layout : Layout) (depth : Nat) : List Json → List Char
  | [] => []
  | item :: later =>
      ',' :: (layout.lead depth ++ write layout depth item ++ writeItems layout depth later)

def writeMembers (layout : Layout) (depth : Nat) : List (String × Json) → List Char
  | [] => []
  | member :: later =>
      ',' :: (layout.lead depth ++ writeMember layout depth member ++
        writeMembers layout depth later)

def writeMember (layout : Layout) (depth : Nat) : String × Json → List Char
  | (key, value) => quote key.toList ++ layout.colon ++ write layout depth value

end

def compact (value : Json) : String :=
  String.ofList (write .compact 0 value)

def pretty (value : Json) : String :=
  String.ofList (write .pretty 0 value)

end SourceCritic.Json
