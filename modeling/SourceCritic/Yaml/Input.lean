import SourceCritic.Yaml.Error

/-!
# Characters of a YAML text

Bytes become characters, some of which a YAML text must not have, and a cursor moves over them.
-/

namespace SourceCritic.Yaml

/-- Whether a YAML text may have a code point. -/
def isAllowed (value : Nat) : Bool :=
  value = 0x09 || value = 0x0A || value = 0x0D || (0x20 ≤ value && value ≤ 0x7E) ||
    value = 0x85 || (0xA0 ≤ value && value ≤ 0xD7FF) || (0xE000 ≤ value && value ≤ 0xFFFD) ||
    (0x10000 ≤ value && value ≤ 0x10FFFF)

/-- The number of bytes of a character, and the bits of its first byte that belong to it. -/
def leadingBits (first : UInt8) : Option (Nat × Nat) :=
  if first < 0x80 then
    some (1, first.toNat)
  else if first &&& 0xE0 = 0xC0 then
    some (2, first.toNat % 0x20)
  else if first &&& 0xF0 = 0xE0 then
    some (3, first.toNat % 0x10)
  else if first &&& 0xF8 = 0xF0 then
    some (4, first.toNat % 0x08)
  else
    none

/-- Whether a code point cannot be written with fewer bytes than it was. -/
def hasRightLength (width value : Nat) : Bool :=
  width = 1 || (width = 2 && 0x80 ≤ value) || (width = 3 && 0x800 ≤ value) ||
    (width = 4 && 0x10000 ≤ value)

/-- A character that has been read in part: where it began, its number of bytes, how many of
them have been read, and their bits. -/
structure Partial where
  offset : Nat
  width : Nat
  read : Nat
  value : Nat

def Partial.finish (whole : Partial) : Except SyntaxError Char :=
  if !hasRightLength whole.width whole.value then
    .error (.encoding .length whole.offset)
  else if (0xD800 ≤ whole.value && whole.value ≤ 0xDFFF) || whole.value > 0x10FFFF then
    .error (.encoding .codePoint whole.offset)
  else if !isAllowed whole.value then
    .error (.encoding .controlCharacter whole.offset)
  else
    .ok (Char.ofNat whole.value)

/-- Reads characters, the ones read so far reversed. -/
def decodeFrom (offset : Nat) (begun : Option Partial) (decoded : List Char) :
    List UInt8 → Except SyntaxError (List Char)
  | [] =>
      match begun with
      | none => .ok decoded.reverse
      | some character => .error (.encoding .incomplete character.offset)
  | byte :: rest =>
      match begun with
      | none =>
          match leadingBits byte with
          | none => .error (.encoding .leadingByte offset)
          | some (width, value) =>
              let character : Partial :=
                { offset := offset, width := width, read := 1, value := value }
              if (rest.take (width - 1)).length < width - 1 then
                .error (.encoding .incomplete offset)
              else if width = 1 then
                match character.finish with
                | .error error => .error error
                | .ok finished => decodeFrom (offset + 1) none (finished :: decoded) rest
              else
                decodeFrom (offset + 1) (some character) decoded rest
      | some character =>
          if byte &&& 0xC0 = 0x80 then
            let longer :=
              { character with
                read := character.read + 1
                value := character.value * 64 + byte.toNat % 64 }
            if longer.read = longer.width then
              match longer.finish with
              | .error error => .error error
              | .ok finished => decodeFrom (offset + 1) none (finished :: decoded) rest
            else
              decodeFrom (offset + 1) (some longer) decoded rest
          else
            .error (.encoding .trailingByte offset)

def decode (bytes : List UInt8) : Except SyntaxError (List Char) :=
  decodeFrom 0 none [] bytes

def isBreak (tested : Char) : Bool :=
  tested = '\n' || tested = '\r' || tested = '\u0085' || tested = '\u2028' || tested = '\u2029'

def isBlank (tested : Char) : Bool :=
  tested = ' ' || tested = '\t'

def isNameCharacter (tested : Char) : Bool :=
  tested.isAlphanum || tested = '_' || tested = '-'

/-- Whether a text starts with white space or is at its end. -/
def startsBlank : List Char → Bool
  | [] => true
  | head :: _ => isBlank head || isBreak head

def startsBreak : List Char → Bool
  | [] => true
  | head :: _ => isBreak head

/-- Whether a text at the beginning of a line starts with three given characters and white
space. -/
def startsDocumentMark (column : Nat) (rest : List Char) : Bool :=
  column = 0 &&
    match rest with
    | '-' :: '-' :: '-' :: later => startsBlank later
    | '.' :: '.' :: '.' :: later => startsBlank later
    | _ => false

/-- The character that a line break stands for in a scalar. -/
def foldedBreak (tested : Char) : Char :=
  if tested = '\u2028' || tested = '\u2029' then tested else '\n'

def hexValue? (digit : Char) : Option Nat :=
  if digit.isDigit then
    some (digit.toNat - '0'.toNat)
  else if 'a' ≤ digit ∧ digit ≤ 'f' then
    some (digit.toNat - 'a'.toNat + 10)
  else if 'A' ≤ digit ∧ digit ≤ 'F' then
    some (digit.toNat - 'A'.toNat + 10)
  else
    none

/-- What is left of a text, and the mark where it begins. -/
structure Cursor where
  rest : List Char
  mark : Mark

namespace Cursor

def skip (cursor : Cursor) (count : Nat) : Cursor where
  rest := cursor.rest.drop count
  mark := cursor.mark.advance count

/-- The characters with a property at the cursor, none of which is a line break, and the cursor
behind them. -/
def takeWhile (cursor : Cursor) (property : Char → Bool) : List Char × Cursor :=
  let taken := cursor.rest.takeWhile property
  (taken, cursor.skip taken.length)

/-- The cursor behind the characters with a property, none of which is a line break. -/
def dropWhile (cursor : Cursor) (property : Char → Bool) : Cursor :=
  (cursor.takeWhile property).2

/-- The cursor behind a line break, if there is one. -/
def skipBreak (cursor : Cursor) : Cursor :=
  match cursor.rest with
  | '\r' :: '\n' :: later => { rest := later, mark := cursor.mark.newLine 2 }
  | head :: later =>
      if isBreak head then { rest := later, mark := cursor.mark.newLine 1 } else cursor
  | [] => cursor

/-- The cursor at the end of a comment, if there is one. -/
def skipComment (cursor : Cursor) : Cursor :=
  if cursor.rest.head? = some '#' then
    cursor.dropWhile fun tested => !isBreak tested
  else
    cursor

end Cursor

end SourceCritic.Yaml
