/-!
# Bytes that should be UTF-8

A sequence of bytes is divided into characters and into runs of bytes that belong to none.  A run
is as long as it may be while it is still the beginning of some encoded character, so that a text
which was cut off leaves a single run behind.
-/

namespace SourceCritic.Text

/-- A part of a byte sequence: an encoded character, or bytes that encode nothing. -/
inductive Piece where
  | character (value : Char)
  | stray (bytes : List UInt8)
  deriving DecidableEq, Repr

namespace Piece

/-- The number that the low bits of two bytes make up. -/
def value2 (first second : UInt8) : Nat :=
  (first.toNat - 0xC0) * 64 + (second.toNat - 0x80)

def value3 (first second third : UInt8) : Nat :=
  ((first.toNat - 0xE0) * 64 + (second.toNat - 0x80)) * 64 + (third.toNat - 0x80)

def value4 (first second third fourth : UInt8) : Nat :=
  (((first.toNat - 0xF0) * 64 + (second.toNat - 0x80)) * 64 + (third.toNat - 0x80)) * 64 +
    (fourth.toNat - 0x80)

/-- Whether a byte continues a character. -/
def isTail (tested : UInt8) : Bool :=
  0x80 ≤ tested && tested ≤ 0xBF

/-- Whether a byte may stand behind the first of three: no shorter form would do, and the
character is no surrogate. -/
def isSecondOfThree (first second : UInt8) : Bool :=
  isTail second && (first != 0xE0 || 0xA0 ≤ second) && (first != 0xED || second ≤ 0x9F)

/-- Whether a byte may stand behind the first of four: no shorter form would do, and the
character is not too large. -/
def isSecondOfFour (first second : UInt8) : Bool :=
  isTail second && (first != 0xF0 || 0x90 ≤ second) && (first != 0xF4 || second ≤ 0x8F)

end Piece

open Piece in
/-- Divides a byte sequence into characters and stray bytes. -/
def pieces : List UInt8 → List Piece
  | [] => []
  | first :: rest =>
      if first < 0x80 then
        .character (Char.ofNat first.toNat) :: pieces rest
      else if 0xC2 ≤ first && first ≤ 0xDF then
        match rest with
        | [] => [.stray [first]]
        | second :: later =>
            if isTail second then
              .character (Char.ofNat (value2 first second)) :: pieces later
            else
              .stray [first] :: pieces (second :: later)
      else if 0xE0 ≤ first && first ≤ 0xEF then
        match rest with
        | [] => [.stray [first]]
        | second :: later =>
            if isSecondOfThree first second then
              match later with
              | [] => [.stray [first, second]]
              | third :: later =>
                  if isTail third then
                    .character (Char.ofNat (value3 first second third)) :: pieces later
                  else
                    .stray [first, second] :: pieces (third :: later)
            else
              .stray [first] :: pieces (second :: later)
      else if 0xF0 ≤ first && first ≤ 0xF4 then
        match rest with
        | [] => [.stray [first]]
        | second :: later =>
            if isSecondOfFour first second then
              match later with
              | [] => [.stray [first, second]]
              | third :: later =>
                  if isTail third then
                    match later with
                    | [] => [.stray [first, second, third]]
                    | fourth :: later =>
                        if isTail fourth then
                          .character (Char.ofNat (value4 first second third fourth)) ::
                            pieces later
                        else
                          .stray [first, second, third] :: pieces (fourth :: later)
                  else
                    .stray [first, second] :: pieces (third :: later)
            else
              .stray [first] :: pieces (second :: later)
      else
        .stray [first] :: pieces rest

/-- The text of a byte sequence, with one replacement character for every run of stray bytes. -/
def lossy (bytes : List UInt8) : List Char :=
  (pieces bytes).map fun piece =>
    match piece with
    | .character value => value
    | .stray _ => Char.ofNat 0xFFFD

def encode (text : String) : List UInt8 :=
  text.toUTF8.toList

end SourceCritic.Text
