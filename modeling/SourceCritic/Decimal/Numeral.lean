/-!
# Written numbers

Digits in a base, and decimal numbers with a point and an exponent.
-/

namespace SourceCritic.Decimal

/-- The value of a character as a digit of a base up to 16. -/
def digit? (base : Nat) (character : Char) : Option Nat :=
  let value :=
    if character.isDigit then
      character.toNat - '0'.toNat
    else if 'a' ≤ character ∧ character ≤ 'f' then
      character.toNat - 'a'.toNat + 10
    else if 'A' ≤ character ∧ character ≤ 'F' then
      character.toNat - 'A'.toNat + 10
    else
      base
  if value < base then some value else none

/-- The value of digits behind digits of a given value. -/
def digitsFrom? (base value : Nat) : List Char → Option Nat
  | [] => some value
  | character :: rest =>
      match digit? base character with
      | none => none
      | some digit => digitsFrom? base (base * value + digit) rest

def digits? (base : Nat) (text : List Char) : Option Nat :=
  if text.isEmpty then none else digitsFrom? base 0 text

/-- The value of digits behind an optional sign. -/
def signed? (base : Nat) : List Char → Option Int
  | '-' :: rest => (digits? base rest).map fun value => -(value : Int)
  | '+' :: rest => (digits? base rest).map fun value => (value : Int)
  | text => (digits? base text).map fun value => (value : Int)

/-- A decimal number: a sign, digits, and the power of ten that they count. -/
structure Numeral where
  negative : Bool
  digits : Nat
  exponent : Int
  deriving DecidableEq, Repr

namespace Numeral

def readExponent? : List Char → Option Int
  | [] => some 0
  | letter :: rest => if letter = 'e' || letter = 'E' then signed? 10 rest else none

/-- Reads a number without a sign: digits with a point before, between or behind them, and an
exponent. -/
def readUnsigned? (negative : Bool) (text : List Char) : Option Numeral :=
  let whole := text.takeWhile Char.isDigit
  let behind := text.dropWhile Char.isDigit
  let places := if behind.head? = some '.' then (behind.drop 1).takeWhile Char.isDigit else []
  let tail :=
    if behind.head? = some '.' then (behind.drop 1).dropWhile Char.isDigit else behind
  match digits? 10 (whole ++ places), readExponent? tail with
  | some digits, some exponent =>
      some { negative := negative, digits := digits, exponent := exponent - places.length }
  | _, _ => none

def read? : List Char → Option Numeral
  | '-' :: rest => readUnsigned? true rest
  | '+' :: rest => readUnsigned? false rest
  | text => readUnsigned? false text

end Numeral

end SourceCritic.Decimal
