/-!
# Double precision numbers in decimal

A finite double is a whole number below `2 ^ 53` times a power of two.  `Double.nearest?` rounds a
decimal fraction to one, a half to the even neighbour.  `Double.shortest` is the way back: the
fewest digits that lie closer to a double than to any other, and of those the nearest.  All of it
is exact arithmetic on whole numbers.
-/

namespace SourceCritic.Decimal

/-- The number `mantissa * 2 ^ exponent`. -/
structure Double where
  mantissa : Nat
  exponent : Int
  deriving DecidableEq, Repr

structure Fraction where
  numerator : Nat
  denominator : Nat
  deriving DecidableEq, Repr

namespace Fraction

def power (base : Nat) : Int → Fraction
  | .ofNat exponent => { numerator := base.pow exponent, denominator := 1 }
  | .negSucc predecessor => { numerator := 1, denominator := base.pow (predecessor + 1) }

def scale (factor : Nat) (fraction : Fraction) : Fraction where
  numerator := factor * fraction.numerator
  denominator := fraction.denominator

def less (first second : Fraction) : Bool :=
  first.numerator * second.denominator < second.numerator * first.denominator

/-- How often a fraction goes into another one as a whole. -/
def quotient (first second : Fraction) : Nat :=
  (first.numerator * second.denominator) / (first.denominator * second.numerator)

/-- The quotient of two fractions rounded to the nearest whole number, a half to the even one. -/
def nearestQuotient (first second : Fraction) : Nat :=
  let above := first.numerator * second.denominator
  let below := first.denominator * second.numerator
  let whole := above / below
  let rest := 2 * (above % below)
  if rest < below || (rest = below && whole % 2 = 0) then whole else whole + 1

end Fraction

namespace Double

def leastExponent : Int :=
  -1074

def greatestExponent : Int :=
  971

/-- The exponent with which a fraction has 53 binary digits in front of the point, or the least
one. -/
def exponentOf (value : Fraction) : Int :=
  let guess : Int :=
    (Nat.log2 value.numerator : Int) - (Nat.log2 value.denominator : Int) - 52
  let exponent :=
    if value.less (Fraction.scale (Nat.pow 2 52) (.power 2 guess)) then guess - 1 else guess
  max exponent leastExponent

/-- The double nearest to a fraction, unless it is too large for any. -/
def ofFraction? (value : Fraction) : Option Double :=
  if value.numerator = 0 then
    some { mantissa := 0, exponent := 0 }
  else
    let exponent := exponentOf value
    let mantissa := value.nearestQuotient (.power 2 exponent)
    let rounded : Double :=
      if mantissa = Nat.pow 2 53 then
        { mantissa := Nat.pow 2 52, exponent := exponent + 1 }
      else
        { mantissa := mantissa, exponent := exponent }
    if rounded.exponent > greatestExponent then none else some rounded

/-- The double nearest to `digits * 10 ^ exponent`, unless it is too large for any. -/
def nearest? (digits : Nat) (exponent : Int) : Option Double :=
  let magnitude : Int := (Nat.log2 digits : Int) / 3 + exponent
  if digits = 0 ∨ magnitude < -400 then
    some { mantissa := 0, exponent := 0 }
  else if exponent > 400 then
    none
  else
    ofFraction? (Fraction.scale digits (.power 10 exponent))

/-- The least power of ten, counted down from a given one, that is greater than a fraction. -/
def magnitudeFrom (value : Fraction) : (fuel : Nat) → (exponent : Int) → Int
  | 0, exponent => exponent
  | fuel + 1, exponent =>
      if value.less (.power 10 (exponent - 1)) then
        magnitudeFrom value fuel (exponent - 1)
      else
        exponent

/-- The numbers that are closer to a double than to any other.  The ends belong to them if its
mantissa is even. -/
structure Interval where
  low : Fraction
  high : Fraction
  closed : Bool

/-- The interval of a double that is not zero. -/
def interval (double : Double) : Interval :=
  let quarter := Fraction.power 2 (double.exponent - 2)
  let below :=
    if double.mantissa = Nat.pow 2 52 ∧ double.exponent > leastExponent then 1 else 2
  { low := quarter.scale (4 * double.mantissa - below)
    high := quarter.scale (4 * double.mantissa + 2)
    closed := double.mantissa % 2 = 0 }

def Interval.has (interval : Interval) (value : Fraction) : Bool :=
  if interval.closed then
    !value.less interval.low && !interval.high.less value
  else
    interval.low.less value && value.less interval.high

/-- The best multiple of a power of ten in the interval of a fraction: one of the two neighbours
of the fraction, and the nearer one if both are in the interval. -/
def bestMultiple? (value : Fraction) (interval : Interval) (exponent : Int) : Option Nat :=
  let unit := Fraction.power 10 exponent
  let lower := value.quotient unit
  let nearer := value.nearestQuotient unit
  let farther := if nearer = lower then lower + 1 else lower
  if interval.has (unit.scale nearer) then
    some nearer
  else if interval.has (unit.scale farther) then
    some farther
  else
    none

/-- Digits and the power of ten that they count, without a zero at the end. -/
def dropZero (digits : Nat) (exponent : Int) : Nat × Int :=
  if digits % 10 = 0 then (digits / 10, exponent + 1) else (digits, exponent)

/-- The fewest digits, from a number of digits on, that stand for a double. -/
def shortestFrom (value : Fraction) (interval : Interval) (magnitude : Int) :
    (fuel : Nat) → (count : Nat) → Nat × Int
  | 0, count => (value.nearestQuotient (.power 10 (magnitude - count)), magnitude - count)
  | fuel + 1, count =>
      match bestMultiple? value interval (magnitude - count) with
      | some digits => dropZero digits (magnitude - count)
      | none => shortestFrom value interval magnitude fuel (count + 1)

/-- The fewest digits that stand for a double, and the power of ten that they count. -/
def shortest (double : Double) : Nat × Int :=
  if double.mantissa = 0 then
    (0, 0)
  else
    let value := Fraction.scale double.mantissa (.power 2 double.exponent)
    let magnitude := magnitudeFrom value 700 310
    shortestFrom value double.interval magnitude 16 1

/-- A double without an exponent, and with at least one digit behind the point. -/
def positional (double : Double) : List Char :=
  let found := double.shortest
  let digits := Nat.toDigits 10 found.1
  match found.2 with
  | .ofNat exponent =>
      let zeros := if found.1 = 0 then 0 else exponent
      digits ++ List.replicate zeros '0' ++ ['.', '0']
  | .negSucc predecessor =>
      let places := predecessor + 1
      let padded := List.replicate (places + 1 - digits.length) '0' ++ digits
      let whole := padded.length - places
      padded.take whole ++ '.' :: padded.drop whole

end Double

end SourceCritic.Decimal
