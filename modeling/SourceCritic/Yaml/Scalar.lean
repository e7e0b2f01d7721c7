import SourceCritic.Decimal.Double
import SourceCritic.Decimal.Numeral
import SourceCritic.Text.Quoted
import SourceCritic.Yaml.Event.Basic

/-!
# What a scalar stands for

A plain scalar without a tag stands for nothing, a truth value, a whole number, a floating point
number or a text, whichever it can be read as first.
-/

namespace SourceCritic.Yaml

/-- A number without a sign below a bound. -/
def below? (bound : Nat) (value : Option Nat) : Option Nat :=
  value.filter fun tested => tested < bound

/-- A number between two bounds, the second one excluded. -/
def between? (least : Int) (bound : Int) (value : Option Int) : Option Int :=
  value.filter fun tested => least ≤ tested && tested < bound

def startsSigned (text : List Char) : Bool :=
  text.head? = some '+' || text.head? = some '-'

def dropPlus : List Char → List Char
  | '+' :: rest => rest
  | text => text

def dropSign : List Char → List Char
  | '+' :: rest => rest
  | '-' :: rest => rest
  | text => text

/-- Whether a text consists of digits, of which the first is a needless zero.  Such a text is not
a number. -/
def hasNeedlessZero (text : List Char) : Bool :=
  match dropSign text with
  | '0' :: digit :: rest => (digit :: rest).all Char.isDigit
  | _ => false

/-- The base that the first two characters of a number name, and the digits behind them. -/
def basedDigits? : List Char → Option (Nat × List Char)
  | '0' :: 'x' :: rest => some (16, rest)
  | '0' :: 'o' :: rest => some (8, rest)
  | '0' :: 'b' :: rest => some (2, rest)
  | _ => none

def unsigned? (bound : Nat) (text : List Char) : Option Nat :=
  let body := dropPlus text
  let decimal :=
    if startsSigned body || hasNeedlessZero text then
      none
    else
      below? bound (Decimal.digits? 10 body)
  match basedDigits? body with
  | some (base, digits) =>
      if startsSigned digits then
        none
      else
        (below? bound (Decimal.digits? base digits)).or decimal
  | none => decimal

/-- Reads a number with an optional sign that is at least a negative bound and below its
opposite. -/
def negative? (bound : Nat) (text : List Char) : Option Int :=
  let inRange := between? (-(bound : Int)) bound
  let decimal :=
    if hasNeedlessZero text then none else inRange (Decimal.signed? 10 text)
  match text with
  | '-' :: rest =>
      match basedDigits? rest with
      | some (base, digits) => (inRange (Decimal.signed? base ('-' :: digits))).or decimal
      | none => decimal
  | _ => decimal

inductive Whole where
  | unsigned (value : Nat)
  | negative (value : Int)
  | wideUnsigned (value : Nat)
  | wideNegative (value : Int)
  deriving DecidableEq, Repr

def whole? (text : List Char) : Option Whole :=
  ((unsigned? (Nat.pow 2 64) text).map .unsigned).or
    (((negative? (Nat.pow 2 63) text).map .negative).or
      (((unsigned? (Nat.pow 2 128) text).map .wideUnsigned).or
        ((negative? (Nat.pow 2 127) text).map .wideNegative)))

inductive Floating where
  | finite (negative : Bool) (magnitude : Decimal.Double)
  | infinite (negative : Bool)
  | notANumber
  deriving DecidableEq, Repr

def floating? (text : List Char) : Option Floating :=
  let body := dropPlus text
  if text.head? = some '+' && startsSigned body then
    none
  else if [".inf", ".Inf", ".INF"].contains (String.ofList body) then
    some (.infinite false)
  else if ["-.inf", "-.Inf", "-.INF"].contains (String.ofList text) then
    some (.infinite true)
  else if [".nan", ".NaN", ".NAN"].contains (String.ofList text) then
    some .notANumber
  else
    match Decimal.Numeral.read? body with
    | none => none
    | some numeral =>
        (Decimal.Double.nearest? numeral.digits numeral.exponent).map fun magnitude =>
          .finite numeral.negative magnitude

/-- Whether a text is one of the words for nothing. -/
def isNull (text : List Char) : Bool :=
  ["null", "Null", "NULL", "~"].contains (String.ofList text)

def truth? (text : List Char) : Option Bool :=
  if ["true", "True", "TRUE"].contains (String.ofList text) then
    some true
  else if ["false", "False", "FALSE"].contains (String.ofList text) then
    some false
  else
    none

inductive Found where
  | nothing
  | truth (value : Bool)
  | whole (value : Whole)
  | floating (value : Floating)
  | text (value : List Char)
  | sequence
  | mapping
  deriving DecidableEq, Repr

namespace Found

/-- What a plain text stands for. -/
def ofPlain (text : List Char) : Found :=
  if text.isEmpty || isNull text then
    .nothing
  else
    match truth? text, whole? text with
    | some value, _ => .truth value
    | none, some value => .whole value
    | none, none =>
        if hasNeedlessZero text then
          .text text
        else
          match floating? text with
          | some value => .floating value
          | none => .text text

def wholeText : Whole → String
  | .unsigned value => s!"integer `{value}`"
  | .negative value => s!"integer `{value}`"
  | .wideUnsigned value => s!"integer `{value}` as u128"
  | .wideNegative value => s!"integer `{value}` as i128"

def floatingText : Floating → String
  | .finite negative magnitude =>
      (if negative then "-" else "") ++ String.ofList magnitude.positional
  | .infinite false => "inf"
  | .infinite true => "-inf"
  | .notANumber => "NaN"

def message : Found → String
  | .nothing => "unit value"
  | .truth true => "boolean `true`"
  | .truth false => "boolean `false`"
  | .whole value => wholeText value
  | .floating value => "floating point `" ++ floatingText value ++ "`"
  | .text value => "string " ++ String.ofList (Text.quoted value)
  | .sequence => "sequence"
  | .mapping => "map"

end Found

/-- Why a node cannot be used: it is of another type than expected, or its text does not fit its
tag. -/
inductive Mismatch where
  | type (found : Found) (expected : String)
  | value (found : List Char) (expected : String)
  | duplicate (field : String)
  deriving DecidableEq, Repr

def Mismatch.message : Mismatch → String
  | .type found expected => "invalid type: " ++ found.message ++ ", expected " ++ expected
  | .value found expected =>
      "invalid value: " ++ (Found.text found).message ++ ", expected " ++ expected
  | .duplicate field => "duplicate field `" ++ field ++ "`"

namespace Scalar

/-- The tags that fix how a scalar is read. -/
inductive CoreTag where
  | truth
  | whole
  | floating
  | nothing
  deriving DecidableEq, Repr

def coreTag? (tag : List Char) : Option CoreTag :=
  match String.ofList tag with
  | "tag:yaml.org,2002:bool" => some .truth
  | "tag:yaml.org,2002:int" => some .whole
  | "tag:yaml.org,2002:float" => some .floating
  | "tag:yaml.org,2002:null" => some .nothing
  | _ => none

/-- What a scalar stands for if it does not have the expected type. -/
def mismatch (scalar : Scalar) (expected : String) : Mismatch :=
  let text := scalar.text
  let untagged : Found := if scalar.style = .plain then .ofPlain text else .text text
  match scalar.tag with
  | none => .type untagged expected
  | some tag =>
      match coreTag? tag with
      | some .truth =>
          match truth? text with
          | some value => .type (.truth value) expected
          | none => .value text "a boolean"
      | some .whole =>
          match whole? text with
          | some value => .type (.whole value) expected
          | none => .value text "an integer"
      | some .floating =>
          match floating? text with
          | some value => .type (.floating value) expected
          | none => .value text "a float"
      | some .nothing =>
          if isNull text then .type .nothing expected else .value text "null"
      | none =>
          if tag.head? = some '!' then .type untagged expected else .type (.text text) expected

end Scalar

end SourceCritic.Yaml
