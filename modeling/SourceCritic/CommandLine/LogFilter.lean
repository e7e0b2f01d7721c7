import SourceCritic.Log
import SourceCritic.Text.Space

/-!
# Choosing log lines

Which notes are printed may be given as a list of directives, divided by commas.  A directive
names a level, or the beginning of the name of a part of the program with a level or without.  The
directive with the longest name that fits decides.
-/

namespace SourceCritic

/-- The notes of some parts of the program up to a level, which is 0 for none. -/
structure LogDirective where
  target : Option (List Char)
  rank : Nat
  deriving DecidableEq, Repr

namespace LogDirective

/-- The level that a number names, which may have a plus sign and leading zeros. -/
def numberedRank? (text : List Char) : Option Nat :=
  let digits :=
    match text with
    | '+' :: digits => digits
    | digits => digits
  let significant := digits.dropWhile (· = '0')
  if digits.isEmpty then
    none
  else
    match significant with
    | [] => some 0
    | ['1'] => some 1
    | ['2'] => some 2
    | ['3'] => some 3
    | ['4'] => some 4
    | ['5'] => some 5
    | _ => none

/-- The level that a word, in small or capital letters, or a number names. -/
def rank? (text : List Char) : Option Nat :=
  match String.ofList (text.map Char.toLower) with
  | "off" => some 0
  | "error" => some 1
  | "warn" => some 2
  | "info" => some 3
  | "debug" => some 4
  | "trace" => some 5
  | _ => numberedRank? text

/-- Whether a directive may start with a character. -/
def isStart (tested : Char) : Bool :=
  tested = '-' || tested = ':' || tested = '_' || tested.isAlphanum || tested.toNat ≥ 0x80

/-- The level behind a name.  Everything is meant where none is given. -/
def rankOf? (text : List Char) : Option Nat :=
  if text.isEmpty then some 5 else rank? text

/-- What a directive amounts to: nothing, if it is only about spans, which this program does not
have. -/
inductive Reading where
  | wrong
  | void
  | directive (directive : LogDirective)

/-- Reads what follows a span, which ends with a bracket. -/
def readSpan (text : List Char) : Reading :=
  match (text.dropWhile (· ≠ ']')).drop 1 with
  | [] => if text.contains ']' then .void else .wrong
  | '=' :: level => if (rankOf? level).isSome then .void else .wrong
  | _ => .wrong

/-- Reads a directive.  One that has a level behind a name may not start with a space. -/
def read (text : List Char) : Reading :=
  match text.dropWhile Text.isSpace with
  | [] => .wrong
  | '[' :: rest => readSpan rest
  | head :: rest =>
      if !isStart head || (text.contains '=' && text.head?.any Text.isSpace) then
        .wrong
      else
        let name := (head :: rest).takeWhile fun tested => tested ≠ '=' && tested ≠ '['
        match (head :: rest).drop name.length with
        | '=' :: level =>
            match rankOf? level with
            | none => .wrong
            | some rank => .directive { target := some name, rank := rank }
        | '[' :: span => readSpan span
        | _ =>
            match rank? text with
            | some rank => .directive { target := none, rank := rank }
            | none => .directive { target := some text, rank := 5 }

/-- Whether a directive is about a part of the program. -/
def fits (directive : LogDirective) (target : List Char) : Bool :=
  directive.target.all fun name => name.isPrefixOf target

/-- The length of the name in a directive, so that a missing one counts least. -/
def weight (directive : LogDirective) : Nat :=
  match directive.target with
  | none => 0
  | some name => name.length + 1

end LogDirective

structure LogFilter where
  directives : List LogDirective
  deriving DecidableEq, Repr

namespace LogFilter

def upTo (level : LogLevel) : LogFilter where
  directives := [{ target := none, rank := level.rank }]

def divide (text : List Char) : List (List Char) :=
  text.foldr
    (fun current divided =>
      if current = ',' then
        [] :: divided
      else
        match divided with
        | [] => [[current]]
        | part :: later => (current :: part) :: later)
    [[]]

def readAll? : List (List Char) → Option (List LogDirective)
  | [] => some []
  | text :: rest =>
      match LogDirective.read text, readAll? rest with
      | .directive directive, some later => some (directive :: later)
      | .void, some later => some later
      | _, _ => none

/-- The filter that a text describes.  Without any directive, only errors are printed. -/
def ofText? (text : String) : Option LogFilter :=
  let parts := (divide text.toList).filter fun part => !part.isEmpty
  if parts.isEmpty then
    some (.upTo .error)
  else
    (readAll? parts).map fun directives => { directives := directives }

/-- The directive that decides about a part of the program: of those that fit, the last one with
the longest name. -/
def decisive? (filter : LogFilter) (target : List Char) : Option LogDirective :=
  (filter.directives.filter fun directive => directive.fits target).foldl
    (fun best directive =>
      match best with
      | none => some directive
      | some other => if other.weight ≤ directive.weight then some directive else some other)
    none

def admits (filter : LogFilter) (event : LogEvent) : Bool :=
  match filter.decisive? event.target.toList with
  | none => false
  | some directive => event.level.rank ≤ directive.rank

end LogFilter

end SourceCritic
