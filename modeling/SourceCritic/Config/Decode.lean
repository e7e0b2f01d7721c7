import SourceCritic.Config.Basic
import SourceCritic.Yaml.Document

/-!
# Settings in YAML

A document holds settings if it is a mapping.  Two keys are known: `exclude`, whose value is a
sequence of scalars, and `max_file_size`, whose value is a whole number or nothing.  Each may be
given once; other keys are passed over with their values.
-/

namespace SourceCritic.Config

open Yaml (Document Entry Failure Mismatch Scalar)

/-- What can be read of a document so far, and the entries behind it. -/
abbrev Reader (α : Type) := List Entry → Except Failure (α × List Entry)

def unfit (path : String) (entry : Entry) (expected : String) : Failure :=
  .unfit path (Document.mismatch entry expected) entry.mark

/-- Whether a scalar is plain and has no text. -/
def isOmitted (scalar : Scalar) : Bool :=
  scalar.text.isEmpty && scalar.style = .plain

/-- The text of the entry that an alias stands for, or of the entry itself. -/
def scalarText? (document : Document) (path expected : String) (entry : Entry) :
    Except Failure String :=
  match entry.content with
  | .scalar scalar => .ok (String.ofList scalar.text)
  | .alias number =>
      match document.target number with
      | [] => .error document.missing
      | { content := .scalar scalar, .. } :: _ => .ok (String.ofList scalar.text)
      | other :: _ => .error (unfit path other expected)
  | _ => .error (unfit path entry expected)

/-- Reads the items of a sequence of scalars up to its end. -/
def readItems (document : Document) (path : String) (count : Nat) :
    List Entry → Except Failure (List String × List Entry)
  | [] => .error document.missing
  | entry :: rest =>
      if entry.content = .sequenceEnd then
        .ok ([], rest)
      else
        match scalarText? document (path ++ s!"[{count}]") "a string" entry with
        | .error failure => .error failure
        | .ok item =>
            match readItems document path (count + 1) rest with
            | .error failure => .error failure
            | .ok (items, rest) => .ok (item :: items, rest)

/-- Reads a sequence of scalars that is not given by an alias. -/
def readSequence (document : Document) (path : String) : Reader (List String)
  | [] => .error document.missing
  | entry :: rest =>
      match entry.content with
      | .sequenceStart => readItems document path 0 rest
      | .scalar scalar =>
          if isOmitted scalar then .ok ([], rest) else .error (unfit path entry "a sequence")
      | _ => .error (unfit path entry "a sequence")

def readExclude (document : Document) (path : String) : Reader (List String)
  | { content := .alias number, .. } :: rest =>
      match readSequence document path (document.target number) with
      | .error failure => .error failure
      | .ok (items, _) => .ok (items, rest)
  | entries => readSequence document path entries

/-- The size that an entry gives.  Where the tag for nothing stands in front of something, the
whole mapping is at fault, which began at `outer`. -/
def size? (path : String) (outer : Yaml.Mark) (entry : Entry) : Except Failure (Option Nat) :=
  match entry.content with
  | .scalar scalar =>
      if scalar.style ≠ .plain then
        .error (unfit path entry "u64")
      else
        let given : Except Failure (Option Nat) :=
          match Yaml.unsigned? (Nat.pow 2 64) scalar.text with
          | some size => .ok (some size)
          | none => .error (unfit path entry "u64")
        match scalar.tag with
        | none => if scalar.text.isEmpty || Yaml.isNull scalar.text then .ok none else given
        | some tag =>
            if Scalar.coreTag? tag = some .nothing then
              if Yaml.isNull scalar.text then
                .ok none
              else
                .error (.unfit "" (.value scalar.text "null") outer)
            else
              given
  | _ => .error (unfit path entry "u64")

def readSize (document : Document) (path : String) (outer : Yaml.Mark) : Reader (Option Nat)
  | [] => .error document.missing
  | { content := .alias number, .. } :: rest =>
      match document.target number with
      | [] => .error document.missing
      | entry :: _ => (size? path outer entry).map fun size => (size, rest)
  | entry :: rest => (size? path outer entry).map fun size => (size, rest)

structure Fields where
  exclude : Option (List String)
  maxFileSize : Option (Option Nat)

namespace Fields

def none : Fields where
  exclude := Option.none
  maxFileSize := Option.none

/-- The settings, with nothing left out by those that are missing. -/
def finish (fields : Fields) : Config where
  exclude := fields.exclude.getD []
  maxFileSize := fields.maxFileSize.getD Option.none

end Fields

/-- How a key is told in the path of a failure. -/
def keyPath (entry : Entry) : String :=
  match entry.content with
  | .scalar scalar => String.ofList scalar.text
  | _ => "?"

def readField (document : Document) (outer : Yaml.Mark) (path key : String) (fields : Fields) :
    Reader Fields := fun entries =>
  if key = "exclude" then
    if fields.exclude.isSome then
      .error (.unfit "" (.duplicate key) outer)
    else
      (readExclude document path entries).map fun read =>
        ({ fields with exclude := some read.1 }, read.2)
  else if key = "max_file_size" then
    if fields.maxFileSize.isSome then
      .error (.unfit "" (.duplicate key) outer)
    else
      (readSize document path outer entries).map fun read =>
        ({ fields with maxFileSize := some read.1 }, read.2)
  else
    match Document.skipNode 0 entries with
    | none => .error document.missing
    | some rest => .ok (fields, rest)

/-- Reads the members of a mapping up to its end, at most `fuel` of them. -/
def readFields (document : Document) (outer : Yaml.Mark) :
    (fuel : Nat) → Fields → List Entry → Except Failure Fields
  | 0, _, _ => .error document.missing
  | _ + 1, _, [] => .error document.missing
  | fuel + 1, fields, entry :: rest =>
      if entry.content = .mappingEnd then
        .ok fields
      else
        match scalarText? document "" "field identifier" entry with
        | .error failure => .error failure
        | .ok key =>
            match readField document outer (keyPath entry) key fields rest with
            | .error failure => .error failure
            | .ok (fields, rest) => readFields document outer fuel fields rest

/-- The settings that a document holds.  A document without content holds the default ones. -/
def ofEntries (document : Document) : List Entry → Except Failure Config
  | [] => if document.isVoid then .ok .default else .error document.missing
  | entry :: rest =>
      match entry.content with
      | .mappingStart =>
          (readFields document entry.mark (rest.length + 1) .none rest).map Fields.finish
      | .scalar scalar =>
          if isOmitted scalar then
            .ok .default
          else
            .error (unfit "" entry "struct Config")
      | _ => .error (unfit "" entry "struct Config")

/-- The settings in a YAML text.  A text with more than one document is refused, but only if
nothing else is wrong. -/
def ofYaml (bytes : List UInt8) : Except Failure Config :=
  let document := Document.ofBytes bytes
  match ofEntries document document.entries with
  | .error failure => .error failure
  | .ok config =>
      match document.failure with
      | some failure => .error failure
      | none => if document.isLast then .ok config else .error .severalDocuments

end SourceCritic.Config
