import SourceCritic.Yaml.Event.Stream
import SourceCritic.Yaml.Scalar

/-!
# YAML documents

The first document of a text, as the list of what it says.  Aliases are numbered: an anchor gets
the number of different names that came before it, and an alias the number of the last anchor
with its name.  Of anchors with the same number the last one counts.
-/

namespace SourceCritic.Yaml

inductive Failure where
  | wrong (error : SyntaxError)
  | unknownAnchor (mark : Mark)
  | endOfText
  | severalDocuments
  | unfit (path : String) (mismatch : Mismatch) (mark : Mark)
  deriving DecidableEq, Repr

/-- What is printed for a text that cannot be used.  The path is left out where it is empty. -/
def Failure.message : Failure → String
  | .wrong error => error.message
  | .unknownAnchor mark => "unknown anchor" ++ mark.suffix
  | .endOfText => "EOF while parsing a value"
  | .severalDocuments =>
      "deserializing from YAML containing more than one document is not supported"
  | .unfit path mismatch mark =>
      (if path.isEmpty then "" else path ++ ": ") ++ mismatch.message ++ mark.suffix

inductive Content where
  | alias (number : Nat)
  | scalar (scalar : Scalar)
  | sequenceStart
  | sequenceEnd
  | mappingStart
  | mappingEnd
  deriving DecidableEq, Repr

structure Entry where
  content : Content
  mark : Mark
  deriving DecidableEq, Repr

/-- A document.  `anchors` leads from the number of an alias to the position of an entry, the last
anchor first; `failure` is why the entries end before the document does; `isLast` tells whether
nothing but the end of the text follows. -/
structure Document where
  entries : List Entry
  anchors : List (Nat × Nat)
  failure : Option Failure
  isLast : Bool

namespace Document

/-- A document that is being read: its entries reversed, its anchors, and the number of each
anchor name. -/
structure Reading where
  entries : List Entry
  anchors : List (Nat × Nat)
  names : List (List Char × Nat)

namespace Reading

def start : Reading where
  entries := []
  anchors := []
  names := []

/-- The number of different anchor names. -/
def nameCount (reading : Reading) : Nat :=
  (reading.names.map (·.1)).eraseDups.length

def push (reading : Reading) (content : Content) (mark : Mark) : Reading :=
  { reading with entries := { content := content, mark := mark } :: reading.entries }

/-- Gives the next entry an anchor. -/
def anchor (reading : Reading) (name : Option (List Char)) : Reading :=
  match name with
  | none => reading
  | some name =>
      let number := reading.nameCount
      { reading with
        anchors := (number, reading.entries.length) :: reading.anchors
        names := (name, number) :: reading.names }

def finish (reading : Reading) (failure : Option Failure) (isLast : Bool) : Document where
  entries := reading.entries.reverse
  anchors := reading.anchors
  failure := failure
  isLast := isLast

end Reading

def failureOf (error : Option SyntaxError) : Option Failure :=
  error.map .wrong

def endsText : List Event → Bool
  | { kind := .streamEnd, .. } :: _ => true
  | _ => false

/-- Reads the first document from the events of a text. -/
def ofEvents (error : Option SyntaxError) : Reading → List Event → Document
  | reading, [] => reading.finish (failureOf error) true
  | reading, event :: rest =>
      let mark := event.mark
      match event.kind with
      | .streamStart => ofEvents error reading rest
      | .streamEnd => reading.finish none true
      | .documentStart => ofEvents error reading rest
      | .documentEnd => reading.finish none (endsText rest)
      | .alias name =>
          match reading.names.lookup name with
          | none => reading.finish (some (.unknownAnchor mark)) true
          | some number => ofEvents error (reading.push (.alias number) mark) rest
      | .scalar name scalar =>
          ofEvents error ((reading.anchor name).push (.scalar scalar) mark) rest
      | .sequenceStart name =>
          ofEvents error ((reading.anchor name).push .sequenceStart mark) rest
      | .sequenceEnd => ofEvents error (reading.push .sequenceEnd mark) rest
      | .mappingStart name =>
          ofEvents error ((reading.anchor name).push .mappingStart mark) rest
      | .mappingEnd => ofEvents error (reading.push .mappingEnd mark) rest

def ofBytes (bytes : List UInt8) : Document :=
  let stream := EventStream.ofBytes bytes
  ofEvents stream.error .start stream.events

/-- Whether a text holds no document at all. -/
def isVoid (document : Document) : Bool :=
  document.entries.isEmpty && document.failure.isNone

/-- The failure of looking behind the last entry. -/
def missing (document : Document) : Failure :=
  document.failure.getD .endOfText

/-- The entries from the anchor of an alias on. -/
def target (document : Document) (number : Nat) : List Entry :=
  match document.anchors.lookup number with
  | none => []
  | some position => document.entries.drop position

/-- The entries behind the next node, of which `depth` collections are already open. -/
def skipNode : (depth : Nat) → List Entry → Option (List Entry)
  | _, [] => none
  | depth, entry :: rest =>
      match entry.content with
      | .sequenceStart => skipNode (depth + 1) rest
      | .mappingStart => skipNode (depth + 1) rest
      | .sequenceEnd => if depth ≤ 1 then some rest else skipNode (depth - 1) rest
      | .mappingEnd => if depth ≤ 1 then some rest else skipNode (depth - 1) rest
      | .scalar _ => if depth = 0 then some rest else skipNode depth rest
      | .alias _ => if depth = 0 then some rest else skipNode depth rest

/-- What an entry is if it does not have the expected type. -/
def mismatch (entry : Entry) (expected : String) : Mismatch :=
  match entry.content with
  | .scalar scalar => scalar.mismatch expected
  | .mappingStart => .type .mapping expected
  | .mappingEnd => .type .mapping expected
  | _ => .type .sequence expected

end Document

end SourceCritic.Yaml
