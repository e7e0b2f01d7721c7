import SourceCritic.Text.Utf8

/-!
# Paths

A path is a sequence of bytes, divided into names at every slash.  Names need not be UTF-8.
-/

namespace SourceCritic

abbrev Name := List UInt8

/-- A path as it was written. -/
structure Path where
  bytes : List UInt8
  deriving DecidableEq, Repr

namespace Path

def slash : UInt8 :=
  0x2F

def dot : UInt8 :=
  0x2E

/-- The name of a directory within itself. -/
def here : Name :=
  [dot]

def above : Name :=
  [dot, dot]

def ofString (text : String) : Path :=
  ⟨Text.encode text⟩

/-- The text of a path, with replacement characters where it is not UTF-8. -/
def display (path : Path) : String :=
  String.ofList (Text.lossy path.bytes)

/-- Divides bytes at every slash.  There is one more part than there are slashes. -/
def divide (bytes : List UInt8) : List Name :=
  bytes.foldr
    (fun current divided =>
      if current = slash then
        [] :: divided
      else
        match divided with
        | [] => [[current]]
        | name :: later => (current :: name) :: later)
    [[]]

/-- The parts of a path between its slashes, empty ones included. -/
def parts (path : Path) : List Name :=
  divide path.bytes

/-- The names of a path that lead somewhere: neither empty nor a single dot. -/
def names (path : Path) : List Name :=
  path.parts.filter fun name => !name.isEmpty && name != here

def isAbsolute (path : Path) : Bool :=
  path.bytes.head? = some slash

def endsInSlash (path : Path) : Bool :=
  path.bytes.getLast? = some slash

def join (path : Path) (name : Name) : Path :=
  if path.endsInSlash then
    ⟨path.bytes ++ name⟩
  else
    ⟨path.bytes ++ slash :: name⟩

/-- The last name of a path, unless it leads to a directory above. -/
def fileName? (path : Path) : Option Name :=
  path.names.getLast?.filter (· != above)

/-- The part of a name behind its last dot.  A dot at the very beginning does not count. -/
def extension? (name : Name) : Option (List UInt8) :=
  let reversed := name.reverse
  let behind := reversed.takeWhile (· != dot)
  let before := (reversed.dropWhile (· != dot)).drop 1
  if before.isEmpty then none else some behind.reverse

def supportedExtensions : List String :=
  ["js", "jsx", "ts", "tsx", "py"]

/-- Whether a path names a file that is criticised. -/
def isSupported (path : Path) : Bool :=
  match path.fileName?.bind extension? with
  | none => false
  | some extension => supportedExtensions.any fun supported => Text.encode supported == extension

/-- A path that starts at the root, for a path that is not empty.  Dots and repeated slashes
vanish, names of directories above stay, and so do exactly two slashes at the beginning and a
slash at the end. -/
def absolute (path base : Path) : Path :=
  let doubled := path.bytes.take 2 = [slash, slash] && path.bytes[2]? ≠ some slash
  let origin : Path :=
    if !path.isAbsolute then base else if doubled then ⟨[slash, slash]⟩ else ⟨[slash]⟩
  let reached := path.names.foldl join origin
  if path.endsInSlash then reached.join [] else reached

end Path

end SourceCritic
