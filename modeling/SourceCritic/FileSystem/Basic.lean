import SourceCritic.Path

/-!
# File systems

A file system is a tree of directories.  Besides files and directories it may hold symbolic
links, named pipes and devices.  Directories list their entries in any order.
-/

namespace SourceCritic

inductive FileError where
  | noSuchEntry
  | denied
  | notDirectory
  | isDirectory
  | nameTooLong
  | tooManyLinks
  | nulByte
  | emptyPath
  | notUtf8
  deriving DecidableEq, Repr

def FileError.message : FileError → String
  | .noSuchEntry => "No such file or directory (os error 2)"
  | .denied => "Permission denied (os error 13)"
  | .notDirectory => "Not a directory (os error 20)"
  | .isDirectory => "Is a directory (os error 21)"
  | .nameTooLong => "File name too long (os error 36)"
  | .tooManyLinks => "Too many levels of symbolic links (os error 40)"
  | .nulByte => "file name contained an unexpected NUL byte"
  | .emptyPath => "cannot make an empty path absolute"
  | .notUtf8 => "stream did not contain valid UTF-8"

/-- What may be done with an entry.  For a directory, reading is listing its entries, and
searching is using them. -/
structure Mode where
  read : Bool
  write : Bool
  search : Bool
  deriving DecidableEq, Repr

namespace Mode

def newFile : Mode where
  read := true
  write := true
  search := false

def newDirectory : Mode where
  read := true
  write := true
  search := true

/-- The mode with the bits of an octal digit. -/
def ofDigit (digit : Nat) : Mode where
  read := digit.testBit 2
  write := digit.testBit 1
  search := digit.testBit 0

end Mode

/-- An entry of a directory with everything below it. -/
inductive Node where
  | file (mode : Mode) (content : ByteArray)
  | directory (mode : Mode) (entries : List (Name × Node))
  | link (target : Path)
  | pipe (mode : Mode)
  | device (mode : Mode)

namespace Node

instance : Inhabited Node where
  default := .link ⟨[]⟩

def isDirectory : Node → Bool
  | .directory _ _ => true
  | _ => false

def entry? (name : Name) : Node → Option Node
  | .directory _ entries => entries.lookup name
  | _ => none

/-- The number of bytes that an entry is said to have. -/
def size : Node → Nat
  | .file _ content => content.size
  | .directory _ _ => 4096
  | _ => 0

def emptyDirectory : Node :=
  .directory .newDirectory []

end Node

/-- A tree and the names that lead from its root to the working directory. -/
structure FileSystem where
  root : Node
  workingDirectory : List Name

namespace FileSystem

def workingPath (files : FileSystem) : Path :=
  files.workingDirectory.foldl Path.join ⟨[Path.slash]⟩

end FileSystem

end SourceCritic
