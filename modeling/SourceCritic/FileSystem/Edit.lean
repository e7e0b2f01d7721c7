import SourceCritic.FileSystem.Access

/-!
# Changing a file system

Changes that are made from outside, by someone whom no mode holds back.  Directories that are
missing on the way to a new entry are created.
-/

namespace SourceCritic

namespace Node

/-- The entries of a directory with one of them set or removed. -/
def setEntry (name : Name) (entries : List (Name × Node)) : Option Node → List (Name × Node)
  | none => entries.filter fun entry => entry.1 != name
  | some node =>
      if entries.any fun entry => entry.1 == name then
        entries.map fun entry => if entry.1 == name then (name, node) else entry
      else
        entries ++ [(name, node)]

/-- Changes the entry that some names lead to, which may be missing before and after. -/
def edit (change : Option Node → Option Node) : List Name → Node → Node
  | [], node => (change (some node)).getD node
  | [name], .directory mode entries =>
      .directory mode (setEntry name entries (change (entries.lookup name)))
  | name :: rest, .directory mode entries =>
      let below := (entries.lookup name).getD emptyDirectory
      .directory mode (setEntry name entries (some (edit change rest below)))
  | _, node => node

def withMode (mode : Mode) : Node → Node
  | .file _ content => .file mode content
  | .directory _ entries => .directory mode entries
  | .link target => .link target
  | .pipe _ => .pipe mode
  | .device _ => .device mode

end Node

namespace FileSystem

def edit (files : FileSystem) (followsLast : Bool) (path : Path)
    (change : Option Node → Option Node) : FileSystem :=
  match files.trail { checked := false, followsLast := followsLast } path with
  | .error _ => files
  | .ok trail => { files with root := files.root.edit change trail.location }

/-- Writes a file.  A file that exists keeps its mode. -/
def write (files : FileSystem) (path : Path) (content : ByteArray) : FileSystem :=
  files.edit true path fun existing =>
    match existing with
    | some (.file mode _) => some (.file mode content)
    | some other => some other
    | none => some (.file .newFile content)

def makeDirectory (files : FileSystem) (path : Path) : FileSystem :=
  files.edit true path fun existing => existing.or (some .emptyDirectory)

def makeLink (files : FileSystem) (path target : Path) : FileSystem :=
  files.edit false path fun existing => existing.or (some (.link target))

def makePipe (files : FileSystem) (path : Path) : FileSystem :=
  files.edit false path fun existing => existing.or (some (.pipe .newFile))

/-- Changes the mode of what a path leads to. -/
def changeMode (files : FileSystem) (path : Path) (mode : Mode) : FileSystem :=
  files.edit true path fun existing => existing.map (Node.withMode mode)

def remove (files : FileSystem) (path : Path) : FileSystem :=
  files.edit false path fun _ => none

/-- Moves an entry to another path, in place of what is there. -/
def rename (files : FileSystem) (source destination : Path) : FileSystem :=
  match files.trail { checked := false, followsLast := false } source with
  | .error _ => files
  | .ok trail =>
      if trail.missing.isEmpty then
        let moved := Trail.node files.root trail.passed
        (files.remove source).edit false destination fun _ => some moved
      else
        files

end FileSystem

end SourceCritic
