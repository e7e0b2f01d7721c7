import SourceCritic.FileSystem.Access

/-!
# Finding source files

The files below a directory that are criticised, depth first, the entries of every directory in
the order of the bytes of their names.  Names that start with a dot are passed over, and so are
directories with an excluded name; neither holds for the directory in which the search starts.
Links, pipes and devices are never found.
-/

namespace SourceCritic.SourceFiles

/-- What the search comes upon: a source file, or a directory that cannot be listed. -/
inductive Finding where
  | source (path : Path)
  | unlistable (path : Path) (error : FileError)
  deriving DecidableEq, Repr

def Finding.source? : Finding → Option Path
  | .source path => some path
  | .unlistable _ _ => none

/-- Names of directories that hold dependencies, build results or version history. -/
def alwaysExcluded : List String :=
  ["node_modules", "dist", ".git"]

def excludedNames (extra : List String) : List Name :=
  (alwaysExcluded ++ extra).map Text.encode

def isHidden (name : Name) : Bool :=
  name.head? = some Path.dot

/-- Whether an entry is passed over. -/
def isPassedOver (excluded : List Name) (name : Name) (node : Node) : Bool :=
  isHidden name || (node.isDirectory && excluded.contains name)

def precedes (first second : Name) : Bool :=
  first ≤ second

mutual

/-- What is found at a path and below.  `usable` tells whether the directory around it allows
searching. -/
def visit (excluded : List Name) (path : Path) (usable : Bool) : Node → List Finding
  | .file _ _ => if path.isSupported then [.source path] else []
  | .directory mode entries =>
      if path.bytes.length > FileSystem.pathLimit then
        [.unlistable path .nameTooLong]
      else if usable && mode.read then
        ((visitEntries excluded path mode.search entries).mergeSort
          fun first second => precedes first.1 second.1).flatMap (·.2)
      else
        [.unlistable path .denied]
  | _ => []

/-- What is found at each entry of a directory that is not passed over. -/
def visitEntries (excluded : List Name) (path : Path) (usable : Bool) :
    List (Name × Node) → List (Name × List Finding)
  | [] => []
  | (name, node) :: later =>
      if isPassedOver excluded name node then
        visitEntries excluded path usable later
      else
        (name, visit excluded (path.join name) usable node) ::
          visitEntries excluded path usable later

end

/-- Everything that is found below a directory, or why it cannot be listed. -/
def search (files : FileSystem) (root : Path) (extra : List String) :
    Except FileError (List Finding) :=
  if root.bytes.isEmpty then
    .error .emptyPath
  else
    let start := root.absolute files.workingPath
    match files.openDirectory start with
    | .error error => .error error
    | .ok (mode, entries) =>
        .ok (visit (excludedNames extra) start true (.directory mode entries))

end SourceCritic.SourceFiles
