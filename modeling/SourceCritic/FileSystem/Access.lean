import SourceCritic.FileSystem.Basic

/-!
# Following paths

A path is followed name by name.  Every directory on the way must allow searching, symbolic links
are replaced by their targets, and at most forty of them may be met.
-/

namespace SourceCritic.FileSystem

/-- The longest name of an entry, in bytes. -/
def nameLimit : Nat :=
  255

/-- The longest path, in bytes. -/
def pathLimit : Nat :=
  4095

/-- The largest number of links on the way. -/
def linkLimit : Nat :=
  40

/-- How far a path leads: the entries on the way, the last one first and without the root, and
the names from the first one on that does not exist. -/
structure Trail where
  passed : List (Name × Node)
  missing : List Name

namespace Trail

/-- The entry that a trail has reached. -/
def node (root : Node) (passed : List (Name × Node)) : Node :=
  match passed with
  | [] => root
  | entry :: _ => entry.2

/-- The names that lead from the root to the end of a trail. -/
def location (trail : Trail) : List Name :=
  (trail.passed.map (·.1)).reverse ++
    trail.missing.filter fun name => !name.isEmpty && name != Path.here

end Trail

/-- How a path is followed: whether modes count, and whether a link at its end is followed. -/
structure Manner where
  checked : Bool
  followsLast : Bool

/-- Follows names from an entry on.  `links` is the number of links that may still be met. -/
def follow (root : Node) (manner : Manner)
    (links : Nat) (passed : List (Name × Node)) (names : List Name) :
    Except FileError Trail :=
  match names with
  | [] => .ok { passed := passed, missing := [] }
  | name :: rest =>
      match Trail.node root passed with
      | .directory mode entries =>
          if name.isEmpty then
            follow root manner links passed rest
          else if manner.checked && !mode.search then
            .error .denied
          else if name = Path.here then
            follow root manner links passed rest
          else if name = Path.above then
            follow root manner links passed.tail rest
          else if name.length > nameLimit then
            .error .nameTooLong
          else
            match entries.lookup name with
            | none => .ok { passed := passed, missing := name :: rest }
            | some (.link target) =>
                if rest.isEmpty && !manner.followsLast then
                  .ok { passed := (name, .link target) :: passed, missing := [] }
                else
                  match links with
                  | 0 => .error .tooManyLinks
                  | links + 1 =>
                      let origin := if target.isAbsolute then [] else passed
                      follow root manner links origin (target.parts ++ rest)
            | some node => follow root manner links ((name, node) :: passed) rest
      | _ => .error .notDirectory
  termination_by (links, names.length)

/-- The entries on the way from the root to the working directory, the last one first. -/
def workingTrail (files : FileSystem) : List (Name × Node) :=
  match follow files.root { checked := false, followsLast := true } 0 []
      files.workingDirectory with
  | .ok trail => trail.passed
  | .error _ => []

/-- Follows a path to where it leads, or to its first name that does not exist. -/
def trail (files : FileSystem) (manner : Manner) (path : Path) : Except FileError Trail :=
  if path.bytes.contains 0 then
    .error .nulByte
  else if path.bytes.isEmpty then
    .error .noSuchEntry
  else if path.bytes.length > pathLimit then
    .error .nameTooLong
  else
    let origin := if path.isAbsolute then [] else files.workingTrail
    follow files.root manner linkLimit origin path.parts

/-- The entry that a path leads to, links followed. -/
def lookup (files : FileSystem) (path : Path) : Except FileError Node :=
  match files.trail { checked := true, followsLast := true } path with
  | .error error => .error error
  | .ok trail =>
      if trail.missing.isEmpty then
        .ok (Trail.node files.root trail.passed)
      else
        .error .noSuchEntry

/-- The bytes of the file that a path leads to.  Pipes and devices are read as empty. -/
def readBytes (files : FileSystem) (path : Path) : Except FileError ByteArray :=
  match files.lookup path with
  | .error error => .error error
  | .ok (.file mode content) => if mode.read then .ok content else .error .denied
  | .ok (.directory mode _) => if mode.read then .error .isDirectory else .error .denied
  | .ok (.pipe mode) => if mode.read then .ok .empty else .error .denied
  | .ok (.device mode) => if mode.read then .ok .empty else .error .denied
  | .ok (.link _) => .error .tooManyLinks

def readText (files : FileSystem) (path : Path) : Except FileError String :=
  match files.readBytes path with
  | .error error => .error error
  | .ok bytes =>
      match String.fromUTF8? bytes with
      | none => .error .notUtf8
      | some text => .ok text

/-- The directory that a path leads to, if its entries may be listed. -/
def openDirectory (files : FileSystem) (path : Path) :
    Except FileError (Mode × List (Name × Node)) :=
  match files.lookup path with
  | .error error => .error error
  | .ok (.directory mode entries) => if mode.read then .ok (mode, entries) else .error .denied
  | .ok _ => .error .notDirectory

end SourceCritic.FileSystem
