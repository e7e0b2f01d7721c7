import SourceCritic.FileSystem.Edit
import SourceCritic.Program

/-!
# The command line program

Takes a picture of the files that the arguments name, and prints what the program makes of it.
-/

namespace SourceCritic.Main

/-- The bytes of a file, or nothing if it cannot be read. -/
def readFile? (path : String) : IO (Option ByteArray) := do
  try
    return some (← IO.FS.readBinFile path)
  catch _ =>
    return none

def fileNode (path : String) : IO Node := do
  match ← readFile? path with
  | some content => return .file .newFile content
  | none => return .file { Mode.newFile with read := false } .empty

/-- What is on the disk at a path, with everything below that a search would not pass over.
`followed` tells whether a link at the path is followed. -/
partial def picture (path : String) (followed : Bool) : IO (Option Node) := do
  let place := (← IO.currentDir) / path
  try
    let metadata ← if followed then place.metadata else place.symlinkMetadata
    match metadata.type with
    | .file =>
        if followed || (Path.ofString path).isSupported then
          return some (← fileNode path)
        else
          return some (.file .newFile .empty)
    | .dir =>
        try
          let mut entries : List (Name × Node) := []
          for entry in ← place.readDir do
            let name := Text.encode entry.fileName
            if !SourceFiles.isPassedOver (SourceFiles.excludedNames []) name .emptyDirectory then
              match ← picture (path ++ "/" ++ entry.fileName) false with
              | some node => entries := (name, node) :: entries
              | none => pure ()
          return some (.directory .newDirectory entries)
        catch _ =>
          return some (.directory { Mode.newDirectory with read := false } [])
    | .symlink => return some (.link ⟨[]⟩)
    | .other => return some (.device .newFile)
  catch _ =>
    return none

/-- The files that some paths name. -/
def pictures (paths : List Path) : IO FileSystem := do
  let working := Path.ofString (← IO.currentDir).toString
  let empty : FileSystem := { root := .emptyDirectory, workingDirectory := [] }
  let mut files : FileSystem :=
    { empty.makeDirectory working with workingDirectory := working.names }
  for path in paths do
    match ← picture path.display true with
    | some node => files := files.edit false path fun _ => some node
    | none => pure ()
  return files

end SourceCritic.Main

def main (arguments : List String) : IO UInt32 := do
  let began ← IO.monoMsNow
  let given := arguments.map SourceCritic.Text.encode
  let request := SourceCritic.CommandLine.Request.ofArguments given
  let files ← SourceCritic.Main.pictures (SourceCritic.Program.pathsOf request)
  let forced ← IO.getEnv "CLICOLOR_FORCE"
  let forbidden ← IO.getEnv "NO_COLOR"
  let onTerminal ← (← IO.getStdout).isTty
  let logFilter ← IO.getEnv "RUST_LOG"
  let elapsed := (← IO.monoMsNow) - began
  let ending := SourceCritic.Program.execute files
    { colored := SourceCritic.Program.usesStyles forced forbidden onTerminal
      logFilter := logFilter
      elapsed := SourceCritic.Program.elapsedText elapsed }
    given
  IO.eprint ending.errors
  IO.print ending.output
  return UInt32.ofNat ending.status
