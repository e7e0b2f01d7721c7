import SourceCritic.Config.Decode
import SourceCritic.FileSystem.Access

/-!
# Settings in a file

Settings are loaded from a file.  It may be impossible to open it, to read it, or to make sense
of it.
-/

namespace SourceCritic.Config

inductive LoadError where
  | unopened (path : Path) (cause : FileError)
  | unread (cause : FileError)
  | unusable (cause : Yaml.Failure)
  deriving DecidableEq, Repr

namespace LoadError

def causes : LoadError → List String
  | .unopened path cause =>
      ["Failed to open config file: " ++ String.ofList (Text.quotedPath path.bytes), cause.message]
  | .unread cause => ["Failed to parse configuration file", cause.message]
  | .unusable cause => ["Failed to parse configuration file", cause.message]

def message (error : LoadError) : String :=
  ": ".intercalate error.causes

end LoadError

/-- Loads settings from the file that a path leads to. -/
def load (files : FileSystem) (path : Path) : Except LoadError Config :=
  match files.readBytes path with
  | .error .isDirectory => .error (.unread .isDirectory)
  | .error cause => .error (.unopened path cause)
  | .ok bytes =>
      match ofYaml bytes.toList with
      | .error failure => .error (.unusable failure)
      | .ok config => .ok config

end SourceCritic.Config
