import SourceCritic.FileSystem.Basic

/-!
# The log

What a run notes while it works.  Every note has a level and is printed as one line.
-/

namespace SourceCritic

inductive LogLevel where
  | error
  | warn
  | info
  | debug
  | trace
  deriving DecidableEq, Repr

namespace LogLevel

/-- The level as a number, larger for a less important one. -/
def rank : LogLevel → Nat
  | .error => 1
  | .warn => 2
  | .info => 3
  | .debug => 4
  | .trace => 5

def word : LogLevel → String
  | .error => "ERROR"
  | .warn => "WARN"
  | .info => "INFO"
  | .debug => "DEBUG"
  | .trace => "TRACE"

end LogLevel

inductive LogEvent where
  | skippedEntry (path : Path) (error : FileError)
  | oversized (file : Path) (size limit : Nat)
  | unstatable (file : Path) (error : FileError)
  | unreadable (file : Path) (error : FileError)
  | analyzed (file : Path) (violations : Nat)
  | complete (files violations : Nat)
  deriving DecidableEq, Repr

namespace LogEvent

def level : LogEvent → LogLevel
  | .skippedEntry _ _ => .warn
  | .complete _ _ => .info
  | _ => .debug

/-- The part of the program that makes a note. -/
def target : LogEvent → String
  | .skippedEntry _ _ => "shitlint::scanner"
  | _ => "shitlint::engine"

def text : LogEvent → String
  | .skippedEntry path error =>
      let shown := path.display
      let reason := error.message
      s!"skipping unreadable entry error={shown}: IO error for operation on {shown}: {reason}"
  | .oversized file size limit =>
      let shown := file.display
      s!"skipping file over size limit file={shown} size={size} limit={limit}"
  | .unstatable file error =>
      let shown := file.display
      let reason := error.message
      s!"could not stat file file={shown} error={reason}"
  | .unreadable file error =>
      let shown := file.display
      let reason := error.message
      s!"could not read file file={shown} error={reason}"
  | .analyzed file violations =>
      let shown := file.display
      s!"analyzed file file={shown} violations={violations}"
  | .complete files violations =>
      s!"analysis complete files={files} violations={violations}"

def line (event : LogEvent) : String :=
  event.level.word ++ " " ++ event.text ++ "\n"

end LogEvent

end SourceCritic
