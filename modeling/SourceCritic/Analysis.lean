import SourceCritic.Config.Basic
import SourceCritic.FileSystem.Access
import SourceCritic.Log
import SourceCritic.Rule
import SourceCritic.SourceFiles

/-!
# Runs

A run looks at one file or at all source files below a directory.  Only its root can make it
fail: whatever goes wrong with a single file is noted in the log, and the file counts as looked
at without violations.
-/

namespace SourceCritic

/-- Why a run failed.  The path is the root as it was given. -/
inductive AnalysisError where
  | pathNotFound (path : Path)
  | unsupportedPath (path : Path)
  | inaccessible (path : Path) (cause : FileError)
  deriving DecidableEq, Repr

def AnalysisError.message : AnalysisError → String
  | .pathNotFound path => "path does not exist: " ++ path.display
  | .unsupportedPath path => "path is neither a file nor a directory: " ++ path.display
  | .inaccessible path cause => "cannot access " ++ path.display ++ ": " ++ cause.message

structure Analysis where
  filesScanned : Nat
  violations : List Violation
  deriving Repr

/-- What came out of looking at one file: its violations, and the note about it. -/
structure FileReport where
  violations : List Violation
  note : LogEvent
  deriving Repr

namespace FileReport

def read (files : FileSystem) (path : Path) : FileReport :=
  match files.readText path with
  | .error error => { violations := [], note := .unreadable path error }
  | .ok text =>
      let violations := analyze path.display text
      { violations := violations, note := .analyzed path violations.length }

/-- Looks at a file, unless it is larger than the limit. -/
def ofFile (files : FileSystem) (limit : Option Nat) (path : Path) : FileReport :=
  match limit with
  | none => read files path
  | some limit =>
      match files.lookup path with
      | .error error => { violations := [], note := .unstatable path error }
      | .ok node =>
          if node.size > limit then
            { violations := [], note := .oversized path node.size limit }
          else
            read files path

end FileReport

/-- Everything that a run has to say: its notes, and its result or why there is none. -/
structure Run where
  log : List LogEvent
  outcome : Except AnalysisError Analysis

namespace Run

def skipNote? : SourceFiles.Finding → Option LogEvent
  | .source _ => none
  | .unlistable path error => some (.skippedEntry path error)

/-- What the root of a run stands for, or why the run fails. -/
def findings (files : FileSystem) (config : Config) (root : Path) :
    Except AnalysisError (List SourceFiles.Finding) :=
  match files.lookup root with
  | .error .noSuchEntry => .error (.pathNotFound root)
  | .error other => .error (.inaccessible root other)
  | .ok (.file _ _) => .ok (if root.isSupported then [.source root] else [])
  | .ok (.directory _ _) =>
      match SourceFiles.search files root config.exclude with
      | .error error => .error (.inaccessible root error)
      | .ok found => .ok found
  | .ok _ => .error (.unsupportedPath root)

def ofFindings (files : FileSystem) (limit : Option Nat)
    (found : List SourceFiles.Finding) : Run :=
  let sources := found.filterMap SourceFiles.Finding.source?
  let reports := sources.map (FileReport.ofFile files limit)
  let violations := reports.flatMap (·.violations)
  { log :=
      found.filterMap skipNote? ++ reports.map (·.note) ++
        [.complete sources.length violations.length]
    outcome := .ok { filesScanned := sources.length, violations := violations } }

/-- Runs all rules on the files that a root stands for. -/
def start (files : FileSystem) (config : Config) (root : Path) : Run :=
  match findings files config root with
  | .error error => { log := [], outcome := .error error }
  | .ok found => ofFindings files config.maxFileSize found

end Run

end SourceCritic
