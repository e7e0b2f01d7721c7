import SourceCritic.CommandLine.Arguments
import SourceCritic.CommandLine.LogFilter
import SourceCritic.Config.Load
import SourceCritic.Report

/-!
# The program

What the program prints and how it ends, for given arguments, surroundings and files.  It ends
with status 1 if it fails or if it finds a violation of the worst grade.
-/

namespace SourceCritic.Program

open CommandLine (Options Request)

/-- What the program is told besides its arguments: whether to use styles, which notes to print,
and how long it has worked. -/
structure Surroundings where
  colored : Bool
  logFilter : Option String
  elapsed : String

/-- How the program ends: its status, and what it prints as output and as errors. -/
structure Ending where
  status : Nat
  output : String
  errors : String
  deriving DecidableEq, Repr

/-- Whether styles are used: they may be forced by one word and forbidden by another, and are
otherwise used on a terminal only. -/
def usesStyles (forced forbidden : Option String) (onTerminal : Bool) : Bool :=
  match forced with
  | some word => word ≠ "0" || (forbidden.isNone && onTerminal)
  | none => forbidden.isNone && onTerminal

/-- A time in seconds with two places, for a time in milliseconds. -/
def elapsedText (milliseconds : Nat) : String :=
  let hundredths := (milliseconds + 5) / 10
  let places := hundredths % 100
  Report.decimal (hundredths / 100) ++ "." ++ (if places < 10 then "0" else "") ++
    Report.decimal places ++ "s"

/-- The paths that a request makes the program look at. -/
def pathsOf : Request → List Path
  | .run options => options.path :: options.config.toList
  | _ => []

/-- The notes that are printed.  A filter that makes no sense counts as none. -/
def logFilter (surroundings : Surroundings) (verbose : Bool) : LogFilter :=
  (surroundings.logFilter.bind LogFilter.ofText?).getD
    (.upTo (if verbose then .debug else .warn))

def logText (filter : LogFilter) (log : List LogEvent) : String :=
  String.join ((log.filter filter.admits).map LogEvent.line)

/-- The settings that a run is asked to use. -/
def loadConfig (files : FileSystem) (options : Options) : Except Config.LoadError Config :=
  match options.config with
  | none => .ok .default
  | some path => Config.load files path

/-- The causes of an error, one a line and numbered from zero. -/
def numberedCauses (causes : List String) : String :=
  String.join (causes.mapIdx fun index cause =>
    "    " ++ Report.decimal index ++ ": " ++ cause ++ "\n")

def configFailure (options : Options) (error : Config.LoadError) : Ending :=
  if options.json then
    { status := 1, output := Report.jsonError error.message ++ "\n", errors := "" }
  else
    let path := (options.config.map fun path => Text.quotedPath path.bytes).getD []
    { status := 1
      output := ""
      errors :=
        "Error: Failed to load configuration from " ++ String.ofList path ++
          "\n\nCaused by:\n" ++ numberedCauses error.causes }

def runFailure (surroundings : Surroundings) (options : Options) (error : AnalysisError) :
    Ending :=
  if options.json then
    { status := 1, output := Report.jsonError error.message ++ "\n", errors := "" }
  else
    let label := Text.styled surroundings.colored [.bold, .brightRed] "Error:"
    { status := 1, output := "", errors := label ++ " " ++ error.message ++ "\n" }

def success (surroundings : Surroundings) (options : Options) (analysis : Analysis) : Ending :=
  let output :=
    if options.json then
      Report.json analysis.violations ++ "\n"
    else
      Report.human { colored := surroundings.colored, harsh := options.harsh } analysis
        surroundings.elapsed
  let failed := analysis.violations.any fun violation => violation.severity = .brutal
  { status := if failed then 1 else 0, output := output, errors := "" }

def runWith (files : FileSystem) (surroundings : Surroundings) (options : Options) : Ending :=
  match loadConfig files options with
  | .error error => configFailure options error
  | .ok config =>
      let run := Run.start files config options.path
      let notes := logText (logFilter surroundings options.verbose) run.log
      let ending :=
        match run.outcome with
        | .error error => runFailure surroundings options error
        | .ok analysis => success surroundings options analysis
      { ending with errors := notes ++ ending.errors }

def versionText : String :=
  "shitlint " ++ Report.version ++ "\n"

/-- What the program does with its arguments. -/
def execute (files : FileSystem) (surroundings : Surroundings)
    (arguments : List (List UInt8)) : Ending :=
  match Request.ofArguments arguments with
  | .run options => runWith files surroundings options
  | .help => { status := 0, output := CommandLine.helpText, errors := "" }
  | .version => { status := 0, output := versionText, errors := "" }
  | .wrong => { status := 2, output := "", errors := "" }

end SourceCritic.Program
