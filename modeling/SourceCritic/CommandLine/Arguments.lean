import SourceCritic.Path

/-!
# Command line arguments

Arguments are handled one after the other.  The value of an option and a positional argument are
only looked at when the next argument, or the end, shows that they are complete.  The first
argument that is wrong or asks for help or the version decides.
-/

namespace SourceCritic.CommandLine

structure Options where
  path : Path
  config : Option Path
  json : Bool
  harsh : Bool
  verbose : Bool
  deriving DecidableEq, Repr

/-- What the arguments amount to. -/
inductive Request where
  | run (options : Options)
  | help
  | version
  | wrong
  deriving DecidableEq, Repr

inductive Switch where
  | json
  | harsh
  | verbose
  | help
  | version
  deriving DecidableEq, Repr

inductive Flag where
  | switch (switch : Switch)
  | config
  deriving DecidableEq, Repr

def longFlag? (name : List UInt8) : Option Flag :=
  match String.ofList (Text.lossy name) with
  | "json" => some (.switch .json)
  | "brutal" => some (.switch .harsh)
  | "verbose" => some (.switch .verbose)
  | "help" => some (.switch .help)
  | "version" => some (.switch .version)
  | "config" => some .config
  | _ => none

def shortFlag? (name : UInt8) : Option Flag :=
  match Char.ofNat name.toNat with
  | 'v' => some (.switch .verbose)
  | 'h' => some (.switch .help)
  | 'V' => some (.switch .version)
  | 'c' => some .config
  | _ => none

/-- A value that is not complete before the next argument. -/
inductive Pending where
  | nothing
  | path (value : List UInt8)
  | config (value : Option (List UInt8))
  deriving DecidableEq, Repr

/-- Arguments that have been handled.  `trailing` tells whether all later ones are positional,
and `located` whether there has been a positional one. -/
structure Progress where
  path : Option Path
  config : Option Path
  json : Bool
  harsh : Bool
  verbose : Bool
  pending : Pending
  trailing : Bool
  located : Bool
  deriving DecidableEq, Repr

namespace Progress

def start : Progress where
  path := none
  config := none
  json := false
  harsh := false
  verbose := false
  pending := .nothing
  trailing := false
  located := false

/-- Takes the value of the configuration option, which must not be empty or given twice. -/
def setConfig (progress : Progress) (value : List UInt8) : Except Request Progress :=
  if value.isEmpty || progress.config.isSome then
    .error .wrong
  else
    .ok { progress with config := some ⟨value⟩, pending := .nothing }

/-- Completes the pending value. -/
def settle (progress : Progress) : Except Request Progress :=
  match progress.pending with
  | .nothing => .ok progress
  | .path value =>
      if value.isEmpty then
        .error .wrong
      else
        .ok { progress with path := some ⟨value⟩, pending := .nothing }
  | .config none => .error .wrong
  | .config (some value) => progress.setConfig value

/-- Sets a switch, which must not be set twice. -/
def setSwitch (progress : Progress) : Switch → Except Request Progress
  | .json => if progress.json then .error .wrong else .ok { progress with json := true }
  | .harsh => if progress.harsh then .error .wrong else .ok { progress with harsh := true }
  | .verbose => if progress.verbose then .error .wrong else .ok { progress with verbose := true }
  | .help => .error .help
  | .version => .error .version

def takeSwitch (progress : Progress) (switch : Switch) : Except Request Progress :=
  match progress.settle with
  | .error request => .error request
  | .ok progress => progress.setSwitch switch

/-- Handles the configuration option with the value that stands in the same argument, if one
does. -/
def takeConfig (progress : Progress) (value : Option (List UInt8)) : Except Request Progress :=
  match progress.settle with
  | .error request => .error request
  | .ok progress =>
      match value with
      | none => .ok { progress with pending := .config none }
      | some value => progress.setConfig value

/-- Handles a long argument behind its dashes. -/
def takeLong (progress : Progress) (text : List UInt8) : Except Request Progress :=
  let equals : UInt8 := 0x3D
  let name := text.takeWhile (· != equals)
  let value : Option (List UInt8) :=
    if name.length < text.length then some (text.drop (name.length + 1)) else none
  match longFlag? name, value with
  | some (.switch switch), none => progress.takeSwitch switch
  | some .config, value => progress.takeConfig value
  | _, _ => .error .wrong

/-- Handles short flags behind their dash.  The configuration option takes the rest as its
value. -/
def takeShort (progress : Progress) : List UInt8 → Except Request Progress
  | [] => .ok progress
  | name :: rest =>
      match shortFlag? name with
      | none => .error .wrong
      | some (.switch switch) =>
          match progress.takeSwitch switch with
          | .error request => .error request
          | .ok progress => progress.takeShort rest
      | some .config =>
          match rest with
          | [] => progress.takeConfig none
          | 0x3D :: value => progress.takeConfig (some value)
          | value => progress.takeConfig (some value)

/-- Handles a positional argument, of which there may be one. -/
def takePositional (progress : Progress) (text : List UInt8) : Except Request Progress :=
  if progress.located then
    .error .wrong
  else
    match progress.settle with
    | .error request => .error request
    | .ok progress => .ok { progress with pending := .path text, located := true }

def take (progress : Progress) (argument : List UInt8) : Except Request Progress :=
  if progress.trailing then
    progress.takePositional argument
  else
    match argument with
    | [0x2D, 0x2D] => .ok { progress with trailing := true }
    | 0x2D :: 0x2D :: text => progress.takeLong text
    | 0x2D :: first :: rest => progress.takeShort (first :: rest)
    | text =>
        if progress.pending = .config none then
          .ok { progress with pending := .config (some text) }
        else
          progress.takePositional text

/-- What was asked for, when all arguments have been handled.  Without a path it is the working
directory. -/
def finish (progress : Progress) : Request :=
  match progress.settle with
  | .error request => request
  | .ok progress =>
      .run
        { path := progress.path.getD ⟨Path.here⟩
          config := progress.config
          json := progress.json
          harsh := progress.harsh
          verbose := progress.verbose }

def takeAll (progress : Progress) : List (List UInt8) → Request
  | [] => progress.finish
  | argument :: rest =>
      match progress.take argument with
      | .error request => request
      | .ok progress => progress.takeAll rest

end Progress

def Request.ofArguments (arguments : List (List UInt8)) : Request :=
  Progress.start.takeAll arguments

def helpText : String :=
  "\n".intercalate
    ["Your code is shit. Here's why.",
      "",
      "Usage: shitlint [OPTIONS] [PATH]",
      "",
      "Arguments:",
      "  [PATH]  File or directory to analyze [default: .]",
      "",
      "Options:",
      "  -c, --config <CONFIG>  Path to an optional YAML configuration file",
      "      --json             Output results in JSON format",
      "      --brutal           Extra brutal mode: harsher verdicts and full metrics per violation",
      "  -v, --verbose          Enable debug logging",
      "  -h, --help             Print help",
      "  -V, --version          Print version",
      ""]

end SourceCritic.CommandLine
