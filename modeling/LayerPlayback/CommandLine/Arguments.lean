import LayerPlayback.Number.Literal

namespace LayerPlayback

/-!
# Command-line arguments

The arguments name one program file and may ask for a configuration file, for a
report in JSON, and for a layer window with a progress.  An option that is given
again replaces what it gave before; a request for help or for the version ends the
reading.
-/

/-- A layer window on the command line. -/
structure WindowArguments where
  lower : Float
  upper : Float
  /-- How many segments of the current layers are revealed; all when it is missing. -/
  progress? : Option Float := none
  deriving Repr, BEq

/-- How many numbers a window is given by. -/
def WindowArguments.numberCount (window : WindowArguments) : Nat :=
  if window.progress?.isSome then 3 else 2

/-- What a report is to be about. -/
structure SummaryArguments where
  file : String
  config? : Option String := none
  json : Bool := false
  window? : Option WindowArguments := none
  deriving Repr, BEq

/-- What is asked for on the command line. -/
inductive CommandLine where
  | help
  | version
  | summarize (arguments : SummaryArguments)
  deriving Repr, BEq

/-- Why arguments are refused. -/
inductive ArgumentError where
  | missingConfigPath
  | missingNumber
  | malformedNumber (text : String)
  | unknownOption (option : String)
  | severalFiles
  | missingFile
  deriving Repr, DecidableEq

/-- How the program is used, line by line. -/
def usageLines : List String :=
  [ "Usage: printview <FILE> [OPTIONS]",
    "",
    "Options:",
    "  --config <PATH>                   Load settings from a .json or .toml file",
    "  --json                            Print the model and diagnostics as JSON",
    "  --window <MIN> <MAX> [<PROGRESS>] Evaluate a layer window and progress cursor",
    "  -h, --help                        Print this help",
    "  -V, --version                     Print version information" ]

/-- How the program is used. -/
def usage : String :=
  "\n".intercalate usageLines

namespace ArgumentError

/-- The wording of an error. -/
def message : ArgumentError → String
  | .missingConfigPath => "--config expects a path"
  | .missingNumber => "--window expects a number"
  | .malformedNumber text => s!"--window expects a number, got '{text}'"
  | .unknownOption option => s!"Unknown option '{option}'"
  | .severalFiles => "Only one input file is supported"
  | .missingFile => "Missing input file\n\n" ++ usage

end ArgumentError

namespace CommandLine

/-- What the arguments so far ask for. -/
structure Found where
  file? : Option String := none
  config? : Option String := none
  json : Bool := false
  window? : Option WindowArguments := none
  deriving Repr

namespace Found

/-- A report needs a file. -/
def finished (found : Found) : Except ArgumentError CommandLine :=
  match found.file? with
  | some file => .ok (.summarize ⟨file, found.config?, found.json, found.window?⟩)
  | none => .error .missingFile

/-- Also ask for a report in JSON. -/
def withJson (found : Found) : Found :=
  { found with json := true }

/-- Also ask for a configuration file. -/
def withConfig (found : Found) (path : String) : Found :=
  { found with config? := some path }

/-- Also ask for a window. -/
def withWindow (found : Found) (window : WindowArguments) : Found :=
  { found with window? := some window }

/-- Also name a file. -/
def withFile (found : Found) (file : String) : Found :=
  { found with file? := some file }

end Found

/-- A finite number. -/
def number (text : String) : Except ArgumentError Float :=
  match NumberLiteral.finite? text.toList with
  | some value => .ok value
  | none => .error (.malformedNumber text)

/-- Whether an argument is an option: a dash with something after it. -/
def isOption (argument : String) : Bool :=
  match argument.toList with
  | '-' :: _ :: _ => true
  | _ => false

/-- Whether an argument starts with two dashes, so that it is no progress. -/
def isLongOption (argument : String) : Bool :=
  match argument.toList with
  | '-' :: '-' :: _ => true
  | _ => false

/-- The progress of a window, unless the arguments end or go on with a long option. -/
def readProgress : List String → Except ArgumentError (Option Float)
  | [] => .ok none
  | argument :: _ =>
      if isLongOption argument then
        .ok none
      else
        (number argument).map some

/-- The numbers of a window. -/
def readWindow : List String → Except ArgumentError WindowArguments
  | [] => .error .missingNumber
  | [first] => do
      let _ ← number first
      .error .missingNumber
  | first :: second :: others => do
      let lower ← number first
      let upper ← number second
      let progress? ← readProgress others
      return ⟨lower, upper, progress?⟩

/-- Read further arguments. -/
def readFrom (found : Found) : List String → Except ArgumentError CommandLine
  | [] => found.finished
  | argument :: rest =>
      if argument = "-h" ∨ argument = "--help" then
        .ok .help
      else if argument = "-V" ∨ argument = "--version" then
        .ok .version
      else if argument = "--json" then
        readFrom found.withJson rest
      else if argument = "--config" then
        match rest with
        | [] => .error .missingConfigPath
        | path :: others => readFrom (found.withConfig path) others
      else if argument = "--window" then
        match readWindow rest with
        | .error error => .error error
        | .ok window => readFrom (found.withWindow window) (rest.drop window.numberCount)
      else if isOption argument then
        .error (.unknownOption argument)
      else if found.file?.isSome then
        .error .severalFiles
      else
        readFrom (found.withFile argument) rest
termination_by arguments => arguments.length

/-- What some arguments ask for, the program's name not among them. -/
def ofArguments (arguments : List String) : Except ArgumentError CommandLine :=
  readFrom {} arguments

end CommandLine

end LayerPlayback
