import LayerPlayback.CommandLine.Arguments
import LayerPlayback.CommandLine.Report
import LayerPlayback.Settings.Storage

namespace LayerPlayback

/-!
# Running a command line

A run depends on the files that it finds: a configuration, and the program.  The
configuration comes first, so its errors are reported before those of the program.
-/

/-- Why a run gives no report. -/
inductive RunError where
  /-- The configuration at a path was refused. -/
  | config (path : String) (cause : SettingsError)
  /-- The program file cannot be read. -/
  | program (path : String)
  deriving Repr, DecidableEq

namespace RunError

/-- The wording of what was attempted. -/
def message : RunError → String
  | .config path _ => "Failed to load config " ++ path
  | .program path => "Failed to read " ++ path

end RunError

/-- What a run can find. -/
structure Surroundings where
  /-- Where the configuration is when none is named. -/
  defaultConfigPath : String
  /-- What is found at a path. -/
  file : String → File

namespace SummaryArguments

/-- The configuration that is named, or the one at the default path. -/
def config
    (arguments : SummaryArguments)
    (surroundings : Surroundings) :
    Except RunError Config :=
  match arguments.config? with
  | some path =>
      (Config.load path (surroundings.file path)).mapError (.config path)
  | none =>
      let path := surroundings.defaultConfigPath
      (Config.loadOrDefault path (surroundings.file path)).mapError (.config path)

/-- The report that is asked for. -/
def report
    (arguments : SummaryArguments)
    (surroundings : Surroundings) :
    Except RunError Report := do
  let config ← arguments.config surroundings
  match config.toolpath.loadFile? (surroundings.file arguments.file) with
  | none => .error (.program arguments.file)
  | some (toolpath, _) =>
      .ok
        { file := arguments.file
          toolpath := toolpath
          window? := arguments.window?.map fun window =>
            .ofBounds toolpath window.lower window.upper window.progress? }

end SummaryArguments

namespace CommandLine

/-- The name and the version of the program. -/
def versionText : String :=
  "printview 0.4.0"

/-- What a command line writes. -/
def output (commandLine : CommandLine) (surroundings : Surroundings) :
    Except RunError String :=
  match commandLine with
  | .help => .ok (usage ++ "\n")
  | .version => .ok (versionText ++ "\n")
  | .summarize arguments => do
      let report ← arguments.report surroundings
      return if arguments.json then report.jsonText else report.text

end CommandLine

end LayerPlayback
