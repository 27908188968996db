import LayerPlayback.CommandLine.Run

/-!
# The command-line program

Reads the files that a run can need, writes its output, and reports errors with what
was attempted when they arose.
-/

namespace LayerPlayback

/-- What is found at a path. -/
def readFile (path : String) : IO File := do
  try
    let bytes ← IO.FS.readBinFile path
    return .content bytes.toList
  catch
    | .noFileOrDirectory .. => return .missing
    | _ => return .unreadable

/-- Where the configuration is when none is named; relative directories do not count. -/
def defaultConfigPath : IO String := do
  let named? := (← IO.getEnv "XDG_CONFIG_HOME").filter fun directory =>
    directory.toList.head? = some '/'
  let home := (← IO.getEnv "HOME").getD ""
  return named?.getD (home ++ "/.config") ++ "/printview/config.json"

/-- The paths that a run can read. -/
def neededPaths (defaultPath : String) : CommandLine → List String
  | .summarize arguments => [arguments.config?.getD defaultPath, arguments.file]
  | _ => []

/-- What a run can find, from files that were read before. -/
def surroundings (defaultPath : String) (files : List (String × File)) : Surroundings :=
  { defaultConfigPath := defaultPath
    file := fun path => (files.lookup path).getD .missing }

/-- The lines about an error. -/
def RunError.lines (error : RunError) : List String :=
  match error with
  | .config _ cause => error.message :: cause.message?.toList
  | .program _ => [error.message]

/-- Write lines to the error output. -/
def reportError (lines : List String) : IO UInt32 := do
  lines.forM IO.eprintln
  return 1

/-- Run a command line and write what it gives. -/
def runCommandLine (commandLine : CommandLine) : IO UInt32 := do
  let defaultPath ← defaultConfigPath
  let files ← (neededPaths defaultPath commandLine).mapM fun path => do
    return (path, ← readFile path)
  match commandLine.output (surroundings defaultPath files) with
  | .ok text => do
      IO.print text
      return 0
  | .error error => reportError error.lines

end LayerPlayback

/-- The program. -/
def main (arguments : List String) : IO UInt32 :=
  match LayerPlayback.CommandLine.ofArguments arguments with
  | .ok commandLine => LayerPlayback.runCommandLine commandLine
  | .error error => LayerPlayback.reportError ["Invalid arguments", error.message]
