import LayerPlayback.Settings.Json
import LayerPlayback.Settings.Toml
import LayerPlayback.Settings.Validation

namespace LayerPlayback

/-!
# Configuration files

The extension of a file name decides the format.  It is the part after the last
dot of the name, unless that dot is the first character.
-/

/-- A format of configuration files. -/
inductive ConfigFormat where
  | json
  | toml
  deriving Repr, DecidableEq

/-- The last component of a path that counts: empty ones and single dots do not. -/
def pathName? (path : String) : Option String :=
  ((path.toList.splitOn '/').filter fun part => part ≠ [] && part ≠ ['.']).getLast?
    |>.map String.ofList

/-- The extension of a file name. -/
def nameExtension? (name : String) : Option String :=
  let reversed := name.toList.reverse
  let stem := (reversed.dropWhile (· ≠ '.')).drop 1
  if name = ".." || stem.isEmpty then
    none
  else
    some (String.ofList (reversed.takeWhile (· ≠ '.')).reverse)

namespace ConfigFormat

/-- The format of a file by its path. -/
def ofPath (path : String) : Except SettingsError ConfigFormat :=
  match (pathName? path).bind nameExtension? with
  | some "json" => .ok .json
  | some "toml" => .ok .toml
  | some other => .error (.unsupportedFormat other)
  | none => .error (.unsupportedFormat "none")

end ConfigFormat

namespace Config

/-- The text of a configuration in a format. -/
def textIn (config : Config) : ConfigFormat → String
  | .json => config.jsonText
  | .toml => config.tomlText

/-- Read a configuration from its text in a format. -/
def ofTextIn (text : String) : ConfigFormat → Except SettingsError Config
  | .json =>
      match ofJsonText? text with
      | some config => .ok config
      | none => .error .malformedJson
  | .toml =>
      match ofTomlText? text with
      | some config => .ok config
      | none => .error .malformedToml

/-- Load a configuration from what is found at a path. -/
def load (path : String) (file : File) : Except SettingsError Config := do
  let format ← ConfigFormat.ofPath path
  match file.strictText? with
  | none => .error .unreadable
  | some text => (← ofTextIn text format).validated

/-- Load a configuration from a path; where nothing is found, it is the default. -/
def loadOrDefault (path : String) (file : File) : Except SettingsError Config :=
  if file.isFound then load path file else .ok {}

/-- What is written to a path to save a configuration. -/
def saved (config : Config) (path : String) : Except SettingsError String := do
  let valid ← config.validated
  let format ← ConfigFormat.ofPath path
  return valid.textIn format

end Config

end LayerPlayback
