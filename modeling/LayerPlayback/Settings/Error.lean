namespace LayerPlayback

/-!
# Settings errors

Why a configuration is refused, or cannot be loaded or saved.  What the system or
the grammar of a format has to say about a failure is not part of the wording.
-/

/-- Why settings are not accepted. -/
inductive SettingsError where
  /-- A setting has a value that it cannot have. -/
  | invalidSetting (key reason : String)
  /-- A file name has an extension that no format has. -/
  | unsupportedFormat (extension : String)
  /-- There is no place for configuration files. -/
  | unsupportedPlatform (reason : String)
  /-- A file cannot be read, or holds no text. -/
  | unreadable
  /-- A text is not the JSON form of a configuration. -/
  | malformedJson
  /-- A text is not the TOML form of a configuration. -/
  | malformedToml
  deriving Repr, DecidableEq

namespace SettingsError

/-- The wording of the errors that have one. -/
def message? : SettingsError → Option String
  | .invalidSetting key reason => some s!"Invalid setting '{key}': {reason}"
  | .unsupportedFormat extension =>
      some s!"Config error: Unsupported config format: {extension}"
  | .unsupportedPlatform reason =>
      some s!"Config error: Unsupported platform: {reason}"
  | .unreadable => none
  | .malformedJson => none
  | .malformedToml => none

end SettingsError

end LayerPlayback
