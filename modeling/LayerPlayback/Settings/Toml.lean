import LayerPlayback.Codec.Playback
import LayerPlayback.Settings.Config
import LayerPlayback.Toml.Decode
import LayerPlayback.Toml.Reader

namespace LayerPlayback

/-!
# The TOML form of a configuration

Each section is a table with one setting a line.  As in JSON, whatever is missing
has its default.
-/

/-- Read parser settings. -/
def ParserSettings.ofToml? (toml : Toml) : Option ParserSettings :=
  let fallback : ParserSettings := {}
  match toml.record? names with
  | some [familyPrefix, allowXyzReset] => do
      some
        { familyPrefix :=
            ← Toml.defaulted? Toml.char? fallback.familyPrefix familyPrefix
          allowXyzReset :=
            ← Toml.defaulted? Toml.bool? fallback.allowXyzReset allowXyzReset }
  | _ => none

/-- Read a cursor mode. -/
def CursorMode.ofToml? (toml : Toml) : Option CursorMode :=
  toml.unitCase?.bind ofLabel?

/-- Read viewer settings. -/
def ViewerSettings.ofToml? (toml : Toml) : Option ViewerSettings :=
  let fallback : ViewerSettings := {}
  match toml.record? names with
  | some [pathWidth, fallbackLayerStep, stepPrecisionDigits, currentLayerSlack, cursorMode] => do
      some
        { pathWidth := ← Toml.defaulted? Toml.float? fallback.pathWidth pathWidth
          fallbackLayerStep :=
            ← Toml.defaulted? Toml.float? fallback.fallbackLayerStep fallbackLayerStep
          stepPrecisionDigits :=
            ← Toml.defaulted? Toml.uint32? fallback.stepPrecisionDigits stepPrecisionDigits
          currentLayerSlack :=
            ← Toml.defaulted? Toml.float? fallback.currentLayerSlack currentLayerSlack
          cursorMode :=
            ← Toml.defaulted? CursorMode.ofToml? fallback.cursorMode cursorMode }
  | _ => none

namespace Config

/-- Read a configuration. -/
def ofToml? (toml : Toml) : Option Config :=
  match toml.record? names with
  | some [parser, viewer] => do
      some
        { parser := ← Toml.defaulted? ParserSettings.ofToml? {} parser
          viewer := ← Toml.defaulted? ViewerSettings.ofToml? {} viewer }
  | _ => none

/-- One setting on its line. -/
def tomlLine (key value : String) : String :=
  key ++ " = " ++ value ++ "\n"

/-- A word in quotes; letters and digits need no escapes. -/
def tomlQuoted (word : String) : String :=
  "\"" ++ word ++ "\""

/-- The text of a configuration in TOML. -/
def tomlText (config : Config) : String :=
  let parser := config.parser
  let viewer := config.viewer
  "[parser]\n"
    ++ tomlLine "family_prefix" (tomlQuoted parser.familyPrefix.toString)
    ++ tomlLine "allow_xyz_reset" (if parser.allowXyzReset then "true" else "false")
    ++ "\n[viewer]\n"
    ++ tomlLine "path_width" (NumberText.pointed viewer.pathWidth)
    ++ tomlLine "fallback_layer_step" (NumberText.pointed viewer.fallbackLayerStep)
    ++ tomlLine "step_precision_digits" (toString viewer.stepPrecisionDigits.toNat)
    ++ tomlLine "current_layer_slack" (NumberText.pointed viewer.currentLayerSlack)
    ++ tomlLine "cursor_mode" (tomlQuoted viewer.cursorMode.label)

/-- Read a configuration from its text in TOML. -/
def ofTomlText? (text : String) : Option Config :=
  (Toml.ofText? text).bind ofToml?

end Config

end LayerPlayback
