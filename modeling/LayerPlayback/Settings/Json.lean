import LayerPlayback.Codec.Playback
import LayerPlayback.Json.Reader
import LayerPlayback.Json.Writer
import LayerPlayback.Settings.Config

namespace LayerPlayback

/-!
# The JSON form of a configuration

Every section and every setting may be missing and then has its default.
-/

/-- Parser settings in JSON. -/
def ParserSettings.toJson (settings : ParserSettings) : Json :=
  .object
    [ ("family_prefix", .ofChar settings.familyPrefix),
      ("allow_xyz_reset", .bool settings.allowXyzReset) ]

/-- Read parser settings. -/
def ParserSettings.ofJson? (json : Json) : Option ParserSettings :=
  let fallback : ParserSettings := {}
  match json.openRecord? names with
  | some [familyPrefix, allowXyzReset] => do
      some
        { familyPrefix :=
            ← Json.defaulted? Json.char? fallback.familyPrefix familyPrefix
          allowXyzReset :=
            ← Json.defaulted? Json.bool? fallback.allowXyzReset allowXyzReset }
  | _ => none

/-- Viewer settings in JSON. -/
def ViewerSettings.toJson (settings : ViewerSettings) : Json :=
  .object
    [ ("path_width", .ofFloat settings.pathWidth),
      ("fallback_layer_step", .ofFloat settings.fallbackLayerStep),
      ("step_precision_digits", .ofNat settings.stepPrecisionDigits.toNat),
      ("current_layer_slack", .ofFloat settings.currentLayerSlack),
      ("cursor_mode", settings.cursorMode.toJson) ]

/-- Read viewer settings. -/
def ViewerSettings.ofJson? (json : Json) : Option ViewerSettings :=
  let fallback : ViewerSettings := {}
  match json.openRecord? names with
  | some [pathWidth, fallbackLayerStep, stepPrecisionDigits, currentLayerSlack, cursorMode] => do
      some
        { pathWidth := ← Json.defaulted? Json.float? fallback.pathWidth pathWidth
          fallbackLayerStep :=
            ← Json.defaulted? Json.float? fallback.fallbackLayerStep fallbackLayerStep
          stepPrecisionDigits :=
            ← Json.defaulted? Json.uint32? fallback.stepPrecisionDigits stepPrecisionDigits
          currentLayerSlack :=
            ← Json.defaulted? Json.float? fallback.currentLayerSlack currentLayerSlack
          cursorMode :=
            ← Json.defaulted? CursorMode.ofJson? fallback.cursorMode cursorMode }
  | _ => none

namespace Config

/-- A configuration in JSON. -/
def toJson (config : Config) : Json :=
  .object [("parser", config.parser.toJson), ("viewer", config.viewer.toJson)]

/-- Read a configuration. -/
def ofJson? (json : Json) : Option Config :=
  match json.openRecord? names with
  | some [parser, viewer] => do
      some
        { parser := ← Json.defaulted? ParserSettings.ofJson? {} parser
          viewer := ← Json.defaulted? ViewerSettings.ofJson? {} viewer }
  | _ => none

/-- The text of a configuration in JSON. -/
def jsonText (config : Config) : String :=
  config.toJson.indentedText

/-- Read a configuration from its text in JSON. -/
def ofJsonText? (text : String) : Option Config :=
  (Json.ofText? text).bind ofJson?

end Config

end LayerPlayback
