import LayerPlayback.Toolpath

namespace LayerPlayback

/-!
# Configuration

A configuration has a section for the interpretation of programs and one for their
playback.  Together they give the options of builds, engines, and toolpaths.
-/

/-- How program text is interpreted. -/
structure ParserSettings where
  /-- The family of commands that are interpreted, in either case. -/
  familyPrefix : Char := Decoder.defaultFamily
  /-- Whether a set-position command may name axes other than the extruder axis. -/
  allowXyzReset : Bool := true
  deriving Repr, BEq

/-- How models are made and played back. -/
structure ViewerSettings where
  /-- The nominal line width. -/
  pathWidth : Float := Model.defaultPathWidth
  /-- The layer step when none can be inferred. -/
  fallbackLayerStep : Float := 0.2
  /-- The decimal digits that are kept of a height difference. -/
  stepPrecisionDigits : UInt32 := 2
  /-- How much the band of current layers is narrower than a step. -/
  currentLayerSlack : Float := 0.05
  cursorMode : CursorMode := .height
  deriving Repr, BEq

/-- All settings. -/
structure Config where
  parser : ParserSettings := {}
  viewer : ViewerSettings := {}
  deriving Repr, BEq

/-- The names of the parser settings in files. -/
def ParserSettings.names : List String :=
  ["family_prefix", "allow_xyz_reset"]

/-- The names of the viewer settings in files. -/
def ViewerSettings.names : List String :=
  [ "path_width", "fallback_layer_step", "step_precision_digits",
    "current_layer_slack", "cursor_mode" ]

namespace Config

/-- The names of the sections in files. -/
def names : List String :=
  ["parser", "viewer"]

/-- The options of builds. -/
def buildOptions (config : Config) : BuildOptions :=
  { familyPrefix := config.parser.familyPrefix.toUpper
    allowXyzReset := config.parser.allowXyzReset
    pathWidth := config.viewer.pathWidth }

/-- How the layer step is inferred. -/
def stepInference (config : Config) : StepInference :=
  { precisionDigits := config.viewer.stepPrecisionDigits
    fallbackStep := config.viewer.fallbackLayerStep }

/-- The engine for models with a layer step. -/
def windowEngine (config : Config) (step : Float) : WindowEngine :=
  { mode := config.viewer.cursorMode
    step := step
    slack := config.viewer.currentLayerSlack }

/-- A toolpath without program text. -/
def toolpath (config : Config) : Toolpath :=
  { options := config.buildOptions
    inference := config.stepInference
    mode := config.viewer.cursorMode
    slack := config.viewer.currentLayerSlack }

end Config

end LayerPlayback
