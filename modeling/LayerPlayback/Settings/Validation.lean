import LayerPlayback.Settings.Config
import LayerPlayback.Settings.Error

namespace LayerPlayback.Config

/-!
# Valid configurations

A configuration is valid when the family is an ASCII letter, the path width and
the fallback step are positive, the slack lies between zero and the fallback step,
and few enough digits are kept.  The first violated rule is reported; NaN violates
every rule that it comes under.
-/

/-- The most digits that may be kept of a height difference. -/
def greatestPrecisionDigits : UInt32 := 6

/-- The first rule that a configuration violates. -/
def problem? (config : Config) : Option SettingsError :=
  let viewer := config.viewer
  if !config.parser.familyPrefix.isAlpha then
    some (.invalidSetting "parser.family_prefix" "must be an ASCII letter")
  else if !(0.0 < viewer.pathWidth) then
    some (.invalidSetting "viewer.path_width" "must be > 0")
  else if !(0.0 < viewer.fallbackLayerStep) then
    some (.invalidSetting "viewer.fallback_layer_step" "must be > 0")
  else if !(0.0 ≤ viewer.currentLayerSlack) then
    some (.invalidSetting "viewer.current_layer_slack" "must be >= 0")
  else if viewer.fallbackLayerStep ≤ viewer.currentLayerSlack then
    some
      (.invalidSetting
        "viewer.current_layer_slack"
        "must be smaller than the fallback layer step")
  else if greatestPrecisionDigits < viewer.stepPrecisionDigits then
    some
      (.invalidSetting
        "viewer.step_precision_digits"
        s!"must be <= {greatestPrecisionDigits}")
  else
    none

/-- Whether a configuration violates no rule. -/
def isValid (config : Config) : Bool :=
  config.problem?.isNone

/-- A configuration that is valid, or the rule that it violates. -/
def validated (config : Config) : Except SettingsError Config :=
  match config.problem? with
  | some problem => .error problem
  | none => .ok config

end LayerPlayback.Config
