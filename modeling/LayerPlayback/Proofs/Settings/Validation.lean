import LayerPlayback.Settings.Validation
import LayerPlayback.Proofs.Number.Packing

namespace LayerPlayback.Config

/-!
# What a valid configuration keeps to

A configuration has no problem exactly when it keeps to every rule.
-/

open Binary64

/-- The rules for configurations. -/
structure KeepsRules (config : Config) : Prop where
  family : config.parser.familyPrefix.isAlpha = true
  width : 0.0 < config.viewer.pathWidth
  step : 0.0 < config.viewer.fallbackLayerStep
  slack : 0.0 ≤ config.viewer.currentLayerSlack
  slackBelowStep : ¬ config.viewer.fallbackLayerStep ≤ config.viewer.currentLayerSlack
  digits : ¬ greatestPrecisionDigits < config.viewer.stepPrecisionDigits

/--
The checks are made one after the other, and no problem is left exactly when all rules are
kept.
-/
theorem problem?_eq_none_iff {config : Config} :
    config.problem? = none ↔ config.KeepsRules := by
  unfold problem?
  constructor
  · intro noProblem
    grind [KeepsRules]
  · rintro ⟨family, width, step, slack, slackBelowStep, digits⟩
    simp [family, width, step, slack, slackBelowStep, digits]

/-- A configuration that is accepted is not changed on the way. -/
theorem validated_eq_ok_iff {config valid : Config} :
    config.validated = .ok valid ↔ config = valid ∧ config.KeepsRules := by
  rw [← problem?_eq_none_iff]
  unfold validated
  cases config.problem? <;> simp

end LayerPlayback.Config
