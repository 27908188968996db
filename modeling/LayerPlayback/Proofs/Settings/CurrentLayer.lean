import LayerPlayback.Proofs.Model.StepHistogram
import LayerPlayback.Proofs.Playback.CurrentLayer
import LayerPlayback.Proofs.Settings.Validation
import LayerPlayback.Proofs.Toolpath.Coherence

namespace LayerPlayback

/-!
# Valid configurations have a current layer at the top

Validation compares the slack with the fallback step only, not with the step that is
inferred from a text.  That is enough: the fallback exceeds the slack, and an inferred
step is large enough for half of it to be positive.  So the band of current layers is
never empty, and the layer at which a window ends is current.
-/

namespace Config

theorem isValid_iff {config : Config} : config.isValid = true ↔ config.KeepsRules := by
  rw [isValid, Option.isNone_iff_eq_none, problem?_eq_none_iff]

variable {config : Config}

/-- Neither of them is NaN, so a slack that does not reach the step is below it. -/
theorem KeepsRules.slack_lt (rules : config.KeepsRules) :
    config.viewer.currentLayerSlack < config.viewer.fallbackLayerStep := by
  obtain ⟨_, slackNumber, _⟩ := Binary64.le_iff.mp rules.slack
  obtain ⟨_, stepNumber, _⟩ := Binary64.lt_iff.mp rules.step
  refine Binary64.lt_iff.mpr ⟨slackNumber, stepNumber, not_le.mp fun notLess => ?_⟩
  exact rules.slackBelowStep (Binary64.le_iff.mpr ⟨stepNumber, slackNumber, notLess⟩)

/-- A slack that is below something is finite, as it is not negative. -/
theorem KeepsRules.isFinite_slack (rules : config.KeepsRules) :
    config.viewer.currentLayerSlack.isFinite = true := by
  obtain ⟨slackNumber, stepNumber, less⟩ := Binary64.lt_iff.mp rules.slack_lt
  have nonneg : 0 ≤ Binary64.value config.viewer.currentLayerSlack :=
    (Binary64.le_iff.mp rules.slack).2.2
  have stepAtMost := (Binary64.exists_canonical_abs_value stepNumber).1
  rw [Binary64.isFinite_iff, abs_of_nonneg nonneg]
  exact ⟨slackNumber, less.trans_le ((le_abs_self _).trans stepAtMost)⟩

/-- No more than six digits are allowed. -/
theorem KeepsRules.few_digits (rules : config.KeepsRules) :
    config.viewer.stepPrecisionDigits ≤ 6 :=
  UInt32.not_lt.mp rules.digits

/-- The step that a valid configuration infers is positive, and so is its band. -/
theorem KeepsRules.zero_lt_infer (rules : config.KeepsRules) (layers : List Layer) :
    0.0 < config.stepInference.infer layers ∧
      0.0 < (config.windowEngine (config.stepInference.infer layers)).currentBand := by
  rcases @StepInference.infer_inRange config.stepInference rules.few_digits layers
    with isFallback | ⟨finite, notTiny⟩
  · rw [isFallback]
    exact ⟨rules.step, WindowEngine.zero_lt_currentBand_of_slack_lt rules.slack_lt⟩
  · refine ⟨?_, WindowEngine.zero_lt_currentBand_of_step rules.isFinite_slack finite notTiny⟩
    exact Binary64.lt_iff.mpr
      ⟨rfl, Binary64.isNaN_of_isFinite finite, (zpow_pos two_pos _).trans_le notTiny⟩

end Config

namespace Toolpath

/-- A toolpath with a positive step, for which the layer at the end of a window is current. -/
structure KeepsCurrent (toolpath : Toolpath) : Prop where
  step : 0.0 < toolpath.layerStep
  /-- The layer at which a window ends is visible and current, at any progress. -/
  current :
    ∀ (cursor : ViewCursor) (index : Nat),
      cursor.window.Made →
        cursor.window.EndsAt toolpath.mode toolpath.model index →
          (toolpath.windowEngine.evaluate toolpath.model cursor).layers[index]? =
            some { layer := index, visible := true, current := true }

/-- Loading texts one after the other leaves the last one, with the inference of the settings. -/
theorem run_loads
    (config : Config)
    {actions : List ToolpathAction}
    (loads : ∀ action ∈ actions, action.inference? = none) :
    config.toolpath.run actions =
      config.toolpath.holding (ToolpathAction.lastText? actions) config.stepInference := by
  have keepsInference : ToolpathAction.lastInference? actions = none := by
    rw [ToolpathAction.lastInference?, List.filterMap_eq_nil_iff.mpr loads]
    rfl
  have reached :=
    run_holding config.toolpath config.stepInference actions fun _ _ _ _ same => same
  rw [keepsInference] at reached
  exact reached

/--
Whatever texts are loaded into the toolpath of a valid configuration, its step is
positive, and the layer at which a window ends is visible and current.
-/
theorem keepsCurrent_run
    {config : Config}
    (valid : config.isValid = true)
    {actions : List ToolpathAction}
    (loads : ∀ action ∈ actions, action.inference? = none)
    (loaded : (config.toolpath.run actions).isLoaded = true) :
    (config.toolpath.run actions).KeepsCurrent := by
  have rules := Config.isValid_iff.mp valid
  rw [run_loads config loads] at loaded ⊢
  cases lastText : ToolpathAction.lastText? actions with
  | none =>
      rw [lastText] at loaded
      cases loaded
  | some text =>
      obtain ⟨step, band⟩ :=
        rules.zero_lt_infer (build config.buildOptions text).model.layers.toList
      exact ⟨step, fun cursor index made endsAt =>
        WindowEngine.layers_evaluate_of_endsAt band made endsAt⟩

/-- Layers that are finer than the slack keep a current one. -/
theorem keepsCurrent_run_fineLayers :
    let config : Config := { viewer := { currentLayerSlack := 0.19 } }
    let actions : List ToolpathAction := [.load "G1 Z0.01\nG1 Z0.02\nG1 Z0.03"]
    let toolpath := config.toolpath.run actions
    let cursor : ViewCursor := .ofWindow (.between 0.0 0.02)
    (config.isValid = true ∧
        (∀ action ∈ actions, action.inference? = none) ∧ toolpath.isLoaded = true) ∧
      toolpath.KeepsCurrent ∧
      (toolpath.windowEngine.evaluate toolpath.model cursor).layers[2]? =
        some { layer := 2, visible := true, current := true } := by
  intro config actions toolpath cursor
  have valid : config.isValid = true := by decide +kernel
  have loads : ∀ action ∈ actions, action.inference? = none :=
    List.forall_mem_singleton.mpr rfl
  have loaded : toolpath.isLoaded = true := by decide +kernel
  have keeps : toolpath.KeepsCurrent := keepsCurrent_run valid loads loaded
  have made : cursor.window.Made := .between rfl rfl
  have endsAt : cursor.window.EndsAt toolpath.mode toolpath.model 2 := by decide +kernel
  exact ⟨⟨valid, loads, loaded⟩, keeps, keeps.current cursor 2 made endsAt⟩

end Toolpath

end LayerPlayback
