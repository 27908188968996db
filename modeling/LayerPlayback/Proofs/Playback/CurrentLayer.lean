import LayerPlayback.Proofs.Number.Difference
import LayerPlayback.Proofs.Playback.FullReveal

namespace LayerPlayback

/-!
# The layer at the upper bound is current

A key that equals the upper bound of a window is at no distance from it, so its layer
is current as soon as the band is positive.  A step that is larger than the slack
leaves a positive difference, and half of a step that is not close to zero is
positive; either is enough for the band.
-/

namespace LayerWindow

/-- The windows that callers make: two bounds, each moved any number of times. -/
inductive Made : LayerWindow → Prop where
  | between
      {lower upper : Float}
      (lowerNumber : lower.isNaN = false)
      (upperNumber : upper.isNaN = false) :
      Made (.between lower upper)
  | setLower
      {window : LayerWindow}
      {value : Float}
      (made : Made window)
      (number : value.isNaN = false) :
      Made (window.setLower value)
  | setUpper
      {window : LayerWindow}
      {value : Float}
      (made : Made window)
      (number : value.isNaN = false) :
      Made (window.setUpper value)

theorem Made.ordered {window : LayerWindow} (made : window.Made) :
    window.lower ≤ window.upper := by
  induction made with
  | between lowerNumber upperNumber => exact ordered_between lowerNumber upperNumber
  | setLower _ number ordered => exact ordered_setLower ordered number
  | setUpper _ number ordered => exact ordered_setUpper ordered number

/--
Whether a window ends exactly at a layer: at its finite height, or at its index in a
model that is small enough for indices to be exact.
-/
def EndsAt (window : LayerWindow) (mode : CursorMode) (model : Model) (index : Nat) : Prop :=
  ∃ layer ∈ model.layers[index]?,
    match mode with
    | .height => layer.z.isFinite = true ∧ (window.upper == layer.z) = true
    | .layerIndex => model.layerCount ≤ 2 ^ 53 ∧ (window.upper == Float.ofNat index) = true

instance (window : LayerWindow) (mode : CursorMode) (model : Model) (index : Nat) :
    Decidable (window.EndsAt mode model index) :=
  match mode with
  | .height =>
      inferInstanceAs
        (Decidable
          (∃ layer ∈ model.layers[index]?,
            layer.z.isFinite = true ∧ (window.upper == layer.z) = true))
  | .layerIndex =>
      inferInstanceAs
        (Decidable
          (∃ layer ∈ model.layers[index]?,
            model.layerCount ≤ 2 ^ 53 ∧ (window.upper == Float.ofNat index) = true))

end LayerWindow

namespace WindowEngine

variable {engine : WindowEngine}

theorem zero_lt_currentBand_layerIndex (byIndex : engine.mode = .layerIndex) :
    0.0 < engine.currentBand := by
  unfold currentBand
  rw [byIndex]
  change (0.0 : Float) < 0.5
  decide +kernel

/-- A step that is larger than the slack leaves a positive band, however small it is. -/
theorem zero_lt_currentBand_of_slack_lt (slackLess : engine.slack < engine.step) :
    0.0 < engine.currentBand := by
  cases byMode : engine.mode with
  | layerIndex => exact zero_lt_currentBand_layerIndex byMode
  | height =>
      obtain ⟨_, number, positive⟩ :=
        Binary64.lt_iff.mp (Binary64.zero_lt_sub_iff.mpr slackLess)
      have atLeast : engine.step - engine.slack ≤ Binary64.larger _ (engine.step / 2.0) :=
        Binary64.left_le_larger number
      obtain ⟨_, bandNumber, atLeast⟩ := Binary64.le_iff.mp atLeast
      unfold currentBand
      rw [byMode]
      exact Binary64.lt_iff.mpr ⟨rfl, bandNumber, positive.trans_le atLeast⟩

/-- Half of a step that is not close to zero is a positive band, whatever the slack. -/
theorem zero_lt_currentBand_of_step
    (slackFinite : engine.slack.isFinite = true)
    (stepFinite : engine.step.isFinite = true)
    (notTiny : 2 ^ (-20 : Int) ≤ Binary64.value engine.step) :
    0.0 < engine.currentBand := by
  cases byMode : engine.mode with
  | layerIndex => exact zero_lt_currentBand_layerIndex byMode
  | height =>
      have number : (engine.step - engine.slack).isNaN = false :=
        Binary64.isNaN_sub (Binary64.isNaN_of_isFinite stepFinite)
          (Binary64.isNaN_of_isFinite slackFinite) (.inl stepFinite)
      have isTwo : Binary64.value 2.0 = 2 := @Binary64.value_ofNat 2 (by norm_num)
      have rounds := Binary64.rounds_div stepFinite (y := 2.0) rfl (by rw [isTwo]; norm_num)
      rw [isTwo] at rounds
      have half : 2 ^ (-21 : Int) ≤ Binary64.value (engine.step / 2.0) := by
        refine rounds.two_pow_le (by norm_num) (by norm_num) ?_
        rw [le_div_iff₀ two_pos]
        exact (by norm_num : (2 : ℚ) ^ (-21 : Int) * 2 = 2 ^ (-20 : Int)).trans_le notTiny
      obtain ⟨_, bandNumber, atLeast⟩ :=
        Binary64.le_iff.mp (Binary64.right_le_larger number rounds.number)
      unfold currentBand
      rw [byMode]
      exact Binary64.lt_iff.mpr
        ⟨rfl, bandNumber, (zpow_pos two_pos _).trans_le (half.trans atLeast)⟩

/-- With a positive band, a key at the upper bound is in the window and current. -/
theorem isCurrent_of_beq_upper
    {window : LayerWindow}
    {key : Float}
    (band : 0.0 < engine.currentBand)
    (ordered : window.lower ≤ window.upper)
    (finite : key.isFinite = true)
    (atUpper : (window.upper == key) = true) :
    engine.inWindow window key = true ∧ engine.isCurrent window key = true := by
  have visible : engine.inWindow window key = true :=
    engine.inWindow_of_between (Binary64.le_trans ordered (Binary64.le_of_beq atUpper))
      (Binary64.le_of_beq (BEq.symm atUpper))
  obtain ⟨number, isZero⟩ := Binary64.value_abs_sub_eq_zero finite (BEq.symm atUpper)
  obtain ⟨_, bandNumber, positive⟩ := Binary64.lt_iff.mp band
  refine ⟨visible, ?_⟩
  unfold isCurrent
  rw [visible, Bool.true_and, decide_eq_true_eq]
  exact Binary64.lt_iff.mpr ⟨number, bandNumber, isZero ▸ positive⟩

/-- With a positive band, the layer at which a window ends is visible and current. -/
theorem layers_evaluate_of_endsAt
    {model : Model}
    {cursor : ViewCursor}
    {index : Nat}
    (band : 0.0 < engine.currentBand)
    (made : cursor.window.Made)
    (endsAt : cursor.window.EndsAt engine.mode model index) :
    (engine.evaluate model cursor).layers[index]? = some ⟨index, true, true⟩ := by
  obtain ⟨layer, isLayer, atUpper⟩ := endsAt
  have found : model.indexedLayers[index]? = some (layer, index) := by
    rw [Model.indexedLayers, List.getElem?_zipIdx, Array.getElem?_toList,
      Option.mem_def.mp isLayer, Option.map_some, Nat.zero_add]
  -- Whatever the mode, the key of the layer is finite and equal to the upper bound.
  have keyAtUpper :
      (engine.layerKey layer index).isFinite = true ∧
        (cursor.window.upper == engine.layerKey layer index) = true := by
    unfold layerKey
    cases byMode : engine.mode with
    | height =>
        rw [byMode] at atUpper
        exact atUpper
    | layerIndex =>
        rw [byMode] at atUpper
        obtain ⟨inModel, _⟩ := Array.getElem?_eq_some_iff.mp (Option.mem_def.mp isLayer)
        have fits : index < 2 ^ 64 :=
          inModel.trans_le (atUpper.1.trans (by norm_num))
        exact ⟨Binary64.isFinite_ofNat fits, atUpper.2⟩
  have current := isCurrent_of_beq_upper band made.ordered keyAtUpper.1 keyAtUpper.2
  rw [evaluate_eq, List.getElem?_toArray, List.getElem?_map, found]
  simp only [Option.map_some, layerVisibility, current]

end WindowEngine

end LayerPlayback
