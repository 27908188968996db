import LayerPlayback.Proofs.Playback.CurrentLayer

namespace LayerPlayback

/-!
# Heights and indices select the same layers of a rising print

An engine tells layers apart when the key of a lower one lies outside the tolerance
and the band of a higher one.  Its window from the key of one layer to that of
another then selects the layers from the first to the last, and only the last is
current, so nothing in the frame depends on what the keys are.  Indices always tell
layers apart.
-/

namespace Model

theorem lt_layerCount_of_mem
    {model : Model}
    {entry : Layer × Nat}
    (member : entry ∈ model.indexedLayers) :
    entry.2 < model.layerCount :=
  (Array.getElem?_eq_some_iff.mp (mem_indexedLayers_iff.mp member)).1

/-- A layer of a model is determined by its index. -/
theorem eq_of_mem_indexedLayers
    {model : Model}
    {first second : Layer × Nat}
    (isFirst : first ∈ model.indexedLayers)
    (isSecond : second ∈ model.indexedLayers)
    (sameIndex : first.2 = second.2) :
    first = second := by
  have firstFound := mem_indexedLayers_iff.mp isFirst
  rw [sameIndex, mem_indexedLayers_iff.mp isSecond] at firstFound
  exact Prod.ext (Option.some.inj firstFound).symm sameIndex

end Model

namespace LayerWindow

/-- Bounds in the right order are kept as they are. -/
theorem between_of_le {lower upper : Float} (ordered : lower ≤ upper) :
    between lower upper = ⟨lower, upper⟩ := by
  obtain ⟨_, upperNumber, values⟩ := Binary64.le_iff.mp ordered
  have notLess : ¬ upper < lower := fun less => (Binary64.lt_iff.mp less).2.2.not_ge values
  rw [between, Binary64.larger, if_neg (Bool.eq_false_iff.mp upperNumber), if_neg notLess]

end LayerWindow

namespace WindowEngine

variable (engine : WindowEngine)

/-- One key lies below another one, outside the tolerance and the band around it. -/
structure TellsApart (below above : Float) : Prop where
  underLower : below < above - engine.tolerance
  overUpper : below + engine.tolerance < above
  outsideBand : engine.currentBand ≤ (below - above).abs

instance (below above : Float) : Decidable (engine.TellsApart below above) :=
  decidable_of_iff
    (below < above - engine.tolerance ∧
      below + engine.tolerance < above ∧ engine.currentBand ≤ (below - above).abs)
    ⟨fun ⟨underLower, overUpper, outsideBand⟩ => ⟨underLower, overUpper, outsideBand⟩,
      fun apart => ⟨apart.underLower, apart.overUpper, apart.outsideBand⟩⟩

/-- An engine with a positive band whose finite keys rise by enough to tell all layers apart. -/
structure Separates (model : Model) : Prop where
  band : 0.0 < engine.currentBand
  finite :
    ∀ entry ∈ model.indexedLayers, (engine.layerKey entry.1 entry.2).isFinite = true
  apart :
    ∀ below ∈ model.indexedLayers, ∀ above ∈ model.indexedLayers,
      below.2 < above.2 →
        engine.TellsApart (engine.layerKey below.1 below.2) (engine.layerKey above.1 above.2)

variable {engine} {model : Model}

/-- Heights that are told apart are in order. -/
theorem TellsApart.le {below above : Float} (apart : engine.TellsApart below above) :
    below ≤ above := by
  obtain ⟨belowNumber, _, under⟩ := Binary64.lt_iff.mp apart.underLower
  obtain ⟨_, aboveNumber, _⟩ := Binary64.lt_iff.mp apart.overUpper
  have shrunk : above - engine.tolerance ≤ above :=
    Binary64.sub_le aboveNumber engine.isFinite_tolerance engine.tolerance_nonneg
  exact Binary64.le_iff.mpr
    ⟨belowNumber, aboveNumber, under.le.trans (Binary64.le_iff.mp shrunk).2.2⟩

/-- The keys are ordered as the layers are. -/
theorem Separates.key_le
    (separates : engine.Separates model)
    {below above : Layer × Nat}
    (isBelow : below ∈ model.indexedLayers)
    (isAbove : above ∈ model.indexedLayers)
    (ordered : below.2 ≤ above.2) :
    engine.layerKey below.1 below.2 ≤ engine.layerKey above.1 above.2 := by
  rcases Nat.lt_or_eq_of_le ordered with less | same
  · exact (separates.apart below isBelow above isAbove less).le
  · rw [Model.eq_of_mem_indexedLayers isBelow isAbove same]
    exact Binary64.le_refl_of_number (Binary64.isNaN_of_isFinite (separates.finite above isAbove))

section Selection

variable
  (separates : engine.Separates model)
  {first last entry : Layer × Nat}
  (isFirst : first ∈ model.indexedLayers)
  (isLast : last ∈ model.indexedLayers)
  (member : entry ∈ model.indexedLayers)

include separates isFirst isLast member

/-- A window between two layers has the layers between them. -/
theorem Separates.inWindow_eq :
    engine.inWindow
        ⟨engine.layerKey first.1 first.2, engine.layerKey last.1 last.2⟩
        (engine.layerKey entry.1 entry.2) =
      decide (first.2 ≤ entry.2 ∧ entry.2 ≤ last.2) := by
  rw [Bool.eq_iff_iff, decide_eq_true_eq]
  constructor
  · intro visible
    unfold inWindow LayerWindow.containsWithin at visible
    rw [Bool.and_eq_true, decide_eq_true_eq, decide_eq_true_eq] at visible
    obtain ⟨_, _, above⟩ := Binary64.le_iff.mp visible.1
    obtain ⟨_, _, below⟩ := Binary64.le_iff.mp visible.2
    constructor
    · refine not_lt.mp fun before => ?_
      have apart := separates.apart entry member first isFirst before
      exact (Binary64.lt_iff.mp apart.underLower).2.2.not_ge above
    · refine not_lt.mp fun after => ?_
      have apart := separates.apart last isLast entry member after
      exact (Binary64.lt_iff.mp apart.overUpper).2.2.not_ge below
  · rintro ⟨above, below⟩
    exact engine.inWindow_of_between
      (separates.key_le isFirst member above) (separates.key_le member isLast below)

/-- Of a window between two layers, only the upper one is current. -/
theorem Separates.isCurrent_eq (ordered : first.2 ≤ last.2) :
    engine.isCurrent
        ⟨engine.layerKey first.1 first.2, engine.layerKey last.1 last.2⟩
        (engine.layerKey entry.1 entry.2) =
      decide (entry.2 = last.2) := by
  rw [Bool.eq_iff_iff, decide_eq_true_eq]
  constructor
  · intro current
    unfold isCurrent at current
    rw [separates.inWindow_eq isFirst isLast member, Bool.and_eq_true, decide_eq_true_eq,
      decide_eq_true_eq] at current
    obtain ⟨⟨_, notAfter⟩, inBand⟩ := current
    refine notAfter.eq_of_not_lt fun before => ?_
    have apart := separates.apart entry member last isLast before
    exact (Binary64.lt_iff.mp inBand).2.2.not_ge (Binary64.le_iff.mp apart.outsideBand).2.2
  · intro isTop
    have finite := separates.finite last isLast
    have same := Binary64.beq_self (Binary64.isNaN_of_isFinite finite)
    have keysOrdered := separates.key_le isFirst isLast ordered
    rw [Model.eq_of_mem_indexedLayers member isLast isTop]
    exact (@isCurrent_of_beq_upper engine ⟨_, _⟩ _ separates.band keysOrdered finite same).2

/-- A window between two keys selects by the indices of the layers, whatever their keys are. -/
theorem Separates.layerVisibility_eq (ordered : first.2 ≤ last.2) :
    engine.layerVisibility
        (.between (engine.layerKey first.1 first.2) (engine.layerKey last.1 last.2)) entry =
      { layer := entry.2
        visible := decide (first.2 ≤ entry.2 ∧ entry.2 ≤ last.2)
        current := decide (entry.2 = last.2) } := by
  rw [LayerWindow.between_of_le (separates.key_le isFirst isLast ordered)]
  simp only [layerVisibility, separates.inWindow_eq isFirst isLast member,
    separates.isCurrent_eq isFirst isLast member ordered]

end Selection

/-- A frame is made from what is decided about the layers and from what is revealed. -/
theorem evaluate_congr
    {first second : WindowEngine}
    {firstCursor secondCursor : ViewCursor}
    (revealed : firstCursor.revealed = secondCursor.revealed)
    (same :
      ∀ entry ∈ model.indexedLayers,
        first.layerVisibility firstCursor.window entry =
          second.layerVisibility secondCursor.window entry) :
    first.evaluate model firstCursor = second.evaluate model secondCursor := by
  have passes :
      ∀ start,
        model.indexedLayers.foldl (first.revealLayer firstCursor.window) start =
          model.indexedLayers.foldl (second.revealLayer secondCursor.window) start := by
    intro start
    refine List.foldl_ext _ _ _ fun reveal entry member => ?_
    simp only [revealLayer, same entry member]
  unfold evaluate
  rw [revealed, passes]

/-- Indices up to `2 ^ 53` are told apart. -/
theorem tellsApart_ofNat
    (byIndex : engine.mode = .layerIndex)
    {below above : Nat}
    (less : below < above)
    (small : above ≤ 2 ^ 53) :
    engine.TellsApart (Float.ofNat below) (Float.ofNat above) := by
  have values : Binary64.value (Float.ofNat below) < Binary64.value (Float.ofNat above) := by
    rw [Binary64.value_ofNat (less.le.trans small), Binary64.value_ofNat small]
    exact_mod_cast less
  have noTolerance : engine.tolerance = 0.0 := by rw [tolerance, byIndex]
  have halfBand : engine.currentBand = 0.5 := by rw [currentBand, byIndex]
  refine ⟨?_, ?_, ?_⟩
  · obtain ⟨number, _, same⟩ :=
      Binary64.beq_iff.mp (Binary64.sub_zero_beq (@Binary64.isFinite_ofNat above (by omega)))
    rw [noTolerance]
    exact Binary64.lt_iff.mpr ⟨Binary64.isNaN_ofNat below, number, values.trans_eq same.symm⟩
  · obtain ⟨number, _, same⟩ :=
      Binary64.beq_iff.mp (Binary64.add_zero_beq (@Binary64.isFinite_ofNat below (by omega)))
    rw [noTolerance]
    exact Binary64.lt_iff.mpr ⟨number, Binary64.isNaN_ofNat above, same.trans_lt values⟩
  · have half : (0.5 : Float) ≤ 1.0 := by decide +kernel
    rw [halfBand]
    exact Binary64.le_trans half (Binary64.one_le_abs_sub_ofNat less small)

/-- Indices tell the layers of a model apart that is small enough for them to be exact. -/
theorem separates_layerIndex
    (byIndex : engine.mode = .layerIndex)
    (exact : model.layerCount ≤ 2 ^ 53) :
    engine.Separates model where
  band := zero_lt_currentBand_layerIndex byIndex
  finite entry member := by
    have small := Model.lt_layerCount_of_mem member
    simp only [layerKey, byIndex]
    exact Binary64.isFinite_ofNat (by omega)
  apart below _ above isAbove less := by
    have small := Model.lt_layerCount_of_mem isAbove
    simp only [layerKey, byIndex]
    exact tellsApart_ofNat byIndex less (small.le.trans exact)

/--
An engine that tells layers apart by their heights and one that goes by their indices
make the same frame for a window from one layer to another, at any progress.
-/
theorem evaluate_eq_evaluate_layerIndex
    {heights indices : WindowEngine}
    (byHeight : heights.mode = .height)
    (byIndex : indices.mode = .layerIndex)
    (exact : model.layerCount ≤ 2 ^ 53)
    (separates : heights.Separates model)
    {first last : Nat}
    (ordered : first ≤ last)
    {lower upper : Layer}
    (isLower : model.layers[first]? = some lower)
    (isUpper : model.layers[last]? = some upper)
    (progress : Float)
    (progressMax : Nat) :
    heights.evaluate model ⟨.between lower.z upper.z, progress, progressMax⟩ =
      indices.evaluate model
        ⟨.between (Float.ofNat first) (Float.ofNat last), progress, progressMax⟩ := by
  have isFirst : (lower, first) ∈ model.indexedLayers := Model.mem_indexedLayers_iff.mpr isLower
  have isLast : (upper, last) ∈ model.indexedLayers := Model.mem_indexedLayers_iff.mpr isUpper
  refine evaluate_congr rfl fun entry member => ?_
  have atHeights := separates.layerVisibility_eq isFirst isLast member ordered
  have atIndices :=
    (separates_layerIndex byIndex exact).layerVisibility_eq isFirst isLast member ordered
  simp only [layerKey, byHeight] at atHeights
  simp only [layerKey, byIndex] at atIndices
  exact atHeights.trans atIndices.symm

/-- Half of the third layer of a built print is revealed, by its height or by its index. -/
theorem evaluate_eq_evaluate_layerIndex_thirdLayer :
    let heights : WindowEngine := { mode := .height, step := 0.2, slack := 0.05 }
    let indices : WindowEngine := { mode := .layerIndex }
    let model := (build {} "G1 X1 E1\nG1 Z0.2\nG1 X2 E2\nG1 Z0.4\nG1 X1 E3").model
    (heights.mode = .height ∧ indices.mode = .layerIndex ∧ model.layerCount ≤ 2 ^ 53) ∧
      heights.Separates model ∧
      ∃ lower upper,
        model.layers[1]? = some lower ∧
          model.layers[2]? = some upper ∧
          heights.evaluate model ⟨.between lower.z upper.z, 1.0, 2⟩ =
            indices.evaluate model ⟨.between (Float.ofNat 1) (Float.ofNat 2), 1.0, 2⟩ ∧
          (heights.evaluate model ⟨.between lower.z upper.z, 1.0, 2⟩).currentLayers = [2] := by
  intro heights indices model
  have exact : model.layerCount ≤ 2 ^ 53 := by decide +kernel
  have separates : heights.Separates model :=
    ⟨by decide +kernel, by decide +kernel, by decide +kernel⟩
  have inModel : 2 < model.layers.size := by decide +kernel
  have isLower := Array.getElem?_eq_getElem (Nat.lt_of_succ_lt inModel)
  have isUpper := Array.getElem?_eq_getElem inModel
  have byHeight : heights.mode = .height := rfl
  have byIndex : indices.mode = .layerIndex := rfl
  have ordered : 1 ≤ 2 := one_le_two
  have same :=
    evaluate_eq_evaluate_layerIndex byHeight byIndex exact separates ordered isLower isUpper 1.0 2
  refine ⟨⟨byHeight, byIndex, exact⟩, separates, _, _, isLower, isUpper, same, ?_⟩
  rw [same]
  decide +kernel

end WindowEngine

end LayerPlayback
