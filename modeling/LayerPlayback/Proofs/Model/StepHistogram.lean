import LayerPlayback.Proofs.Model.ModalStep

namespace LayerPlayback

/-!
# Inferred layer steps are positive

A histogram counts positive differences only, as whole numbers of units, and there are
at most a million units to a height of one.  So a step that is inferred from heights is
a finite double well above zero, however close together the heights are.
-/

namespace StepHistogram

/-- The buckets of a histogram are those of the differences between its heights. -/
theorem mem_differences_of_mem_buckets
    {precisionDigits : UInt32}
    {heights : List Float}
    {bucket : Nat × Nat}
    (member : bucket ∈ (ofHeights precisionDigits heights).buckets) :
    bucket.1 ∈ differences (scaleOf precisionDigits) heights := by
  rw [buckets_ofHeights] at member
  obtain ⟨difference, distinct, rfl⟩ := List.mem_map.mp member
  exact List.mem_eraseDups.mp distinct

/-- A number of units fits into a signed 64-bit integer. -/
theorem units_lt (scale below above : Float) : units scale below above < 2 ^ 63 := by
  have atMost := Binary64.nearestInt64_le ((above - below) * scale)
  have greatest : Binary64.greatestInt64 = 2 ^ 63 - 1 := by decide
  unfold units
  omega

theorem inRange_of_mem_differences
    {scale : Float}
    {heights : List Float}
    {difference : Nat}
    (member : difference ∈ differences scale heights) :
    0 < difference ∧ difference < 2 ^ 63 := by
  obtain ⟨isDifference, positive⟩ := List.mem_filter.mp member
  rw [← List.map_uncurry_zip_eq_zipWith] at isDifference
  obtain ⟨⟨below, above⟩, _, rfl⟩ := List.mem_map.mp isDifference
  exact ⟨of_decide_eq_true positive, units_lt scale below above⟩

/-- With up to six digits, the scale is one of the powers of ten up to a million. -/
theorem value_scaleOf_inRange {precisionDigits : UInt32} (few : precisionDigits ≤ 6) :
    (scaleOf precisionDigits).isFinite = true ∧
      1 ≤ Binary64.value (scaleOf precisionDigits) ∧
        Binary64.value (scaleOf precisionDigits) ≤ 2 ^ 20 := by
  have bounds : (1.0 : Float) ≤ scaleOf precisionDigits ∧
      scaleOf precisionDigits ≤ Float.ofNat (2 ^ 20) := by
    have small : precisionDigits.toNat ≤ 6 := UInt32.le_iff_toNat_le.mp few
    rw [← UInt32.ofNat_toNat (x := precisionDigits)]
    generalize precisionDigits.toNat = digits at small
    interval_cases digits <;> decide +kernel
  obtain ⟨_, number, atLeast⟩ := Binary64.le_iff.mp bounds.1
  obtain ⟨_, _, atMost⟩ := Binary64.le_iff.mp bounds.2
  rw [Binary64.value_one] at atLeast
  rw [Binary64.value_ofNat (by norm_num), Nat.cast_pow, Nat.cast_ofNat] at atMost
  refine ⟨Binary64.isFinite_iff.mpr ⟨number, ?_⟩, atLeast, atMost⟩
  rw [abs_of_pos (zero_lt_one.trans_le atLeast)]
  exact atMost.trans_lt (pow_lt_pow_right₀ (by norm_num) (by norm_num))

/--
With up to six digits, differences of finite heights are rounded to their nearest integers,
halves away from zero, and cut to 64 bits: none of them is NaN, not even an infinite one.
-/
theorem roundedDifferences_sortedHeights
    {precisionDigits : UInt32}
    (few : precisionDigits ≤ 6)
    (heights : List Float) :
    roundedDifferences (scaleOf precisionDigits) (sortedHeights heights) =
      List.zipWith
        (fun below above =>
          max Binary64.leastInt64
            (min Binary64.greatestInt64
              (Binary64.awayFromZero
                (Binary64.value ((above - below) * scaleOf precisionDigits)))))
        (sortedHeights heights) (sortedHeights heights).tail := by
  obtain ⟨finite, atLeast, _⟩ := value_scaleOf_inRange few
  rw [roundedDifferences, ← List.map_uncurry_zip_eq_zipWith, ← List.map_uncurry_zip_eq_zipWith]
  refine List.map_congr_left ?_
  rintro ⟨below, above⟩ member
  obtain ⟨isBelow, isAbove⟩ := List.of_mem_zip member
  have belowFinite := isFinite_of_mem_sortedHeights isBelow
  have aboveFinite := isFinite_of_mem_sortedHeights (List.mem_of_mem_tail isAbove)
  have difference : (above - below).isNaN = false :=
    Binary64.isNaN_sub (Binary64.isNaN_of_isFinite aboveFinite)
      (Binary64.isNaN_of_isFinite belowFinite) (.inl aboveFinite)
  exact Binary64.nearestInt64_eq
    (Binary64.isNaN_mul difference finite (zero_lt_one.trans_le atLeast).ne')

/-- A positive number of units is a step that is neither infinite nor close to zero. -/
theorem stepOf_inRange
    {histogram : StepHistogram}
    {units : Nat}
    (finite : histogram.scale.isFinite = true)
    (atLeast : 1 ≤ Binary64.value histogram.scale)
    (atMost : Binary64.value histogram.scale ≤ 2 ^ 20)
    (positive : 0 < units)
    (fits : units < 2 ^ 63) :
    (histogram.stepOf units).isFinite = true ∧
      2 ^ (-20 : Int) ≤ Binary64.value (histogram.stepOf units) := by
  have scalePositive : 0 < Binary64.value histogram.scale := zero_lt_one.trans_le atLeast
  have oneUnit : 1 ≤ Binary64.value (Float.ofNat units) := Binary64.one_le_value_ofNat positive
  have unitsAtMost : Binary64.value (Float.ofNat units) ≤ 2 ^ (63 : Int) :=
    (Binary64.rounds_ofNat units).le_two_pow (by norm_num) (by norm_num)
      (by exact_mod_cast fits.le)
  have rounds :=
    Binary64.rounds_div (Binary64.isFinite_ofNat (fits.trans (by norm_num))) finite
      scalePositive.ne'
  have lower : 2 ^ (-20 : Int) ≤ Binary64.value (histogram.stepOf units) := by
    refine rounds.two_pow_le (by norm_num) (by norm_num) ?_
    rw [le_div_iff₀ scalePositive]
    calc
      (2 : ℚ) ^ (-20 : Int) * Binary64.value histogram.scale ≤ 2 ^ (-20 : Int) * 2 ^ 20 := by
        gcongr
      _ = 1 := by norm_num
      _ ≤ Binary64.value (Float.ofNat units) := oneUnit
  have upper : Binary64.value (histogram.stepOf units) ≤ 2 ^ (63 : Int) := by
    refine rounds.le_two_pow (by norm_num) (by norm_num) ?_
    exact (div_le_self (zero_le_one.trans oneUnit) atLeast).trans unitsAtMost
  refine ⟨Binary64.isFinite_iff.mpr ⟨rounds.number, ?_⟩, lower⟩
  rw [abs_of_pos ((zpow_pos two_pos _).trans_le lower)]
  exact upper.trans_lt (pow_lt_pow_right₀ (by norm_num) (by norm_num : 63 < 1024))

/-- A most frequent step is neither infinite nor close to zero. -/
theorem modalStep?_inRange
    {precisionDigits : UInt32}
    (few : precisionDigits ≤ 6)
    {heights : List Float}
    {step : Float}
    (modal : (ofHeights precisionDigits heights).modalStep? = some step) :
    step.isFinite = true ∧ 2 ^ (-20 : Int) ≤ Binary64.value step := by
  obtain ⟨bucket, isModal, rfl⟩ := Option.map_eq_some_iff.mp modal
  have counted := mem_differences_of_mem_buckets (isEarliestMode_modalBucket? isModal).mem
  obtain ⟨positive, fits⟩ := inRange_of_mem_differences counted
  obtain ⟨finite, atLeast, atMost⟩ := value_scaleOf_inRange few
  rw [← scale_ofHeights precisionDigits heights] at finite atLeast atMost
  exact stepOf_inRange finite atLeast atMost positive fits

end StepHistogram

/-- An inferred step is the fallback, or a finite double well above zero. -/
theorem StepInference.infer_inRange
    {inference : StepInference}
    (few : inference.precisionDigits ≤ 6)
    (layers : List Layer) :
    inference.infer layers = inference.fallbackStep ∨
      (inference.infer layers).isFinite = true ∧
        2 ^ (-20 : Int) ≤ Binary64.value (inference.infer layers) := by
  unfold infer StepHistogram.stepOr
  cases modal : (StepHistogram.ofLayers inference.precisionDigits layers).modalStep? with
  | none => exact .inl rfl
  | some step => exact .inr (StepHistogram.modalStep?_inRange few modal)

end LayerPlayback
