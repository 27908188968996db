import LayerPlayback.Number.Decimal
import LayerPlayback.Proofs.Number.Arithmetic
import LayerPlayback.Proofs.Number.Packing

namespace LayerPlayback.Binary64

/-!
# Decimals and natural numbers as doubles

The double nearest to a decimal is its value, rounded.  Natural numbers up to
`2 ^ 53` are exact, and the whole units of a double are the natural number below it.
-/

open Float.Model
open Float.Model.UnpackedFloat (Sign ExtendedMantissa)

/-! ## Natural numbers -/

/-- Every canonical size up to the greatest exponent is a double. -/
theorem exists_value_eq_scaled
    {mantissa : Nat}
    {exponent : Int}
    (canonical : IsCanonical mantissa exponent)
    (inRange : exponent ≤ 971) :
    ∃ x : Float, x.isNaN = false ∧ value x = scaled mantissa exponent := by
  rcases Nat.eq_zero_or_pos mantissa with rfl | positive
  · refine ⟨0.0, rfl, ?_⟩
    rw [scaled, Nat.cast_zero, zero_mul]
    rfl
  · have unpacks := Unpacked.unpack_pack_finite .positive positive canonical inRange
    refine ⟨.ofModel (.pack (.finite .positive mantissa exponent positive)),
      (Unpacked.isNaN_pack _).trans rfl, ?_⟩
    change Unpacked.value (Float.Model.pack _).unpack = _
    rw [unpacks, Unpacked.value, signFactor, one_mul]

/-- Up to `2 ^ 53` a count of units is a double; of the greatest unit the last one is infinity. -/
theorem exists_value_eq_units
    {count : Nat}
    (small : count ≤ 2 ^ 53)
    {unit : Int}
    (least : -1074 ≤ unit)
    (greatest : unit ≤ 971) :
    ∃ x : Float, x.isNaN = false ∧ value x = scaled count unit := by
  rcases small.lt_or_eq with fits | isGreatest
  · rcases Nat.eq_zero_or_pos count with rfl | positive
    · exact ⟨0.0, rfl, by rw [scaled, Nat.cast_zero, zero_mul]; rfl⟩
    · -- The bits that are free are filled, as far as the unit can be lowered.
      have log : count.log2 ≤ 52 := Unpacked.log2_le_of_lt fits
      obtain ⟨free, isFree⟩ : ∃ free, min (52 - count.log2) (unit + 1074).toNat = free := ⟨_, rfl⟩
      have bits : (count * 2 ^ free).log2 = count.log2 + free :=
        Unpacked.log2_mul_two_pow positive free
      have bounds := (Nat.log2_eq_iff (by positivity)).mp bits
      have below : count * 2 ^ free < 2 ^ 53 :=
        bounds.2.trans_le (Nat.pow_le_pow_right (by norm_num) (by omega))
      have full : 2 ^ 52 ≤ count * 2 ^ free ∨ unit - free = -1074 := by
        by_cases filled : free = 52 - count.log2
        · have place : count.log2 + free = 52 := by omega
          exact .inl (place ▸ bounds.1)
        · exact .inr (by omega)
      have same : scaled (count * 2 ^ free) (unit - free) = scaled count unit := by
        rw [scaled_mul_two_pow, sub_add_cancel]
      rw [← same]
      exact exists_value_eq_scaled ⟨below, by omega, full⟩ (by omega)
  · have doubled : scaled count unit = scaled (2 ^ 52) (unit + 1) :=
      isGreatest ▸ scaled_mul_two_pow (2 ^ 52) 1 unit
    rw [doubled]
    rcases greatest.lt_or_eq with inRange | isLast
    · exact exists_value_eq_scaled ⟨by norm_num, by omega, .inl le_rfl⟩ (by omega)
    · refine ⟨infinity, rfl, ?_⟩
      rw [isLast]
      exact (one_mul _).trans infinityValue_eq_scaled

theorem exists_value_eq_natCast {count : Nat} (small : count ≤ 2 ^ 53) :
    ∃ x : Float, x.isNaN = false ∧ value x = count := by
  have same : scaled count 0 = count := by simp [scaled]
  rw [← same]
  exact exists_value_eq_units small (by norm_num) (by norm_num)

theorem isNaN_zero : (0.0 : Float).isNaN = false :=
  rfl

theorem value_one : value 1.0 = 1 := by
  have unpacks : (1.0 : Float).toModel.unpack = .finite .positive (2 ^ 52) (-52) (by decide) :=
    rfl
  rw [value, unpacks, Unpacked.value]
  norm_num [signFactor, scaled]

theorem isNaN_one : (1.0 : Float).isNaN = false :=
  rfl

theorem isFinite_one : (1.0 : Float).isFinite = true :=
  rfl

/-- Counts of 64 bits are far from an infinity. -/
theorem isFinite_of_value_eq_natCast
    {x : Float}
    {count : Nat}
    (number : x.isNaN = false)
    (same : value x = count)
    (fits : count < 2 ^ 64) :
    x.isFinite = true := by
  have beyond : (count : ℚ) < infinityValue := by
    have castFits : (count : ℚ) < 2 ^ 64 := by exact_mod_cast fits
    exact castFits.trans (pow_lt_pow_right₀ (by norm_num) (by norm_num))
  rw [isFinite_iff, same, abs_of_nonneg (Nat.cast_nonneg count)]
  exact ⟨number, beyond⟩

/-- A machine word up to `2 ^ 53` is exact as a double. -/
theorem value_toFloat {count : Nat} (small : count ≤ 2 ^ 53) :
    count.toUInt64.toFloat.isNaN = false ∧ value count.toUInt64.toFloat = count := by
  have sameCount : count.toUInt64.toNat = count :=
    Nat.mod_eq_of_lt (small.trans_lt (by norm_num))
  have rounds : Rounds count count.toUInt64.toFloat := by
    have normalized := Unpacked.rounds_normalize (count.toUInt64.toNat : Int) 0 .positive
    rw [zpow_zero, mul_one, Int.cast_natCast] at normalized
    conv at normalized => arg 1; rw [sameCount]
    exact normalized
  obtain ⟨x, number, same⟩ := exists_value_eq_natCast small
  exact ⟨rounds.number, rounds.value_eq number same⟩

/-! ## Decimals -/

/-- Sizes whose negative powers of two cancel are equal. -/
theorem scaled_eq_of_mul_eq
    {mantissa size : Nat}
    {exponent : Int}
    (same : mantissa * 2 ^ exponent.toNat = size * 2 ^ (-exponent).toNat) :
    scaled mantissa exponent = size := by
  have exponents : exponent = exponent.toNat - ((-exponent).toNat : Int) := by omega
  have castSame : (mantissa : ℚ) * 2 ^ exponent.toNat = size * 2 ^ (-exponent).toNat := by
    exact_mod_cast same
  rw [scaled, exponents, zpow_sub₀ two_ne_zero, zpow_natCast, zpow_natCast, ← mul_div_assoc,
    castSame, mul_div_assoc, div_self (by positivity), mul_one]

/-- The tabulated powers of ten are exact. -/
theorem value_powerOfTen
    {exponent : Nat}
    (tabulated : exponent < Float.exactlyRepresentablePowersOfTen.size) :
    Float.exactlyRepresentablePowersOfTen[exponent].isFinite = true ∧
      value Float.exactlyRepresentablePowersOfTen[exponent] = 10 ^ exponent := by
  have checked : ∀ index : Fin 23,
      let power := Float.exactlyRepresentablePowersOfTen[index]
      power.isFinite = true ∧ isNegative power = false ∧
        (magnitude power).significand * 2 ^ (magnitude power).exponent.toNat =
          10 ^ index.val * 2 ^ (-(magnitude power).exponent).toNat := by
    decide +kernel
  obtain ⟨finite, positive, same⟩ := checked ⟨exponent, tabulated⟩
  refine ⟨finite, (value_eq_magnitude finite).trans ?_⟩
  rw [sign, positive, if_neg Bool.false_ne_true, signFactor, one_mul, scaled_eq_of_mul_eq same,
    Nat.cast_pow, Nat.cast_ofNat]

/-- Beyond the table, a decimal is rounded from a product or a quotient of naturals. -/
theorem rounds_ofScientific
    (coefficient : Nat)
    {exponent : Int}
    (low : -2048 ≤ exponent)
    (high : exponent ≤ 2048) :
    Rounds (coefficient * 10 ^ exponent)
      (.ofModel (.pack (UnpackedFloat.ofScientific .binary64 coefficient exponent))) := by
  unfold UnpackedFloat.ofScientific
  by_cases isZero : coefficient = 0
  · rw [dif_pos isZero, isZero, Nat.cast_zero, zero_mul]
    exact Unpacked.rounds_pack_zero .positive
  · have positive : 0 < coefficient := Nat.pos_of_ne_zero isZero
    rw [dif_neg isZero, if_neg (by change ¬ 2 ^ 11 < exponent; omega),
      if_neg (by change ¬ exponent < - (2 ^ 11 + (coefficient.log2 : Int)); omega)]
    by_cases whole : 0 ≤ exponent
    · obtain ⟨power, rfl⟩ := Int.eq_ofNat_of_zero_le whole
      -- Without more bits the product could be too short to be rounded only once.
      have widened : 0 < coefficient <<< 53 := by
        rw [Nat.shiftLeft_eq]
        positivity
      have placed : 52 ≤ (coefficient <<< 53 * 10 ^ power).log2 := by
        apply le_log2_of_le
        rw [Nat.shiftLeft_eq]
        have one : 1 ≤ coefficient * 10 ^ power := Nat.mul_pos positive (by positivity)
        nlinarith
      have rounds :=
        Unpacked.rounds_mul_finite .positive .positive widened
          (by positivity : 0 < 10 ^ power) (-53) 0 (.inl placed)
      have exact :
          signFactor .positive * scaled (coefficient <<< 53) (-53)
              * (signFactor .positive * scaled (10 ^ power) 0) =
            coefficient * 10 ^ (power : Int) := by
        rw [Nat.shiftLeft_eq, scaled_mul_two_pow]
        norm_num [signFactor, scaled]
      rw [exact] at rounds
      rw [if_pos whole]
      exact rounds
    · obtain ⟨power, isPower⟩ : ∃ power : Nat, exponent = -power := ⟨exponent.natAbs, by omega⟩
      have rounds :=
        Unpacked.rounds_div_finite .positive .positive positive
          (by positivity : 0 < 10 ^ (-exponent).toNat) 0 0
      have exact :
          signFactor .positive * scaled coefficient 0
              / (signFactor .positive * scaled (10 ^ (-exponent).toNat) 0) =
            coefficient * 10 ^ exponent := by
        have sameExponent : (-exponent).toNat = power := by omega
        rw [sameExponent, isPower, zpow_neg]
        norm_num [signFactor, scaled, div_eq_mul_inv]
      rw [exact] at rounds
      rw [if_neg whole]
      exact rounds

/-- What the table does not cover is computed from the parts. -/
theorem nearest_of_not_tabulated
    {coefficient : Nat}
    {exponent : Int}
    (beyond : ¬ (coefficient < 2 ^ 53 ∧ exponent.natAbs ≤ 22)) :
    Decimal.nearest ⟨coefficient, exponent⟩ =
      .ofModel (.pack (UnpackedFloat.ofScientific .binary64 coefficient exponent)) := by
  have sameExponent :
      (if decide (exponent < 0) = true then Int.negOfNat exponent.natAbs
        else Int.ofNat exponent.natAbs) = exponent := by
    by_cases negative : exponent < 0
    · rw [if_pos (decide_eq_true negative), Int.negOfNat_eq, Int.ofNat_eq_natCast]
      omega
    · rw [if_neg (by simpa using negative), Int.ofNat_eq_natCast]
      omega
  unfold Decimal.nearest Float.ofScientific
  dsimp only
  rw [dif_neg beyond, sameExponent]
  rfl

/-- The double nearest to a decimal is its value, rounded. -/
theorem rounds_nearest
    (number : Decimal)
    (low : -2048 ≤ number.exponent)
    (high : number.exponent ≤ 2048) :
    Rounds (number.coefficient * 10 ^ number.exponent) number.nearest := by
  obtain ⟨coefficient, exponent⟩ := number
  dsimp only at low high ⊢
  by_cases small : coefficient < 2 ^ 53 ∧ exponent.natAbs ≤ 22
  · unfold Decimal.nearest Float.ofScientific
    dsimp only
    obtain ⟨number, same⟩ := value_toFloat small.1.le
    have finite := isFinite_of_value_eq_natCast number same (small.1.trans (by norm_num))
    obtain ⟨powerFinite, power⟩ := value_powerOfTen (Nat.lt_succ_of_le small.2)
    rw [dif_pos small]
    by_cases negative : exponent < 0
    · have rounds := rounds_div finite powerFinite (by rw [power]; positivity)
      have sameExponent : exponent = -(exponent.natAbs : Int) := by omega
      rw [same, power, div_eq_mul_inv, ← zpow_natCast, ← zpow_neg, ← sameExponent] at rounds
      rw [if_pos (decide_eq_true negative)]
      exact rounds
    · have rounds := rounds_mul finite powerFinite
      have sameExponent : exponent = (exponent.natAbs : Int) := by omega
      rw [same, power, ← zpow_natCast, ← sameExponent] at rounds
      rw [if_neg (by simpa using negative)]
      exact rounds
  · rw [nearest_of_not_tabulated small]
    exact rounds_ofScientific coefficient low high

/-! ## Places after the point -/

namespace Unpacked

/-- Bits that were appended as zeros are shifted out again without a residue. -/
theorem shiftRight_mul_two_pow (mantissa count more : Nat) :
    ExtendedMantissa.ofMantissaAndAccuracy (mantissa * 2 ^ count) .exact >>> (count + more) =
      ExtendedMantissa.ofMantissaAndAccuracy mantissa .exact >>> more := by
  induction more with
  | zero =>
      change _ = ExtendedMantissa.ofMantissaAndAccuracy mantissa .exact
      induction count generalizing mantissa with
      | zero => rw [pow_zero, mul_one]; rfl
      | succ count inductionHypothesis =>
          have oneMore : mantissa * 2 ^ (count + 1) = mantissa * 2 * 2 ^ count := by ring
          rw [oneMore]
          change (ExtendedMantissa.ofMantissaAndAccuracy (mantissa * 2 * 2 ^ count) .exact
            >>> (count + 0)).shiftRightOne = _
          rw [inductionHypothesis]
          simp [ExtendedMantissa.ofMantissaAndAccuracy, ExtendedMantissa.shiftRightOne]
  | succ more inductionHypothesis =>
      exact congrArg ExtendedMantissa.shiftRightOne inductionHypothesis

/-- Widening a mantissa that has all bits does not change how it is rounded. -/
theorem roundWithAccuracy_mul_two_pow
    (sign : Sign)
    {mantissa : Nat}
    (full : 2 ^ 52 ≤ mantissa)
    (count : Nat)
    (exponent : Int) :
    UnpackedFloat.roundWithAccuracy .binary64 sign (mantissa * 2 ^ count) (exponent - count)
        .exact =
      UnpackedFloat.roundWithAccuracy .binary64 sign mantissa exponent .exact := by
  have positive : 0 < mantissa := lt_of_lt_of_le (by norm_num) full
  have log := le_log2_of_le full
  obtain ⟨unit, isUnit⟩ :
      ∃ unit, max ((mantissa.log2 : Int) + exponent - 52) (-1074) = unit := ⟨_, rfl⟩
  have widenedUnit :
      max (((mantissa.log2 + count : Nat) : Int) + (exponent - count) - 52) (-1074) = unit := by
    rw [← isUnit]
    congr 1
    omega
  have shifts :
      UnpackedFloat.shiftToTargetExponent .binary64 (mantissa * 2 ^ count) (exponent - count)
          .exact =
        UnpackedFloat.shiftToTargetExponent .binary64 mantissa exponent .exact := by
    unfold UnpackedFloat.shiftToTargetExponent UnpackedFloat.shiftToExponent
    dsimp only
    rw [targetExponent_eq, targetExponent_eq, log2_mul_two_pow positive, widenedUnit, isUnit]
    have amounts : (unit - (exponent - count)).toNat = count + (unit - exponent).toNat := by
      omega
    rw [amounts, shiftRight_mul_two_pow]
    congr 1
    omega
  unfold UnpackedFloat.roundWithAccuracy
  rw [shifts]

variable {coefficient : Nat} (full : 2 ^ 52 ≤ coefficient)

include full

/-- A natural number is read off its digits exactly before it is rounded. -/
theorem ofScientific_whole :
    UnpackedFloat.ofScientific .binary64 coefficient 0 =
      UnpackedFloat.roundWithAccuracy .binary64 .positive coefficient 0 .exact := by
  have positive : 0 < coefficient := lt_of_lt_of_le (by norm_num) full
  have widened := roundWithAccuracy_mul_two_pow .positive full 53 0
  have places : (0 : Int) - (53 : Nat) = -53 + 0 := by norm_num
  rw [places, ← Nat.shiftLeft_eq] at widened
  have product :
      UnpackedFloat.ofScientific .binary64 coefficient 0 =
        UnpackedFloat.roundWithAccuracy .binary64 .positive (coefficient <<< 53 * 10 ^ 0) (-53 + 0)
          .exact := by
    unfold UnpackedFloat.ofScientific
    rw [dif_neg positive.ne', if_neg (by decide),
      if_neg (by change ¬ 0 < - (2 ^ 11 + (coefficient.log2 : Int)); omega), if_pos le_rfl]
    rfl
  rw [product, pow_zero, mul_one, widened]

/-- The quotient by ten is exact, so it is rounded as the whole number is. -/
theorem ofScientific_tenths :
    UnpackedFloat.ofScientific .binary64 (coefficient * 10) (-1) =
      UnpackedFloat.roundWithAccuracy .binary64 .positive coefficient 0 .exact := by
  have positive : 0 < coefficient := lt_of_lt_of_le (by norm_num) full
  obtain ⟨unit, isUnit⟩ :
      ∃ unit : Int,
        min (0 - 0) (max (((coefficient * 10).log2 : Int) + 0 - ((10 : Nat).log2 + 0) - 53)
          (-1074)) = unit :=
    ⟨_, rfl⟩
  obtain ⟨count, isCount⟩ : ∃ count, (0 - 0 - unit).toNat = count := ⟨_, rfl⟩
  have places : unit = 0 - count := by omega
  have multiple : coefficient * 10 * 2 ^ count = coefficient * 2 ^ count * 10 := by ring
  have core := divCore_eq isUnit isCount
  rw [multiple, Nat.mul_div_cancel _ (by norm_num), Nat.mul_mod_left, places] at core
  unfold UnpackedFloat.ofScientific
  rw [dif_neg (by positivity), if_neg (by decide),
    if_neg (by change ¬ -1 < - (2 ^ 11 + ((coefficient * 10).log2 : Int)); omega),
    if_neg (by decide), ← roundWithAccuracy_mul_two_pow .positive full count 0]
  change UnpackedFloat.roundWithAccuracy .binary64 _
    (UnpackedFloat.divCore .binary64 (coefficient * 10) 0 10 0).1
    (UnpackedFloat.divCore .binary64 (coefficient * 10) 0 10 0).2.1
    (UnpackedFloat.divCore .binary64 (coefficient * 10) 0 10 0).2.2 = _
  rw [core]
  rfl

end Unpacked

/-- A whole number written with one place after the point is the same double. -/
theorem nearest_tenths (coefficient : Nat) :
    Decimal.nearest ⟨coefficient * 10, -1⟩ = Decimal.nearest ⟨coefficient, 0⟩ := by
  rcases Nat.eq_zero_or_pos coefficient with rfl | positive
  · rfl
  by_cases small : coefficient < 2 ^ 53
  · -- Both are the number itself, which is a double.
    obtain ⟨x, number, same⟩ := exists_value_eq_natCast small.le
    have tenths := rounds_nearest ⟨coefficient * 10, -1⟩ (by norm_num) (by norm_num)
    have whole := rounds_nearest ⟨coefficient, 0⟩ (by norm_num) (by norm_num)
    have tenthsExact : ((coefficient * 10 : Nat) : ℚ) * 10 ^ (-1 : Int) = coefficient := by
      rw [Nat.cast_mul, Nat.cast_ofNat, mul_assoc]
      norm_num
    rw [tenthsExact] at tenths
    rw [zpow_zero, mul_one] at whole
    have tenthsValue := tenths.value_eq number same
    have wholeValue := whole.value_eq number same
    refine eq_of_beq
      (beq_iff.mpr ⟨tenths.number, whole.number, tenthsValue.trans wholeValue.symm⟩) ?_
    rw [tenthsValue]
    positivity
  · have full : 2 ^ 52 ≤ coefficient := by omega
    rw [nearest_of_not_tabulated (by omega), nearest_of_not_tabulated (by omega),
      Unpacked.ofScientific_tenths full, Unpacked.ofScientific_whole full]

/-! ## Natural numbers as doubles -/

/-- A natural number becomes the nearest double. -/
theorem rounds_ofNat (count : Nat) : Rounds count (Float.ofNat count) := by
  have rounds := rounds_nearest ⟨count, 0⟩ (by norm_num) (by norm_num)
  rw [zpow_zero, mul_one] at rounds
  exact rounds

/-- Natural numbers up to `2 ^ 53` are exact as doubles. -/
theorem value_ofNat {count : Nat} (small : count ≤ 2 ^ 53) :
    value (Float.ofNat count) = count := by
  obtain ⟨x, number, same⟩ := exists_value_eq_natCast small
  exact (rounds_ofNat count).value_eq number same

theorem isNaN_ofNat (count : Nat) : (Float.ofNat count).isNaN = false :=
  (rounds_ofNat count).number

theorem value_ofNat_nonneg (count : Nat) : 0 ≤ value (Float.ofNat count) :=
  (rounds_ofNat count).atLeast 0.0 rfl (Nat.cast_nonneg count)

theorem one_le_value_ofNat {count : Nat} (positive : 0 < count) :
    1 ≤ value (Float.ofNat count) := by
  have atLeast := (rounds_ofNat count).atLeast 1.0 rfl
  rw [value_one] at atLeast
  exact atLeast (by exact_mod_cast positive)

/-- Counts that fit into 64 bits are finite as doubles. -/
theorem isFinite_ofNat {count : Nat} (fits : count < 2 ^ 64) :
    (Float.ofNat count).isFinite = true := by
  obtain ⟨x, number, same⟩ :=
    @exists_value_eq_scaled (2 ^ 52) 12 ⟨by norm_num, by norm_num, .inl le_rfl⟩ (by norm_num)
  have isPower : value x = 2 ^ 64 := by
    rw [same]
    norm_num [scaled]
  have castFits : (count : ℚ) ≤ 2 ^ 64 := by exact_mod_cast fits.le
  have atMost := (rounds_ofNat count).atMost x number (castFits.trans isPower.ge)
  rw [isFinite_iff, abs_of_nonneg (value_ofNat_nonneg count)]
  exact ⟨isNaN_ofNat count,
    (atMost.trans isPower.le).trans_lt (pow_lt_pow_right₀ (by norm_num) (by norm_num))⟩

/-! ## Whole units -/

/-- A size is cut to the natural number at or below it. -/
theorem Unpacked.roundToInt_eq
    (sign : Sign)
    {mantissa count : Nat}
    {exponent : Int}
    (atLeast : (count : ℚ) ≤ scaled mantissa exponent)
    (below : scaled mantissa exponent < count + 1) :
    UnpackedFloat.roundToInt sign mantissa exponent = sign.apply count := by
  unfold UnpackedFloat.roundToInt UnpackedFloat.decreaseExponent UnpackedFloat.shiftToExponent
  dsimp only
  rw [Nat.shiftLeft_eq, sub_zero, zero_sub]
  obtain ⟨up, isUp⟩ : ∃ up, exponent.toNat = up := ⟨_, rfl⟩
  obtain ⟨down, isDown⟩ : ∃ down, (-(exponent - up)).toNat = down := ⟨_, rfl⟩
  rw [isUp, isDown]
  have exact : ((mantissa * 2 ^ up : Nat) : ℚ) / 2 ^ down = scaled mantissa exponent := by
    have exponents : exponent = up - down := by omega
    rw [scaled, exponents, zpow_sub₀ two_ne_zero, zpow_natCast, zpow_natCast]
    push_cast
    ring
  have standsFor := (standsFor_natCast (mantissa * 2 ^ up)).shiftRight down
  rw [exact] at standsFor
  generalize ExtendedMantissa.ofMantissaAndAccuracy (mantissa * 2 ^ up) .exact >>> down =
    extended at standsFor
  have mantissaLess : extended.mantissa < count + 1 := by
    exact_mod_cast standsFor.atLeast.trans_lt below
  have countLess : count < extended.mantissa + 1 := by
    exact_mod_cast atLeast.trans_lt standsFor.below
  have isCount : extended.mantissa = count := by omega
  rw [isCount]

/-- The whole units of a double are the natural number at or just below it. -/
theorem wholeUnits_eq
    {x : Float}
    {count : Nat}
    (number : x.isNaN = false)
    (atLeast : (count : ℚ) ≤ value x)
    (below : value x < count + 1)
    (fits : count < 2 ^ 64) :
    wholeUnits x = count := by
  have inRange := (inRange_unpack_iff x).mpr number
  have clamped : (UInt64.ofNatClamp count).toNat = count :=
    UInt64.toNat_ofNatClamp_of_lt fits
  have castNonneg : (0 : ℚ) ≤ count := Nat.cast_nonneg count
  have beyond : (count : ℚ) + 1 ≤ infinityValue := by
    have castFits : (count : ℚ) + 1 ≤ 2 ^ 64 := by exact_mod_cast fits
    exact castFits.trans (pow_le_pow_right₀ (by norm_num) (by norm_num))
  unfold value at atLeast below
  change (UInt64.ofNatClamp (x.toModel.unpack.toInt 0 (UInt64.size - 1)).toNat).toNat = count
  -- Between zero and `2 ^ 64` only positive finite numbers and zeros are left.
  cases unpacked : x.toModel.unpack with
  | notANumber =>
      rw [unpacked] at inRange
      exact inRange.elim
  | infinity sign =>
      rw [unpacked, Unpacked.value] at atLeast below
      cases sign <;> rw [signFactor] at atLeast below <;> linarith
  | zero sign =>
      rw [unpacked, Unpacked.value] at atLeast
      have isZero : count = 0 := by exact_mod_cast le_antisymm atLeast castNonneg
      rw [isZero]
      rfl
  | finite sign mantissa exponent positive =>
      rw [unpacked, Unpacked.value] at atLeast below
      have sizePositive := scaled_pos positive exponent
      cases sign with
      | negative =>
          rw [signFactor] at atLeast
          linarith
      | positive =>
          rw [signFactor, one_mul] at atLeast below
          rw [UnpackedFloat.toInt, Unpacked.roundToInt_eq _ atLeast below]
          exact clamped

/-- The whole units of a double that is a natural number are that number. -/
theorem wholeUnits_of_value_eq
    {x : Float}
    {count : Nat}
    (number : x.isNaN = false)
    (same : value x = count)
    (fits : count < 2 ^ 64) :
    wholeUnits x = count :=
  wholeUnits_eq number same.ge (same.trans_lt (lt_add_one _)) fits

end LayerPlayback.Binary64
