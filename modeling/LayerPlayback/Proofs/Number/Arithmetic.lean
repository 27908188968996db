import LayerPlayback.Proofs.Number.Rounding

namespace LayerPlayback.Binary64

/-!
# Rounded arithmetic

Products, quotients, sums and differences of finite doubles are their exact results,
rounded.  So are natural numbers as doubles, exactly up to `2 ^ 53`, and the whole
units of such a double give the natural number back.
-/

open Float.Model
open Float.Model.UnpackedFloat (Sign Accuracy ExtendedMantissa)

/-- What is exact already is rounded to itself. -/
theorem roundsSize_self (exact : ℚ) : RoundsSize exact exact :=
  ⟨fun _ _ _ => by rw [sub_self, abs_zero]; exact abs_nonneg _⟩

/-- A mantissa that reaches a power of two is as wide as the power. -/
theorem le_log2_of_le {bound mantissa : Nat} (atLeast : 2 ^ bound ≤ mantissa) :
    bound ≤ mantissa.log2 :=
  (Nat.le_log2 (by have := Nat.two_pow_pos bound; omega)).mpr atLeast

namespace Unpacked

/-- Packing keeps a number in range. -/
theorem unpack_pack {unpacked : UnpackedFloat} (inRange : InRange unpacked) :
    (Float.Model.pack unpacked).unpack = unpacked := by
  cases unpacked with
  | notANumber => exact inRange.elim
  | infinity sign => cases sign <;> rfl
  | zero sign => cases sign <;> rfl
  | finite sign mantissa exponent positive =>
      exact unpack_pack_finite sign positive inRange.1 inRange.2

/-- Either zero is the rounded form of nothing. -/
theorem rounds_pack_zero (sign : Sign) : Rounds 0 (.ofModel (.pack (.zero sign))) := by
  have rounds := rounds_pack le_rfl (roundsSize_self 0) (@HasSize.zero sign)
  rwa [mul_zero] at rounds

/-- A number that is in range is packed without rounding. -/
theorem rounds_pack_self
    {unpacked : UnpackedFloat}
    (inRange : InRange unpacked)
    (finite : unpacked.isFinite = true) :
    Rounds (value unpacked) (.ofModel (.pack unpacked)) := by
  cases unpacked with
  | notANumber => exact inRange.elim
  | infinity sign => cases finite
  | zero sign => exact rounds_pack_zero sign
  | finite sign mantissa exponent positive =>
      exact rounds_pack (scaled_nonneg _ _) (roundsSize_self _) (.finite inRange.1 positive)

/--
The product of the mantissas is wide enough, or at the least exponent, to be rounded only
once.
-/
theorem rounds_mul_finite
    (firstSign secondSign : Sign)
    {first second : Nat}
    (firstPositive : 0 < first)
    (secondPositive : 0 < second)
    (firstExponent secondExponent : Int)
    (placed : 52 ≤ (first * second).log2 ∨ firstExponent + secondExponent ≤ -1074) :
    Rounds
      (signFactor firstSign * scaled first firstExponent
        * (signFactor secondSign * scaled second secondExponent))
      (.ofModel (.pack (UnpackedFloat.mul .binary64
        (.finite firstSign first firstExponent firstPositive)
        (.finite secondSign second secondExponent secondPositive)))) := by
  have product :
      signFactor firstSign * scaled first firstExponent
          * (signFactor secondSign * scaled second secondExponent) =
        signFactor (firstSign * secondSign)
          * ((first * second : Nat) * 2 ^ (firstExponent + secondExponent)) := by
    rw [signFactor_mul, zpow_add₀ two_ne_zero]
    unfold scaled
    push_cast
    ring
  obtain ⟨size, rounds, hasSize⟩ :=
    hasSize_roundWithAccuracy (firstSign * secondSign)
      (standsFor_natCast (first * second)) placed
  rw [product]
  exact rounds_pack (by positivity) rounds hasSize

/-- A product of unpacked doubles is the exact product, rounded once. -/
theorem rounds_mul
    {first second : UnpackedFloat}
    (firstInRange : InRange first)
    (secondInRange : InRange second)
    (firstFinite : first.isFinite = true)
    (secondFinite : second.isFinite = true) :
    Rounds (value first * value second)
      (.ofModel (.pack (UnpackedFloat.mul .binary64 first second))) := by
  cases first with
  | notANumber => exact firstInRange.elim
  | infinity => cases firstFinite
  | zero sign =>
      rw [value, zero_mul]
      cases second with
      | notANumber => exact secondInRange.elim
      | infinity => cases secondFinite
      | zero other => exact rounds_pack_zero (sign * other)
      | finite other => exact rounds_pack_zero (sign * other)
  | finite sign mantissa exponent positive =>
      cases second with
      | notANumber => exact secondInRange.elim
      | infinity => cases secondFinite
      | zero other =>
          rw [value, value, mul_zero]
          exact rounds_pack_zero (sign * other)
      | finite other otherMantissa otherExponent otherPositive =>
          refine rounds_mul_finite sign other positive otherPositive exponent otherExponent ?_
          rcases firstInRange.1.full with full | isLeast
          · exact .inl (le_log2_of_le (full.trans (Nat.le_mul_of_pos_right _ otherPositive)))
          · rcases secondInRange.1.full with otherFull | otherLeast
            · exact .inl
                (le_log2_of_le (otherFull.trans (Nat.le_mul_of_pos_left _ positive)))
            · exact .inr (by omega)

/-- The bits for a remainder compare it with nothing and with half of the divisor. -/
theorem bits_accuracyOfFraction (quotient remainder divisor : Nat) :
    let bits := ExtendedMantissa.ofMantissaAndAccuracy quotient
      (UnpackedFloat.accuracyOfFraction remainder divisor)
    bits.mantissa = quotient ∧
      (bits.roundBit = true ↔ remainder ≠ 0 ∧ divisor ≤ 2 * remainder) ∧
      (bits.stickyBit = true ↔ remainder ≠ 0 ∧ 2 * remainder ≠ divisor) := by
  intro bits
  unfold bits UnpackedFloat.accuracyOfFraction
  by_cases isZero : remainder = 0
  · simp [isZero, ExtendedMantissa.ofMantissaAndAccuracy]
  · rw [if_neg isZero]
    rcases lt_trichotomy (2 * remainder) divisor with less | same | greater
    · rw [compare_lt_iff_lt.mpr less]
      simp [ExtendedMantissa.ofMantissaAndAccuracy, isZero, less, less.ne]
    · rw [compare_eq_iff_eq.mpr same]
      simp [ExtendedMantissa.ofMantissaAndAccuracy, isZero, same]
    · rw [compare_gt_iff_gt.mpr greater]
      simp [ExtendedMantissa.ofMantissaAndAccuracy, isZero, greater.le, greater.ne']

/-- A quotient with the accuracy of its remainder stands for the fraction. -/
theorem standsFor_fraction (numerator : Nat) {denominator : Nat} (positive : 0 < denominator) :
    StandsFor
      (.ofMantissaAndAccuracy (numerator / denominator)
        (UnpackedFloat.accuracyOfFraction (numerator % denominator) denominator))
      ((numerator : ℚ) / denominator) := by
  have castPositive : (0 : ℚ) < denominator := by exact_mod_cast positive
  have remainderBelow := Nat.mod_lt numerator positive
  have parts :
      ((numerator : ℚ) / denominator - (numerator / denominator : Nat)) * denominator =
        (numerator % denominator : Nat) := by
    have divided :
        (numerator : ℚ) = denominator * (numerator / denominator : Nat)
          + (numerator % denominator : Nat) := by
      exact_mod_cast (Nat.div_add_mod numerator denominator).symm
    rw [sub_mul, div_mul_cancel₀ _ castPositive.ne']
    linarith
  -- What is left over compares with a part of one as the remainder with that of the divisor.
  have atLeast : ((numerator / denominator : Nat) : ℚ) ≤ (numerator : ℚ) / denominator := by
    rw [← sub_nonneg, ← mul_nonneg_iff_of_pos_right castPositive, parts]
    exact Nat.cast_nonneg _
  have below : (numerator : ℚ) / denominator < (numerator / denominator : Nat) + 1 := by
    rw [← sub_lt_iff_lt_add', ← mul_lt_mul_iff_left₀ castPositive, parts, one_mul]
    exact_mod_cast remainderBelow
  have isWhole :
      (numerator : ℚ) / denominator = (numerator / denominator : Nat) ↔
        numerator % denominator = 0 := by
    rw [← sub_eq_zero, ← mul_eq_zero_iff_right castPositive.ne', parts, Nat.cast_eq_zero]
  have reachesHalf :
      ((numerator / denominator : Nat) : ℚ) + 1 / 2 ≤ (numerator : ℚ) / denominator ↔
        denominator ≤ 2 * (numerator % denominator) := by
    rw [← Nat.cast_le (α := ℚ), Nat.cast_mul, Nat.cast_ofNat, ← parts, ← sub_nonneg,
      ← mul_nonneg_iff_of_pos_right castPositive]
    constructor <;> intro atLeastZero <;> linarith
  have isHalf :
      (numerator : ℚ) / denominator = (numerator / denominator : Nat) + 1 / 2 ↔
        2 * (numerator % denominator) = denominator := by
    rw [← Nat.cast_inj (R := ℚ), Nat.cast_mul, Nat.cast_ofNat, ← parts,
      ← mul_left_inj' castPositive.ne']
    constructor <;> intro equal <;> linarith
  obtain ⟨keeps, roundBit, stickyBit⟩ :=
    bits_accuracyOfFraction (numerator / denominator) (numerator % denominator) denominator
  generalize ExtendedMantissa.ofMantissaAndAccuracy (numerator / denominator)
    (UnpackedFloat.accuracyOfFraction (numerator % denominator) denominator) = bits at *
  refine ⟨?_, ?_, ?_, ?_, ?_⟩ <;> rw [keeps]
  · exact atLeast
  · exact below
  · rw [isWhole, ← Bool.not_eq_true, ← Bool.not_eq_true, roundBit, stickyBit]
    omega
  · rw [reachesHalf, roundBit]
    omega
  · rw [isHalf, ← Bool.not_eq_true, roundBit, stickyBit]
    omega

/-- The dividend is widened so far that the quotient has all bits. -/
theorem divCore_eq
    {first second count : Nat}
    {firstExponent secondExponent unit : Int}
    (isUnit :
      min (firstExponent - secondExponent)
        (max ((first.log2 : Int) + firstExponent - (second.log2 + secondExponent) - 53)
          (-1074)) = unit)
    (isCount : (firstExponent - secondExponent - unit).toNat = count) :
    UnpackedFloat.divCore .binary64 first firstExponent second secondExponent =
      (first * 2 ^ count / second, unit,
        UnpackedFloat.accuracyOfFraction (first * 2 ^ count % second) second) := by
  have target :
      Format.binary64.targetExponent
          (totalExponent first firstExponent - totalExponent second secondExponent) =
        max ((first.log2 : Int) + firstExponent - (second.log2 + secondExponent) - 53)
          (-1074) := by
    change max (((first.log2 : Int) + 1 + firstExponent) - (second.log2 + 1 + secondExponent) - 53)
      (-1074) = _
    congr 1
    omega
  unfold UnpackedFloat.divCore
  dsimp only
  rw [target, isUnit, isCount, Nat.shiftLeft_eq]

/-- A dividend that is wide enough gives a quotient with all bits. -/
theorem le_log2_quotient
    {first second count : Nat}
    (firstPositive : 0 < first)
    (secondPositive : 0 < second)
    (wide : 52 + (second.log2 + 1) ≤ first.log2 + count) :
    52 ≤ (first * 2 ^ count / second).log2 := by
  apply le_log2_of_le
  rw [Nat.le_div_iff_mul_le secondPositive]
  calc 2 ^ 52 * second ≤ 2 ^ 52 * 2 ^ (second.log2 + 1) := by
        gcongr
        exact Nat.lt_log2_self.le
    _ = 2 ^ (52 + (second.log2 + 1)) := (pow_add ..).symm
    _ ≤ 2 ^ (first.log2 + count) := Nat.pow_le_pow_right (by norm_num) wide
    _ = 2 ^ first.log2 * 2 ^ count := pow_add ..
    _ ≤ first * 2 ^ count := by
        gcongr
        exact Nat.log2_self_le (Nat.ne_of_gt firstPositive)

/-- A quotient of sizes is a quotient of mantissas, in the unit that the division works with. -/
theorem scaled_div_scaled
    {first second count : Nat}
    {firstExponent secondExponent unit : Int}
    (secondPositive : 0 < second)
    (exponents : firstExponent = unit + count + secondExponent) :
    scaled first firstExponent / scaled second secondExponent =
      ((first * 2 ^ count : Nat) : ℚ) / second * 2 ^ unit := by
  have power : (2 : ℚ) ^ secondExponent ≠ 0 := by positivity
  have nonzero : (second : ℚ) ≠ 0 := by positivity
  unfold scaled
  rw [exponents, zpow_add₀ two_ne_zero, zpow_add₀ two_ne_zero, zpow_natCast]
  push_cast
  field_simp

/-- The quotient and its remainder have all that is needed to round the exact quotient once. -/
theorem rounds_div_finite
    (firstSign secondSign : Sign)
    {first second : Nat}
    (firstPositive : 0 < first)
    (secondPositive : 0 < second)
    (firstExponent secondExponent : Int) :
    Rounds
      (signFactor firstSign * scaled first firstExponent
        / (signFactor secondSign * scaled second secondExponent))
      (.ofModel (.pack (UnpackedFloat.div .binary64
        (.finite firstSign first firstExponent firstPositive)
        (.finite secondSign second secondExponent secondPositive)))) := by
  obtain ⟨unit, isUnit⟩ :
      ∃ unit,
        min (firstExponent - secondExponent)
          (max ((first.log2 : Int) + firstExponent - (second.log2 + secondExponent) - 53)
            (-1074)) = unit :=
    ⟨_, rfl⟩
  obtain ⟨count, isCount⟩ :
      ∃ count, (firstExponent - secondExponent - unit).toNat = count := ⟨_, rfl⟩
  have core := divCore_eq isUnit isCount
  have placed : 52 ≤ (first * 2 ^ count / second).log2 ∨ unit ≤ -1074 := by
    by_cases isLeast : unit ≤ -1074
    · exact .inr isLeast
    · exact .inl (le_log2_quotient firstPositive secondPositive (by omega))
  have quotient :
      signFactor firstSign * scaled first firstExponent
          / (signFactor secondSign * scaled second secondExponent) =
        signFactor (firstSign / secondSign)
          * (((first * 2 ^ count : Nat) : ℚ) / second * 2 ^ unit) := by
    have exponents : firstExponent = unit + count + secondExponent := by omega
    rw [signFactor_div, mul_div_mul_comm, scaled_div_scaled secondPositive exponents]
  obtain ⟨size, rounds, hasSize⟩ :=
    hasSize_roundWithAccuracy (firstSign / secondSign)
      (standsFor_fraction (first * 2 ^ count) secondPositive) placed
  rw [quotient]
  change Rounds _ (.ofModel (.pack (UnpackedFloat.roundWithAccuracy .binary64 _
    (UnpackedFloat.divCore .binary64 first firstExponent second secondExponent).1
    (UnpackedFloat.divCore .binary64 first firstExponent second secondExponent).2.1
    (UnpackedFloat.divCore .binary64 first firstExponent second secondExponent).2.2)))
  rw [core]
  exact rounds_pack (by positivity) rounds hasSize

/-- A quotient of unpacked doubles is the exact quotient, rounded once. -/
theorem rounds_div
    {first second : UnpackedFloat}
    (firstInRange : InRange first)
    (secondInRange : InRange second)
    (firstFinite : first.isFinite = true)
    (secondFinite : second.isFinite = true)
    (nonzero : value second ≠ 0) :
    Rounds (value first / value second)
      (.ofModel (.pack (UnpackedFloat.div .binary64 first second))) := by
  cases second with
  | notANumber => exact secondInRange.elim
  | infinity => cases secondFinite
  | zero => exact absurd rfl nonzero
  | finite other otherMantissa otherExponent otherPositive =>
      cases first with
      | notANumber => exact firstInRange.elim
      | infinity => cases firstFinite
      | zero sign =>
          rw [value, zero_div]
          exact rounds_pack_zero (sign / other)
      | finite sign mantissa exponent positive =>
          exact rounds_div_finite sign other positive otherPositive exponent otherExponent

/-- A sum of aligned mantissas is rounded once, whichever sign it has. -/
theorem rounds_normalize (mantissa exponent : Int) (zeroSign : Sign) :
    Rounds (mantissa * 2 ^ exponent)
      (.ofModel (.pack (UnpackedFloat.normalize .binary64 mantissa exponent zeroSign))) := by
  have rounds_round (sign : Sign) {size : Nat} (positive : 0 < size) :
      Rounds (signFactor sign * scaled size exponent)
        (.ofModel (.pack (UnpackedFloat.round .binary64 sign size exponent))) := by
    obtain ⟨rounded, rounds, hasSize⟩ := hasSize_round sign positive exponent
    exact rounds_pack (scaled_nonneg _ _) rounds hasSize
  unfold UnpackedFloat.normalize
  rcases lt_trichotomy mantissa 0 with negative | rfl | positive
  · have size : ((-mantissa).toNat : ℚ) = -(mantissa : ℚ) := by
      exact_mod_cast Int.toNat_of_nonneg (by omega : 0 ≤ -mantissa)
    have rounds := rounds_round .negative (by omega : 0 < (-mantissa).toNat)
    rw [signFactor, scaled, size, neg_one_mul, neg_mul, neg_neg] at rounds
    rwa [compare_lt_iff_lt.mpr negative]
  · rw [compare_eq_iff_eq.mpr rfl, Int.cast_zero, zero_mul]
    exact rounds_pack_zero zeroSign
  · have size : (mantissa.toNat : ℚ) = (mantissa : ℚ) := by
      exact_mod_cast Int.toNat_of_nonneg positive.le
    have rounds := rounds_round .positive (by omega : 0 < mantissa.toNat)
    rw [signFactor, scaled, size, one_mul] at rounds
    rwa [compare_gt_iff_gt.mpr positive]

/-- A sum of finite parts is normalized from whole units, which have its exact value. -/
theorem exists_add_eq_normalize
    (sign other : Sign)
    {mantissa otherMantissa : Nat}
    {exponent otherExponent : Int}
    (positive : 0 < mantissa)
    (otherPositive : 0 < otherMantissa) :
    ∃ (sum unit : Int),
      UnpackedFloat.add .binary64 (.finite sign mantissa exponent positive)
          (.finite other otherMantissa otherExponent otherPositive) =
        UnpackedFloat.normalize .binary64 sum unit .positive ∧
        signFactor sign * scaled mantissa exponent
            + signFactor other * scaled otherMantissa otherExponent =
          sum * 2 ^ unit := by
  -- Both mantissas are widened to the smaller exponent.
  have widened (sign : Sign) {size : Nat} {exponent unit : Int} (least : unit ≤ exponent) :
      signFactor sign * scaled size exponent =
        ((sign.apply (size <<< (exponent - unit).toNat : Nat) : Int) : ℚ) * 2 ^ unit := by
    have exponents : exponent = unit + (exponent - unit).toNat := by omega
    rw [cast_apply, Nat.shiftLeft_eq, mul_assoc]
    conv_lhs => rw [exponents, ← scaled_mul_two_pow]
    rfl
  refine ⟨_, _, rfl, ?_⟩
  rw [widened sign (min_le_left exponent otherExponent),
    widened other (min_le_right exponent otherExponent), Int.cast_add, add_mul]

/-- A sum of unpacked doubles is the exact sum, rounded once. -/
theorem rounds_add
    {first second : UnpackedFloat}
    (firstInRange : InRange first)
    (secondInRange : InRange second)
    (firstFinite : first.isFinite = true)
    (secondFinite : second.isFinite = true) :
    Rounds (value first + value second)
      (.ofModel (.pack (UnpackedFloat.add .binary64 first second))) := by
  cases first with
  | notANumber => exact firstInRange.elim
  | infinity => cases firstFinite
  | zero sign =>
      rw [value, zero_add]
      cases second with
      | notANumber => exact secondInRange.elim
      | infinity => cases secondFinite
      | zero other => cases sign <;> cases other <;> exact rounds_pack_zero _
      | finite => exact rounds_pack_self secondInRange rfl
  | finite sign mantissa exponent positive =>
      cases second with
      | notANumber => exact secondInRange.elim
      | infinity => cases secondFinite
      | zero other =>
          rw [value, value, add_zero]
          exact rounds_pack_self firstInRange rfl
      | finite other otherMantissa otherExponent otherPositive =>
          obtain ⟨sum, unit, normalized, exactly⟩ :=
            exists_add_eq_normalize sign other positive otherPositive
          rw [value, value, exactly, normalized]
          exact rounds_normalize sum unit .positive

/-- A sum with an infinity is the infinity. -/
theorem add_of_not_isFinite
    {first second : UnpackedFloat}
    (firstInRange : InRange first)
    (secondInRange : InRange second)
    (infinite : first.isFinite = false)
    (finite : second.isFinite = true) :
    UnpackedFloat.add .binary64 first second = first := by
  cases first with
  | notANumber => exact firstInRange.elim
  | infinity sign =>
      cases second with
      | notANumber => exact secondInRange.elim
      | infinity => cases finite
      | _ => rfl
  | _ => cases infinite

/-- Sums do not depend on the order, also of infinities and NaN. -/
theorem add_comm (first second : UnpackedFloat) :
    UnpackedFloat.add .binary64 first second = UnpackedFloat.add .binary64 second first := by
  cases first <;> cases second
  case infinity.infinity sign other => cases sign <;> cases other <;> rfl
  case zero.zero sign other => cases sign <;> cases other <;> rfl
  case finite.finite =>
    simp only [UnpackedFloat.add]
    rw [min_comm, Int.add_comm]
  all_goals rfl

theorem inRange_neg {unpacked : UnpackedFloat} (inRange : InRange unpacked) :
    InRange unpacked.neg := by
  cases unpacked <;> exact inRange

theorem value_neg (unpacked : UnpackedFloat) : value unpacked.neg = -value unpacked := by
  have signFactor_neg (sign : Sign) : signFactor (-sign) = -signFactor sign := by
    cases sign
    · exact (neg_neg (1 : ℚ)).symm
    · rfl
  cases unpacked <;> simp [UnpackedFloat.neg, value, signFactor_neg]

end Unpacked

/-- The product of finite doubles is the exact product, rounded once. -/
theorem rounds_mul
    {x y : Float}
    (xFinite : x.isFinite = true)
    (yFinite : y.isFinite = true) :
    Rounds (value x * value y) (x * y) :=
  Unpacked.rounds_mul
    ((inRange_unpack_iff x).mpr (isNaN_of_isFinite xFinite))
    ((inRange_unpack_iff y).mpr (isNaN_of_isFinite yFinite)) xFinite yFinite

/-- The quotient of finite doubles is the exact quotient, rounded once. -/
theorem rounds_div
    {x y : Float}
    (xFinite : x.isFinite = true)
    (yFinite : y.isFinite = true)
    (nonzero : value y ≠ 0) :
    Rounds (value x / value y) (x / y) :=
  Unpacked.rounds_div
    ((inRange_unpack_iff x).mpr (isNaN_of_isFinite xFinite))
    ((inRange_unpack_iff y).mpr (isNaN_of_isFinite yFinite)) xFinite yFinite nonzero

/-- The sum of finite doubles is the exact sum, rounded once. -/
theorem rounds_add
    {x y : Float}
    (xFinite : x.isFinite = true)
    (yFinite : y.isFinite = true) :
    Rounds (value x + value y) (x + y) :=
  Unpacked.rounds_add
    ((inRange_unpack_iff x).mpr (isNaN_of_isFinite xFinite))
    ((inRange_unpack_iff y).mpr (isNaN_of_isFinite yFinite)) xFinite yFinite

section Opposite

variable {x : Float} (number : x.isNaN = false)

include number

theorem unpack_neg : (-x).toModel.unpack = x.toModel.unpack.neg :=
  Unpacked.unpack_pack (Unpacked.inRange_neg ((inRange_unpack_iff x).mpr number))

theorem isNaN_neg : (-x).isNaN = false := by
  rw [← inRange_unpack_iff, unpack_neg number]
  exact Unpacked.inRange_neg ((inRange_unpack_iff x).mpr number)

/-- The opposite of a number has the opposite value, also of an infinity. -/
theorem value_neg : value (-x) = -value x := by
  rw [value, unpack_neg number, Unpacked.value_neg, value]

theorem isFinite_neg (finite : x.isFinite = true) : (-x).isFinite = true := by
  rw [isFinite_iff] at finite ⊢
  rw [value_neg number, abs_neg]
  exact ⟨isNaN_neg number, finite.2⟩

end Opposite

/-- Subtraction is addition of the opposite; NaN has no opposite that would count. -/
theorem sub_eq_add_neg {x y : Float} (number : y.isNaN = false) : x - y = x + -y := by
  change Float.ofModel (.pack (UnpackedFloat.sub .binary64 x.toModel.unpack y.toModel.unpack)) =
    Float.ofModel (.pack (UnpackedFloat.add .binary64 x.toModel.unpack (-y).toModel.unpack))
  rw [Unpacked.sub_eq_add_neg, unpack_neg number]

theorem add_comm (x y : Float) : x + y = y + x :=
  congrArg (fun sum => Float.ofModel (.pack sum))
    (Unpacked.add_comm x.toModel.unpack y.toModel.unpack)

/-- An infinity stays as it is under finite doubles. -/
theorem value_add_of_not_isFinite
    {x y : Float}
    (number : x.isNaN = false)
    (infinite : x.isFinite = false)
    (finite : y.isFinite = true) :
    (x + y).isNaN = false ∧ value (x + y) = value x := by
  have inRange := (inRange_unpack_iff x).mpr number
  have sum :
      UnpackedFloat.add .binary64 x.toModel.unpack y.toModel.unpack = x.toModel.unpack :=
    Unpacked.add_of_not_isFinite inRange
      ((inRange_unpack_iff y).mpr (isNaN_of_isFinite finite)) infinite finite
  have unpacks : (x + y).toModel.unpack = x.toModel.unpack := by
    change (Float.Model.pack (UnpackedFloat.add .binary64 x.toModel.unpack y.toModel.unpack)).unpack
      = x.toModel.unpack
    rw [sum, Unpacked.unpack_pack inRange]
  constructor
  · rw [← inRange_unpack_iff, unpacks]
    exact inRange
  · rw [value, unpacks, value]

/-- Adding a finite double that is not negative does not lead below a number. -/
theorem le_add
    {x y : Float}
    (number : x.isNaN = false)
    (finite : y.isFinite = true)
    (nonneg : 0 ≤ value y) :
    x ≤ x + y := by
  rw [le_iff]
  by_cases xFinite : x.isFinite = true
  · have rounds := rounds_add xFinite finite
    exact ⟨number, rounds.number,
      rounds.atLeast x number (le_add_of_nonneg_right nonneg)⟩
  · obtain ⟨sumNumber, same⟩ :=
      value_add_of_not_isFinite number (Bool.eq_false_iff.mpr xFinite) finite
    exact ⟨number, sumNumber, same.ge⟩

/-- Subtracting a finite double that is not negative does not lead above a number. -/
theorem sub_le
    {x y : Float}
    (number : x.isNaN = false)
    (finite : y.isFinite = true)
    (nonneg : 0 ≤ value y) :
    x - y ≤ x := by
  have yNumber := isNaN_of_isFinite finite
  have negFinite := isFinite_neg yNumber finite
  rw [sub_eq_add_neg yNumber, le_iff]
  by_cases xFinite : x.isFinite = true
  · have rounds := rounds_add xFinite negFinite
    rw [value_neg yNumber] at rounds
    exact ⟨rounds.number, number, rounds.atMost x number (by linarith)⟩
  · obtain ⟨sumNumber, same⟩ :=
      value_add_of_not_isFinite number (Bool.eq_false_iff.mpr xFinite) negFinite
    exact ⟨sumNumber, number, same.le⟩

/-- Rounding gives a double that has the exact value. -/
theorem Rounds.value_eq
    {exact : ℚ}
    {x y : Float}
    (rounds : Rounds exact x)
    (number : y.isNaN = false)
    (same : value y = exact) :
    value x = exact :=
  le_antisymm ((rounds.atMost y number same.ge).trans same.le)
    (same.ge.trans (rounds.atLeast y number same.le))

end LayerPlayback.Binary64
