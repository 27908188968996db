import LayerPlayback.Proofs.Number.Difference
import LayerPlayback.Proofs.Number.Range

namespace LayerPlayback.Binary64

/-!
# Integers that are read off doubles

The key of a double is an integer that grows with its value, and tells the zeros apart
besides.  The nearest integer is that of the exact value, with halves away from zero, cut
to the signed 64-bit range.  It depends on the value alone, so that a zero of either sign
counts for nothing, even times an infinity, which is NaN.
-/

open Float.Model (UnpackedFloat)

/-! ## Keys in the order of the values -/

/-- Without the sign, the fields make up the bits. -/
theorem fields_eq_bits (x : Float) :
    exponentField x * 2 ^ 52 + fractionField x = bits x % 2 ^ 63 := by
  change bits x / 2 ^ 52 % 2 ^ 11 * 2 ^ 52 + bits x % 2 ^ 52 = _
  omega

theorem fractionField_lt (x : Float) : fractionField x < 2 ^ 52 :=
  Nat.mod_lt _ (by decide)

/--
Subnormals share the exponent of the least normal numbers and lack the bit that is not
stored.
-/
theorem magnitude_eq (x : Float) :
    (exponentField x = 0 ∧ magnitude x = ⟨fractionField x, -1074⟩) ∨
      (exponentField x ≠ 0 ∧ magnitude x = ⟨2 ^ 52 + fractionField x, exponentField x - 1075⟩) := by
  unfold magnitude
  split
  · next least => exact .inl ⟨least, rfl⟩
  · next notLeast => exact .inr ⟨notLeast, rfl⟩

/-- The fields give a size in its canonical form, so sizes can be compared field by field. -/
theorem isCanonical_magnitude (x : Float) :
    IsCanonical (magnitude x).significand (magnitude x).exponent := by
  have fraction := fractionField_lt x
  rcases magnitude_eq x with ⟨_, parts⟩ | ⟨notLeast, parts⟩ <;> rw [parts] <;> dsimp only
  · exact ⟨by omega, le_rfl, .inr rfl⟩
  · exact ⟨by omega, by omega, .inl (Nat.le_add_right _ _)⟩

/-- Without their signs, bits are in the order of the sizes: exponents first, then fractions. -/
theorem scaled_magnitude_le {x y : Float} (ordered : bits x % 2 ^ 63 ≤ bits y % 2 ^ 63) :
    scaled (magnitude x).significand (magnitude x).exponent ≤
      scaled (magnitude y).significand (magnitude y).exponent := by
  have byExponent :
      (magnitude x).exponent < (magnitude y).exponent ∨
        (magnitude x).exponent = (magnitude y).exponent ∧
          (magnitude x).significand ≤ (magnitude y).significand := by
    have xFraction := fractionField_lt x
    have yFraction := fractionField_lt y
    rw [← fields_eq_bits, ← fields_eq_bits] at ordered
    rcases magnitude_eq x with ⟨_, xParts⟩ | ⟨_, xParts⟩ <;>
      rcases magnitude_eq y with ⟨_, yParts⟩ | ⟨_, yParts⟩ <;>
      rw [xParts, yParts] <;>
      dsimp only <;>
      omega
  rcases byExponent with lower | ⟨same, atMost⟩
  · exact (scaled_lt_of_exponent_lt (isCanonical_magnitude x) (isCanonical_magnitude y) lower).le
  · rw [same]
    exact scaled_le_scaled atMost _

/-- Keys turn the bits of negative doubles around, so that keys grow as values do. -/
theorem orderKey_eq (x : Float) :
    (sign x = .negative ∧ 2 ^ 63 ≤ bits x ∧ orderKey x = 2 ^ 63 - 1 - bits x) ∨
      (sign x = .positive ∧ bits x < 2 ^ 63 ∧ orderKey x = bits x) := by
  have isNegative_iff : isNegative x = true ↔ 2 ^ 63 ≤ bits x := decide_eq_true_iff
  unfold sign orderKey
  split
  · next negative => exact .inl ⟨rfl, isNegative_iff.mp negative, rfl⟩
  · next positive => exact .inr ⟨rfl, not_le.mp (isNegative_iff.not.mp positive), rfl⟩

/-- The order of the keys is that of the values, with the zeros told apart. -/
theorem value_le_of_orderKey_le
    {x y : Float}
    (xFinite : x.isFinite = true)
    (yFinite : y.isFinite = true)
    (ordered : orderKey x ≤ orderKey y) :
    value x ≤ value y := by
  have xBelow : bits x < 2 ^ 64 := x.toBits.toBitVec.isLt
  have yBelow : bits y < 2 ^ 64 := y.toBits.toBitVec.isLt
  have xSize := scaled_nonneg (magnitude x).significand (magnitude x).exponent
  have ySize := scaled_nonneg (magnitude y).significand (magnitude y).exponent
  rw [value_eq_magnitude xFinite, value_eq_magnitude yFinite]
  rcases orderKey_eq x with ⟨xSign, xBits, xKey⟩ | ⟨xSign, xBits, xKey⟩ <;>
    rcases orderKey_eq y with ⟨ySign, yBits, yKey⟩ | ⟨ySign, yBits, yKey⟩ <;>
    simp only [xSign, ySign, signFactor]
  · have sizes := @scaled_magnitude_le y x (by omega)
    linarith
  · linarith
  · omega
  · have sizes := @scaled_magnitude_le x y (by omega)
    linarith

/-! ## Nearest integers -/

/-- The integer nearest to an exact value, with halves away from zero. -/
def awayFromZero (exact : ℚ) : Int :=
  if 0 ≤ exact then round exact else -round (-exact)

theorem awayFromZero_of_nonneg {exact : ℚ} (nonneg : 0 ≤ exact) :
    awayFromZero exact = round exact :=
  if_pos nonneg

/-- Values that differ in their signs only are rounded alike. -/
theorem awayFromZero_neg (exact : ℚ) : awayFromZero (-exact) = -awayFromZero exact := by
  rcases lt_trichotomy exact 0 with negative | rfl | positive
  · rw [awayFromZero_of_nonneg (neg_nonneg.mpr negative.le), awayFromZero,
      if_neg negative.not_ge, neg_neg]
  · rw [neg_zero, awayFromZero_of_nonneg le_rfl, round_zero, neg_zero]
  · rw [awayFromZero, if_neg (not_le.mpr (neg_neg_of_pos positive)), neg_neg,
      awayFromZero_of_nonneg positive.le]

/--
No integer is nearer to a value than its rounded form.  Only in the middle of two integers
is another one as near, and there the rounded form is the one that is greater in size.
-/
theorem awayFromZero_eq_iff {exact : ℚ} {nearest : Int} :
    awayFromZero exact = nearest ↔
      |exact - nearest| < 1 / 2 ∨ |exact - nearest| = 1 / 2 ∧ |exact| < |(nearest : ℚ)| := by
  wlog nonneg : 0 ≤ exact generalizing exact nearest
  · have mirrored := @this (-exact) (-nearest) (neg_nonneg.mpr (not_le.mp nonneg).le)
    rwa [awayFromZero_neg, neg_inj, Int.cast_neg, neg_sub_neg, abs_sub_comm, abs_neg,
      abs_neg] at mirrored
  rw [awayFromZero_of_nonneg nonneg, round_eq_iff, Set.mem_Ico, abs_of_nonneg nonneg]
  constructor
  · rintro ⟨atLeast, below⟩
    rcases atLeast.eq_or_lt with tie | above
    · refine .inr ⟨?_, ?_⟩
      · rw [← tie, sub_sub_cancel_left, abs_neg, abs_of_pos one_half_pos]
      · exact (by linarith : exact < nearest).trans_le (le_abs_self _)
    · exact .inl (abs_lt.mpr ⟨by linarith, by linarith⟩)
  · rintro (near | ⟨tie, smaller⟩)
    · obtain ⟨above, below⟩ := abs_lt.mp near
      exact ⟨by linarith, by linarith⟩
    · rcases (abs_eq one_half_pos.le).mp tie with above | below
      · -- The integer half a unit below is not negative, so it is not greater in size.
        have whole : -1 < nearest := by exact_mod_cast (by linarith : (-1 : ℚ) < nearest)
        have sizeNonneg : (0 : ℚ) ≤ nearest := by exact_mod_cast (by omega : 0 ≤ nearest)
        rw [abs_of_nonneg sizeNonneg] at smaller
        linarith
      · exact ⟨by linarith, by linarith⟩

/-- With or without places behind the point, a magnitude is rounded as its value is. -/
theorem rounded_eq_round (size : Magnitude) :
    (size.rounded : Int) = round (scaled size.significand size.exponent) := by
  obtain ⟨significand, exponent⟩ := size
  cases exponent with
  | ofNat up =>
      have whole : scaled significand (Int.ofNat up) = ((significand * 2 ^ up : Nat) : ℚ) := by
        rw [scaled, Int.ofNat_eq_natCast, zpow_natCast]
        push_cast
        rfl
      rw [whole, round_natCast]
      rfl
  | negSucc down =>
      have half :
          scaled significand (Int.negSucc down) + 1 / 2 =
            ((significand + 2 ^ down : Nat) : ℚ) / ((2 ^ (down + 1) : Nat) : ℚ) := by
        rw [scaled, zpow_negSucc]
        push_cast
        field_simp
        ring
      rw [round_eq, half, Rat.floor_natCast_div_natCast]
      rfl

theorem greatestInt64_lt_round_infinityValue : greatestInt64 < round infinityValue := by
  have isPower : (greatestInt64 + 1 : Int) = 2 ^ 63 := by decide
  rw [round_eq, Int.lt_floor_iff, ← Int.cast_one, ← Int.cast_add, isPower, infinityValue]
  push_cast
  have ordered : (2 : ℚ) ^ 63 ≤ 2 ^ 1024 := pow_le_pow_right₀ one_le_two (by norm_num)
  exact ordered.trans (le_add_of_nonneg_right one_half_pos.le)

/--
The nearest signed 64-bit integer is the nearest integer of the exact value, with halves
away from zero and cut to the range.  An infinity lies beyond the range.
-/
theorem nearestInt64_eq {x : Float} (number : x.isNaN = false) :
    nearestInt64 x = max leastInt64 (min greatestInt64 (awayFromZero (value x))) := by
  have leastNonpos : leastInt64 ≤ 0 := by decide
  have greatestNonneg : 0 ≤ greatestInt64 := by decide
  -- Finite or not, both sides saturate at the same ends; the sign bit decides on which side.
  cases finite : x.isFinite with
  | false =>
      have beyond := greatestInt64_lt_round_infinityValue
      have opposite : leastInt64 = -greatestInt64 - 1 := by decide
      rcases eq_infinity_or_neg number finite with rfl | rfl
      · have greatest : nearestInt64 infinity = greatestInt64 := by decide +kernel
        rw [greatest, value_infinity, awayFromZero_of_nonneg infinityValue_pos.le]
        omega
      · have least : nearestInt64 (-infinity) = leastInt64 := by decide +kernel
        rw [least, value_neg (by decide +kernel), value_infinity, awayFromZero_neg,
          awayFromZero_of_nonneg infinityValue_pos.le]
        omega
  | true =>
      have sizeNonneg := scaled_nonneg (magnitude x).significand (magnitude x).exponent
      rw [nearestInt64, if_neg (Bool.eq_false_iff.mp number), if_pos finite, if_pos finite,
        value_eq_magnitude finite]
      unfold sign
      split
      · rw [signFactor, neg_one_mul, awayFromZero_neg, awayFromZero_of_nonneg sizeNonneg,
          ← rounded_eq_round]
        omega
      · rw [signFactor, one_mul, awayFromZero_of_nonneg sizeNonneg, ← rounded_eq_round]
        omega

/-- In the middle of two integers the greater one in size is taken. -/
example : nearestInt64 2.5 = 3 ∧ nearestInt64 (-2.5) = -3 := by decide +kernel

theorem nearestInt64_of_isNaN {x : Float} (isNaN : x.isNaN = true) : nearestInt64 x = 0 :=
  if_pos isNaN

theorem nearestInt64_of_value_eq_zero
    {x : Float}
    (number : x.isNaN = false)
    (zero : value x = 0) :
    nearestInt64 x = 0 := by
  rw [nearestInt64_eq number, zero, awayFromZero_of_nonneg le_rfl, round_zero]
  decide

/-- A nearest integer stays in the range, whatever it is the nearest of. -/
theorem nearestInt64_le (x : Float) : nearestInt64 x ≤ greatestInt64 := by
  cases isNaN : x.isNaN with
  | true => exact (nearestInt64_of_isNaN isNaN).trans_le (by decide)
  | false => exact (nearestInt64_eq isNaN).trans_le (max_le (by decide) (min_le_left _ _))

/-! ## Nearest integers of equal doubles -/

/-- Only the zeros of both signs are equal to zero. -/
theorem eq_zero_or_neg {x : Float} (zero : (x == 0.0) = true) : x = 0.0 ∨ x = -0.0 := by
  have isAbs := abs_signed (beq_iff.mp zero).1
  rw [abs_eq_zero zero] at isAbs
  split at isAbs
  · exact .inr isAbs.symm
  · exact .inl isAbs.symm

/-- A product with NaN is NaN. -/
theorem isNaN_mul_of_isNaN {x y : Float} (isNaN : y.isNaN = true) : (x * y).isNaN = true := by
  refine (Unpacked.isNaN_pack _).trans ?_
  change y.toModel.unpack.isNaN = true at isNaN
  generalize x.toModel.unpack = first
  generalize y.toModel.unpack = second at isNaN ⊢
  cases first <;> cases second <;> first | rfl | cases isNaN

/-- A number times a finite one that is not zero is a number, also an infinity. -/
theorem isNaN_mul
    {x y : Float}
    (xNumber : x.isNaN = false)
    (yFinite : y.isFinite = true)
    (nonzero : value y ≠ 0) :
    (x * y).isNaN = false := by
  cases xFinite : x.isFinite with
  | true => exact (rounds_mul xFinite yFinite).number
  | false =>
      refine (Unpacked.isNaN_pack _).trans ?_
      change y.toModel.unpack.isFinite = true at yFinite
      unfold value at nonzero
      cases unpacked : y.toModel.unpack with
      | notANumber =>
          rw [unpacked] at yFinite
          cases yFinite
      | infinity =>
          rw [unpacked] at yFinite
          cases yFinite
      | zero =>
          rw [unpacked] at nonzero
          exact absurd rfl nonzero
      | finite sign mantissa exponent positive =>
          rcases eq_infinity_or_neg xNumber xFinite with rfl | rfl <;> rfl

/-- Nothing times any scale is rounded to nothing, also times an infinite one and times NaN. -/
theorem nearestInt64_zero_mul {x : Float} (zero : (x == 0.0) = true) (scale : Float) :
    nearestInt64 (x * scale) = 0 := by
  cases isNaN : scale.isNaN with
  | true => exact nearestInt64_of_isNaN (isNaN_mul_of_isNaN isNaN)
  | false =>
      cases finite : scale.isFinite with
      | false =>
          rcases eq_zero_or_neg zero with rfl | rfl <;>
            rcases eq_infinity_or_neg isNaN finite with rfl | rfl <;>
            decide +kernel
      | true =>
          have isZero : value x = 0 := (beq_iff.mp zero).2.2
          have xFinite : x.isFinite = true := by
            rcases eq_zero_or_neg zero with rfl | rfl <;> rfl
          have rounds := rounds_mul xFinite finite
          rw [isZero, zero_mul] at rounds
          exact nearestInt64_of_value_eq_zero rounds.number (rounds.value_eq isNaN_zero rfl)

/-- Equal doubles are rounded to the same integer, at any scale. -/
theorem nearestInt64_mul_congr {x y : Float} (equal : (x == y) = true) (scale : Float) :
    nearestInt64 (x * scale) = nearestInt64 (y * scale) := by
  by_cases nonzero : value x = 0
  · obtain ⟨xNumber, yNumber, same⟩ := beq_iff.mp equal
    rw [nearestInt64_zero_mul (beq_iff.mpr ⟨xNumber, rfl, nonzero⟩),
      nearestInt64_zero_mul (beq_iff.mpr ⟨yNumber, rfl, same ▸ nonzero⟩)]
  · rw [eq_of_beq equal nonzero]

end LayerPlayback.Binary64
