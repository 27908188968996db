import LayerPlayback.Proofs.Number.RoundingError

namespace LayerPlayback.Binary64

/-!
# Where sums overflow

The finite doubles end at the greatest one.  A sum less than half a unit beyond it is
rounded to it, and a sum farther out to an infinity.  So is one that lies just half a unit
beyond: the significand of the greatest double is odd, so the tie goes away from it.
Whether a sum or a difference of finite doubles is finite can thus be told from its exact
value.  The middle of two doubles overflows with their sum, and otherwise lies between them.
-/

open Float.Model
open Float.Model.UnpackedFloat (Sign ExtendedMantissa)

/-! ## The greatest double -/

/-- The greatest double has all 53 bits at the greatest exponent. -/
theorem value_greatestFinite : value greatestFinite = scaled (2 ^ 53 - 1) 971 := by
  have unpacks :
      greatestFinite.toModel.unpack = .finite .positive (2 ^ 53 - 1) 971 (by decide) :=
    rfl
  rw [value, unpacks, Unpacked.value, signFactor, one_mul]

theorem isFinite_greatestFinite : greatestFinite.isFinite = true :=
  rfl

/-- No finite double is greater in size. -/
theorem abs_value_le_greatestFinite {x : Float} (finite : x.isFinite = true) :
    |value x| ≤ value greatestFinite := by
  obtain ⟨number, inside⟩ := isFinite_iff.mp finite
  obtain ⟨_, mantissa, exponent, canonical, size⟩ := exists_canonical_abs_value number
  have greatest : IsCanonical (2 ^ 53 - 1) 971 := ⟨by norm_num, by norm_num, .inl (by norm_num)⟩
  rw [size] at inside ⊢
  rw [value_greatestFinite]
  rcases lt_trichotomy exponent 971 with lower | rfl | higher
  · exact (scaled_lt_of_exponent_lt canonical greatest lower).le
  · have fits := canonical.fits
    unfold scaled
    gcongr
    omega
  · exact absurd (infinityValue_le_scaled canonical higher) (not_le.mpr inside)

theorem le_greatestFinite {x : Float} (finite : x.isFinite = true) : x ≤ greatestFinite :=
  le_iff.mpr ⟨isNaN_of_isFinite finite, isNaN_of_isFinite isFinite_greatestFinite,
    (abs_le.mp (abs_value_le_greatestFinite finite)).2⟩

theorem leastFinite_le {x : Float} (finite : x.isFinite = true) : leastFinite ≤ x := by
  have number := isNaN_of_isFinite isFinite_greatestFinite
  refine le_iff.mpr ⟨isNaN_neg number, isNaN_of_isFinite finite, ?_⟩
  rw [leastFinite, value_neg number]
  exact (abs_le.mp (abs_value_le_greatestFinite finite)).1

/-! ## Half a unit beyond it -/

/-- Half a unit beyond the greatest double, from where on numbers are rounded to infinity. -/
def overflowValue : ℚ :=
  2 ^ 1024 - 2 ^ 970

/-- The threshold needs one bit more than a double has, so it is a tie. -/
theorem overflowValue_eq_scaled : overflowValue = scaled (2 ^ 54 - 1) 970 := by
  have power : (2 : ℚ) ^ 1024 = 2 ^ 54 * 2 ^ 970 := by rw [← pow_add]
  rw [overflowValue, scaled, power, zpow_ofNat]
  generalize (2 : ℚ) ^ 970 = unit
  norm_num
  ring

/-- It lies in the middle between the greatest double and the value of an infinity. -/
theorem two_mul_overflowValue : 2 * overflowValue = value greatestFinite + infinityValue := by
  have power : (2 : ℚ) ^ 1024 = 2 ^ 54 * 2 ^ 970 := by rw [← pow_add]
  have place : (2 : ℚ) ^ 971 = 2 ^ 970 * 2 := pow_succ 2 970
  rw [overflowValue, value_greatestFinite, infinityValue, scaled, power, zpow_ofNat, place]
  generalize (2 : ℚ) ^ 970 = unit
  norm_num
  ring

theorem value_greatestFinite_lt_overflowValue : value greatestFinite < overflowValue := by
  have finite := (isFinite_iff.mp isFinite_greatestFinite).2
  have middle := two_mul_overflowValue
  linarith [le_abs_self (value greatestFinite)]

theorem overflowValue_pos : 0 < overflowValue := by
  rw [overflowValue_eq_scaled]
  exact scaled_pos (by norm_num) 970

/-- Between the greatest double and an infinity there is no number. -/
theorem value_le_greatestFinite_of_lt
    {x : Float}
    (number : x.isNaN = false)
    (below : value x < infinityValue) :
    value x ≤ value greatestFinite := by
  cases finite : x.isFinite with
  | true => exact (abs_le.mp (abs_value_le_greatestFinite finite)).2
  | false =>
      rcases eq_infinity_or_neg number finite with rfl | rfl
      · exact absurd value_infinity below.ne
      · have least := (abs_le.mp (abs_value_le_greatestFinite isFinite_greatestFinite)).1
        rw [value_neg rfl, value_infinity]
        linarith [infinityValue_pos]

namespace Rounds

variable {exact : ℚ} {x : Float} (rounds : Rounds exact x)

include rounds

/-- Of the greatest double and infinity the nearer one is taken. -/
theorem value_lt_infinityValue_iff (notTie : exact ≠ overflowValue) :
    value x < infinityValue ↔ exact < overflowValue := by
  have middle := two_mul_overflowValue
  have greatest := value_greatestFinite_lt_overflowValue
  constructor
  · intro below
    have atMost := value_le_greatestFinite_of_lt rounds.number below
    by_contra notBelow
    have beyond : overflowValue < exact := lt_of_le_of_ne (not_lt.mp notBelow) notTie.symm
    have near := rounds.nearest infinity rfl
    rw [value_infinity, abs_of_nonpos (by linarith), le_abs] at near
    rcases near with above | below <;> linarith
  · intro below
    by_contra notBelow
    have near := rounds.nearest greatestFinite (isNaN_of_isFinite isFinite_greatestFinite)
    rw [abs_of_nonneg (by linarith), le_abs] at near
    rcases near with above | below <;> linarith

/-- Apart from the ties, the exact number says whether the rounded one is finite. -/
theorem isFinite_iff_of_ne (notTie : |exact| ≠ overflowValue) :
    x.isFinite = true ↔ |exact| < overflowValue := by
  obtain ⟨notPositive, notNegative⟩ :=
    not_or.mp ((abs_eq overflowValue_pos.le).not.mp notTie)
  have above := rounds.value_lt_infinityValue_iff notPositive
  have below := rounds.neg.value_lt_infinityValue_iff (neg_eq_iff_eq_neg.not.mpr notNegative)
  rw [value_neg rounds.number] at below
  rw [isFinite_iff, and_iff_right rounds.number, abs_eq_max_neg, abs_eq_max_neg, max_lt_iff,
    max_lt_iff, above, below]

end Rounds

namespace Unpacked

/-- A half behind an odd whole number goes to the next one. -/
theorem StandsFor.roundedMantissa_of_half
    {extended : ExtendedMantissa}
    {whole : Nat}
    (standsFor : StandsFor extended (whole + 1 / 2))
    (odd : whole % 2 = 1) :
    extended.roundedMantissa = whole + 1 := by
  obtain ⟨mantissa, roundBit, stickyBit⟩ := extended
  obtain ⟨atLeast, below, _, _, middle⟩ := standsFor
  dsimp only at atLeast below middle
  have notAbove : (mantissa : ℚ) < whole + 1 := by linarith
  have notBelow : (whole : ℚ) < mantissa + 1 := by linarith
  obtain rfl : mantissa = whole := by
    norm_cast at notAbove notBelow
    omega
  obtain ⟨rfl, rfl⟩ := middle.mp rfl
  change mantissa + mantissa % 2 = mantissa + 1
  rw [odd]

/-- A tie with more bits behind it has that many more bits. -/
theorem log2_tie (count : Nat) : ((2 ^ 54 - 1) * 2 ^ count).log2 = 53 + count := by
  rw [log2_mul_two_pow (by norm_num)]
  rfl

/-- The bits of a tie are shifted to the unit of the greatest double. -/
theorem shiftToTargetExponent_tie (count : Nat) :
    UnpackedFloat.shiftToTargetExponent .binary64 ((2 ^ 54 - 1) * 2 ^ count) (970 - count) .exact =
      (ExtendedMantissa.ofMantissaAndAccuracy ((2 ^ 54 - 1) * 2 ^ count) .exact >>> (count + 1),
        971) := by
  have shift :
      (max ((((2 ^ 54 - 1) * 2 ^ count).log2 : Int) + (970 - count) - 52) (-1074)
        - (970 - (count : Int))).toNat = count + 1 := by
    rw [log2_tie]
    omega
  unfold UnpackedFloat.shiftToTargetExponent UnpackedFloat.shiftToExponent
  dsimp only
  rw [targetExponent_eq, shift]
  congr 1
  omega

/-- Of that unit, a tie has the whole number of the greatest double and a half. -/
theorem tie_div_two_pow (count : Nat) :
    (((2 ^ 54 - 1) * 2 ^ count : Nat) : ℚ) / 2 ^ (count + 1) = (2 ^ 53 - 1 : Nat) + 1 / 2 := by
  have power : (2 : ℚ) ^ count ≠ 0 := by positivity
  rw [pow_succ (2 : ℚ) count, Nat.cast_mul, Nat.cast_pow, Nat.cast_ofNat]
  field_simp
  norm_num

/-- A number half a unit beyond the greatest double is brought to the value of an infinity. -/
theorem hasSize_round_overflowValue (sign : Sign) (count : Nat) :
    HasSize sign (UnpackedFloat.round .binary64 sign ((2 ^ 54 - 1) * 2 ^ count) (970 - count))
      infinityValue := by
  have noShift :
      (970 - (count : Int)
        - max ((((2 ^ 54 - 1) * 2 ^ count).log2 : Int) + (970 - count) - 52) (-1074)).toNat = 0 := by
    rw [log2_tie]
    omega
  have standsFor := (standsFor_natCast ((2 ^ 54 - 1) * 2 ^ count)).shiftRight (count + 1)
  rw [tie_div_two_pow] at standsFor
  have rounded := standsFor.roundedMantissa_of_half (by norm_num)
  have hasSize :=
    hasSize_of_shift sign (shiftToTargetExponent_tie count) (by norm_num)
      (by rw [rounded]; norm_num) (.inl (by rw [rounded]; norm_num))
  have size : scaled (2 ^ 53 - 1 + 1) 971 = infinityValue := by
    rw [infinityValue_eq_scaled]
    exact scaled_mul_two_pow (2 ^ 52) 1 971
  rw [rounded, size] at hasSize
  unfold UnpackedFloat.round UnpackedFloat.decreaseExponent
  dsimp only
  rw [targetExponent_eq, noShift, Nat.shiftLeft_zero, Nat.cast_zero, sub_zero]
  exact hasSize

/-- The ways to write the number half a unit beyond the greatest double. -/
theorem exists_of_scaled_eq_overflowValue
    {size : Nat}
    {exponent : Int}
    (same : scaled size exponent = overflowValue) :
    ∃ count : Nat, size = (2 ^ 54 - 1) * 2 ^ count ∧ exponent = 970 - count := by
  rw [overflowValue_eq_scaled] at same
  have unit : (2 : ℚ) ^ (970 : Int) ≠ 0 := by positivity
  rcases le_or_gt exponent 970 with atMost | beyond
  · obtain ⟨count, rfl⟩ : ∃ count : Nat, exponent = 970 - count :=
      ⟨(970 - exponent).toNat, by omega⟩
    refine ⟨count, ?_, rfl⟩
    have wider : scaled (2 ^ 54 - 1) 970 = scaled ((2 ^ 54 - 1) * 2 ^ count) (970 - count) := by
      rw [scaled_mul_two_pow, sub_add_cancel]
    have power : (2 : ℚ) ^ (970 - count : Int) ≠ 0 := by positivity
    rw [wider] at same
    exact Nat.cast_injective (mul_right_cancel₀ power same)
  · -- With a larger exponent, the odd number of units would be even.
    obtain ⟨count, rfl⟩ : ∃ count : Nat, exponent = 970 + (count + 1 : Nat) :=
      ⟨(exponent - 971).toNat, by omega⟩
    rw [← scaled_mul_two_pow] at same
    have equal : size * 2 ^ (count + 1) = 2 ^ 54 - 1 :=
      Nat.cast_injective (mul_right_cancel₀ unit same)
    rw [pow_succ, ← mul_assoc] at equal
    omega

/-- A sum of whole units that lies at a tie overflows. -/
theorem isFinite_normalize_of_tie
    {sum unit : Int}
    (tie : |(sum * 2 ^ unit : ℚ)| = overflowValue) :
    (Float.ofModel (.pack (UnpackedFloat.normalize .binary64 sum unit .positive))).isFinite =
      false := by
  have size : scaled sum.natAbs unit = overflowValue := by
    rw [← tie, abs_mul, abs_of_pos (by positivity : (0 : ℚ) < 2 ^ unit), scaled, Nat.cast_natAbs,
      Int.cast_abs]
  obtain ⟨count, isSize, rfl⟩ := exists_of_scaled_eq_overflowValue size
  have overflows (sign : Sign) :
      (Float.ofModel
        (.pack (UnpackedFloat.round .binary64 sign sum.natAbs (970 - count)))).isFinite = false := by
    obtain ⟨_, same⟩ := value_pack (isSize ▸ hasSize_round_overflowValue sign count)
    rw [Bool.eq_false_iff, ne_eq, isFinite_iff, same, min_self, abs_signFactor_mul,
      abs_of_pos infinityValue_pos]
    exact fun finite => lt_irrefl _ finite.2
  unfold UnpackedFloat.normalize
  rcases lt_trichotomy sum 0 with negative | rfl | positive
  · have magnitude : (-sum).toNat = sum.natAbs := by omega
    rw [compare_lt_iff_lt.mpr negative]
    dsimp only
    rw [magnitude]
    exact overflows .negative
  · rw [Int.natAbs_zero] at isSize
    exact absurd isSize.symm (by positivity)
  · have magnitude : sum.toNat = sum.natAbs := by omega
    rw [compare_gt_iff_gt.mpr positive]
    dsimp only
    rw [magnitude]
    exact overflows .positive

/-- A sum that lies on the threshold is rounded to even, which is up to infinity. -/
theorem isFinite_add_of_tie
    {first second : UnpackedFloat}
    (firstInRange : InRange first)
    (secondInRange : InRange second)
    (firstNonzero : value first ≠ 0)
    (secondNonzero : value second ≠ 0)
    (firstFinite : first.isFinite = true)
    (secondFinite : second.isFinite = true)
    (tie : |value first + value second| = overflowValue) :
    (Float.ofModel (.pack (UnpackedFloat.add .binary64 first second))).isFinite = false := by
  cases first with
  | notANumber => exact firstInRange.elim
  | infinity => cases firstFinite
  | zero => exact absurd rfl firstNonzero
  | finite sign mantissa exponent positive =>
      cases second with
      | notANumber => exact secondInRange.elim
      | infinity => cases secondFinite
      | zero => exact absurd rfl secondNonzero
      | finite other otherMantissa otherExponent otherPositive =>
          obtain ⟨sum, unit, normalized, exactly⟩ :=
            exists_add_eq_normalize sign other positive otherPositive
          rw [value, value, exactly] at tie
          rw [normalized]
          exact isFinite_normalize_of_tie tie

end Unpacked

/-! ## Sums and differences -/

section Finite

variable {x y : Float} (xFinite : x.isFinite = true) (yFinite : y.isFinite = true)

include xFinite yFinite

/-- A sum is finite exactly if its exact value is less than half a unit beyond the doubles. -/
theorem isFinite_add_iff : (x + y).isFinite = true ↔ |value x + value y| < overflowValue := by
  by_cases tie : |value x + value y| = overflowValue
  · have inside {z : Float} (finite : z.isFinite = true) : |value z| ≠ overflowValue :=
      ((abs_value_le_greatestFinite finite).trans_lt value_greatestFinite_lt_overflowValue).ne
    have xNonzero : value x ≠ 0 := fun zero => inside yFinite (by rw [← tie, zero, zero_add])
    have yNonzero : value y ≠ 0 := fun zero => inside xFinite (by rw [← tie, zero, add_zero])
    have overflows : (x + y).isFinite = false :=
      Unpacked.isFinite_add_of_tie ((inRange_unpack_iff x).mpr (isNaN_of_isFinite xFinite))
        ((inRange_unpack_iff y).mpr (isNaN_of_isFinite yFinite)) xNonzero yNonzero xFinite yFinite
        tie
    rw [overflows, tie]
    exact iff_of_false Bool.false_ne_true (lt_irrefl _)
  · exact (rounds_add xFinite yFinite).isFinite_iff_of_ne tie

/-- A difference stays finite exactly below the threshold. -/
theorem isFinite_sub_iff : (x - y).isFinite = true ↔ |value x - value y| < overflowValue := by
  have number := isNaN_of_isFinite yFinite
  have exactly : value x + -value y = value x - value y := by ring
  rw [sub_eq_add_neg number, isFinite_add_iff xFinite (isFinite_neg number yFinite),
    value_neg number, exactly]

end Finite

/-! ## Middles -/

/-- Twice a finite double is a double too, unless it lies beyond the infinities. -/
theorem exists_value_eq_two_mul
    {x : Float}
    (finite : x.isFinite = true)
    (inRange : |2 * value x| < infinityValue) :
    ∃ y : Float, y.isNaN = false ∧ value y = 2 * value x := by
  obtain ⟨number, _⟩ := isFinite_iff.mp finite
  obtain ⟨_, mantissa, exponent, canonical, size⟩ := exists_canonical_abs_value number
  have doubled : scaled mantissa (exponent + 1) = 2 * |value x| := by
    rw [size, scaled, scaled, zpow_add_one₀ two_ne_zero]
    ring
  have twice : |2 * value x| = scaled mantissa (exponent + 1) := by
    rw [doubled, abs_mul, abs_two]
  have unit : exponent + 1 ≤ 971 := by
    by_contra beyond
    have fits := canonical.fits
    have full : 2 ^ 52 ≤ mantissa := canonical.full.resolve_right (by omega)
    have higher : IsCanonical mantissa (exponent + 1) :=
      ⟨fits, by have := canonical.least; omega, .inl full⟩
    have outside := infinityValue_le_scaled higher (by omega)
    exact absurd (twice ▸ inRange) (not_lt.mpr outside)
  obtain ⟨y, yNumber, same⟩ :=
    exists_value_eq_units canonical.fits.le (by have := canonical.least; omega) unit
  rw [← twice] at same
  rcases abs_choice (2 * value x) with positive | negative
  · exact ⟨y, yNumber, same.trans positive⟩
  · exact ⟨-y, isNaN_neg yNumber, by rw [value_neg yNumber, same, negative, neg_neg]⟩

/-- A finite rounded number stays above the double of a double, also where that overflows. -/
theorem Rounds.two_mul_value_le
    {exact : ℚ}
    {x y : Float}
    (rounds : Rounds exact x)
    (finite : x.isFinite = true)
    (yFinite : y.isFinite = true)
    (atLeast : 2 * value y ≤ exact) :
    2 * value y ≤ value x := by
  obtain ⟨xAbove, xBelow⟩ := abs_lt.mp (isFinite_iff.mp finite).2
  by_cases inRange : |2 * value y| < infinityValue
  · obtain ⟨z, number, same⟩ := exists_value_eq_two_mul yFinite inRange
    rw [← same] at atLeast ⊢
    exact rounds.atLeast z number atLeast
  · rcases le_abs.mp (not_lt.mp inRange) with above | below
    · have reached := (abs_lt.mp (rounds.abs_lt_infinityValue finite)).2
      linarith
    · linarith

/-- Rounding does not lead above the double of a finite number, unless it leads to infinity. -/
theorem Rounds.le_two_mul_value
    {exact : ℚ}
    {x y : Float}
    (rounds : Rounds exact x)
    (finite : x.isFinite = true)
    (yFinite : y.isFinite = true)
    (atMost : exact ≤ 2 * value y) :
    value x ≤ 2 * value y := by
  have number := isNaN_of_isFinite yFinite
  have mirrored :=
    rounds.neg.two_mul_value_le (isFinite_neg rounds.number finite) (isFinite_neg number yFinite)
      (by rw [value_neg number]; linarith)
  rw [value_neg number, value_neg rounds.number] at mirrored
  linarith

/-- Half of a finite double is the exact half, rounded once. -/
theorem rounds_half {x : Float} (finite : x.isFinite = true) : Rounds (value x / 2) (x / 2.0) := by
  have isTwo : value 2.0 = 2 := @value_ofNat 2 (by norm_num)
  have rounds := rounds_div finite (by decide : (2.0 : Float).isFinite = true) (by norm_num [isTwo])
  rwa [isTwo] at rounds

section Middle

variable {low high : Float} (lowFinite : low.isFinite = true) (highFinite : high.isFinite = true)

include lowFinite highFinite

/-- The middle of two doubles is finite as long as their sum is. -/
theorem isFinite_middle_iff :
    ((low + high) / 2.0).isFinite = true ↔ |value low + value high| < overflowValue := by
  rw [← isFinite_add_iff lowFinite highFinite]
  cases finite : (low + high).isFinite with
  | true =>
      have size := abs_value_le_greatestFinite finite
      have beyond := value_greatestFinite_lt_overflowValue
      have inside : |value (low + high) / 2| < overflowValue := by
        rw [abs_div, abs_two]
        linarith [abs_nonneg (value (low + high))]
      exact iff_of_true (((rounds_half finite).isFinite_iff_of_ne inside.ne).mpr inside) rfl
  | false =>
      rcases eq_infinity_or_neg (rounds_add lowFinite highFinite).number finite with same | same <;>
        rw [same] <;> decide

/-- The middle of two doubles lies between them, unless their sum overflows. -/
theorem middle_between
    (ordered : low ≤ high)
    (inRange : |value low + value high| < overflowValue) :
    low ≤ (low + high) / 2.0 ∧ (low + high) / 2.0 ≤ high := by
  obtain ⟨lowNumber, highNumber, below⟩ := le_iff.mp ordered
  have finite := (isFinite_add_iff lowFinite highFinite).mpr inRange
  have sum := rounds_add lowFinite highFinite
  have atLeast := sum.two_mul_value_le finite lowFinite (by linarith)
  have atMost := sum.le_two_mul_value finite highFinite (by linarith)
  have middle := rounds_half finite
  exact ⟨le_iff.mpr ⟨lowNumber, middle.number, middle.atLeast low lowNumber (by linarith)⟩,
    le_iff.mpr ⟨middle.number, highNumber, middle.atMost high highNumber (by linarith)⟩⟩

end Middle

end LayerPlayback.Binary64
