import LayerPlayback.Proofs.Number.Bits
import LayerPlayback.Proofs.Number.NaN

namespace LayerPlayback.Binary64

/-!
# Values of doubles

The value of a double is the rational number that it stands for.  An infinity
counts as `2 ^ 1024`, the power of two just beyond the finite doubles, with its
sign.  Doubles that are numbers then compare as their values do.
-/

open Float.Model
open Float.Model.UnpackedFloat (Sign)

/-- The rational factor of a sign. -/
def signFactor : Sign → ℚ
  | .negative => -1
  | .positive => 1

theorem signFactor_mul (first second : Sign) :
    signFactor (first * second) = signFactor first * signFactor second := by
  cases first <;> cases second <;> decide +kernel

theorem signFactor_div (first second : Sign) :
    signFactor (first / second) = signFactor first / signFactor second := by
  cases first <;> cases second <;> decide +kernel

theorem abs_signFactor_mul (sign : Sign) (size : ℚ) : |signFactor sign * size| = |size| := by
  cases sign <;> simp [signFactor]

/-- A sign applied to an integer is a factor of its value. -/
theorem cast_apply (sign : Sign) (size : Int) :
    ((sign.apply size : Int) : ℚ) = signFactor sign * size := by
  cases sign <;> simp [Sign.apply, signFactor]

/-- Mantissa and exponent of a number in its only form with 53 bits or the least exponent. -/
structure IsCanonical (mantissa : Nat) (exponent : Int) : Prop where
  fits : mantissa < 2 ^ 53
  least : -1074 ≤ exponent
  full : 2 ^ 52 ≤ mantissa ∨ exponent = -1074

/-- The size `mantissa * 2 ^ exponent`. -/
def scaled (mantissa : Nat) (exponent : Int) : ℚ :=
  mantissa * 2 ^ exponent

theorem scaled_nonneg (mantissa : Nat) (exponent : Int) : 0 ≤ scaled mantissa exponent := by
  unfold scaled
  positivity

theorem scaled_pos {mantissa : Nat} (positive : 0 < mantissa) (exponent : Int) :
    0 < scaled mantissa exponent := by
  unfold scaled
  positivity

/-- Canonical sizes with different exponents are ordered as these. -/
theorem scaled_lt_of_exponent_lt
    {first second : Nat}
    {low high : Int}
    (firstCanonical : IsCanonical first low)
    (secondCanonical : IsCanonical second high)
    (exponents : low < high) :
    scaled first low < scaled second high := by
  have full : 2 ^ 52 ≤ second := by
    rcases secondCanonical.full with full | isLeast
    · exact full
    · have := firstCanonical.least
      omega
  have fits : (first : ℚ) < 2 ^ 53 := by exact_mod_cast firstCanonical.fits
  have fullCast : (2 : ℚ) ^ 52 ≤ second := by exact_mod_cast full
  calc scaled first low < 2 ^ 53 * 2 ^ low := by
        unfold scaled
        gcongr
    _ = 2 ^ 52 * 2 ^ (low + 1) := by
        rw [zpow_add_one₀ two_ne_zero]
        ring
    _ ≤ 2 ^ 52 * 2 ^ high := by
        gcongr
        · norm_num
        · omega
    _ ≤ scaled second high := by
        unfold scaled
        gcongr

/-- Canonical sizes compare by their exponents first, then by their mantissas. -/
theorem compare_scaled
    {first second : Nat}
    {firstExponent secondExponent : Int}
    (firstCanonical : IsCanonical first firstExponent)
    (secondCanonical : IsCanonical second secondExponent) :
    compare (scaled first firstExponent) (scaled second secondExponent) =
      (compare firstExponent secondExponent).then (compare first second) := by
  rcases lt_trichotomy firstExponent secondExponent with lower | same | higher
  · rw [compare_lt_iff_lt.mpr lower,
      compare_lt_iff_lt.mpr (scaled_lt_of_exponent_lt firstCanonical secondCanonical lower)]
    rfl
  · subst same
    have power : (0 : ℚ) < 2 ^ firstExponent := by positivity
    rw [compare_eq_iff_eq.mpr (rfl : firstExponent = firstExponent)]
    change compare (scaled first firstExponent) (scaled second firstExponent) =
      compare first second
    rcases lt_trichotomy first second with less | equal | greater
    · rw [compare_lt_iff_lt.mpr less, compare_lt_iff_lt]
      unfold scaled
      gcongr
    · rw [equal, compare_eq_iff_eq.mpr rfl, compare_eq_iff_eq.mpr rfl]
    · rw [compare_gt_iff_gt.mpr greater, compare_gt_iff_gt]
      unfold scaled
      gcongr
  · rw [compare_gt_iff_gt.mpr higher,
      compare_gt_iff_gt.mpr (scaled_lt_of_exponent_lt secondCanonical firstCanonical higher)]
    rfl

/-- The value that an infinity counts as. -/
def infinityValue : ℚ :=
  2 ^ 1024

/-- An infinity counts as the first size of the exponent behind the greatest one. -/
theorem infinityValue_eq_scaled : infinityValue = scaled (2 ^ 52) 972 := by
  unfold infinityValue scaled
  rw [Nat.cast_pow, Nat.cast_ofNat, ← zpow_natCast, ← zpow_natCast, ← zpow_add₀ two_ne_zero]
  norm_num

theorem isCanonical_infinityValue : IsCanonical (2 ^ 52) 972 :=
  ⟨by norm_num, by norm_num, .inl le_rfl⟩

theorem infinityValue_pos : 0 < infinityValue := by
  unfold infinityValue
  positivity

/-- Canonical sizes stay below an infinity up to the greatest exponent. -/
theorem scaled_lt_infinityValue
    {mantissa : Nat}
    {exponent : Int}
    (canonical : IsCanonical mantissa exponent)
    (inRange : exponent ≤ 971) :
    scaled mantissa exponent < infinityValue := by
  rw [infinityValue_eq_scaled]
  exact scaled_lt_of_exponent_lt canonical isCanonical_infinityValue (by omega)

/-- Beyond the greatest exponent, canonical sizes are no less than an infinity. -/
theorem infinityValue_le_scaled
    {mantissa : Nat}
    {exponent : Int}
    (canonical : IsCanonical mantissa exponent)
    (beyond : 971 < exponent) :
    infinityValue ≤ scaled mantissa exponent := by
  have full : 2 ^ 52 ≤ mantissa := by
    rcases canonical.full with full | isLeast
    · exact full
    · omega
  rw [infinityValue_eq_scaled]
  unfold scaled
  have fullCast : ((2 ^ 52 : Nat) : ℚ) ≤ mantissa := by exact_mod_cast full
  gcongr
  · norm_num
  · omega

namespace Unpacked

/-- The value of an unpacked double; NaN has none and gets zero. -/
def value : UnpackedFloat → ℚ
  | .infinity sign => signFactor sign * infinityValue
  | .notANumber => 0
  | .zero _ => 0
  | .finite sign mantissa exponent _ => signFactor sign * scaled mantissa exponent

/-- A number as it comes out of its packed form. -/
def InRange : UnpackedFloat → Prop
  | .notANumber => False
  | .finite _ mantissa exponent _ => IsCanonical mantissa exponent ∧ exponent ≤ 971
  | _ => True

/-- The parts of a packed double are canonical. -/
theorem inRange_unpack
    (model : Float.Model)
    (number : model.unpack.isNaN = false) :
    InRange model.unpack := by
  obtain ⟨sign, exponent, mantissa, packed⟩ := exists_components model.toBits.toBitVec
  change UnpackedFloat.isNaN (UnpackedFloat.unpack .binary64 _) = false at number
  change InRange (UnpackedFloat.unpack .binary64 _)
  have mantissaBound : mantissa.toNat < 2 ^ 52 := mantissa.isLt
  rcases unpack_cases packed with
    ⟨_, _, unpacked⟩ | unpacked | ⟨_, _, unpacked⟩ | ⟨_, positive, unpacked⟩ |
      ⟨notLeast, notOnes, positive, unpacked⟩ <;>
    rw [unpacked] at number ⊢
  · trivial
  · cases number
  · trivial
  · exact ⟨⟨by omega, le_rfl, .inr rfl⟩, by decide⟩
  · have exponentBound : exponent.toNat < 2 ^ 11 := exponent.isLt
    have nonzero : exponent.toNat ≠ 0 := fun zero => notLeast (BitVec.eq_of_toNat_eq zero)
    have below : exponent.toNat ≠ 2047 := fun full => notOnes (BitVec.eq_of_toNat_eq full)
    exact ⟨⟨by omega, by omega, .inl (by omega)⟩, by omega⟩

/-- Opposite values compare the other way round. -/
theorem compare_neg_neg (first second : ℚ) :
    compare (-first) (-second) = compare second first := by
  rcases lt_trichotomy second first with less | equal | greater
  · rw [compare_lt_iff_lt.mpr less, compare_lt_iff_lt]
    exact neg_lt_neg less
  · rw [equal, compare_eq_iff_eq.mpr rfl, compare_eq_iff_eq.mpr rfl]
  · rw [compare_gt_iff_gt.mpr greater, compare_gt_iff_gt]
    exact neg_lt_neg greater

theorem some_lt_eq {x y : ℚ} (ordered : x < y) : some Ordering.lt = some (compare x y) := by
  rw [compare_lt_iff_lt.mpr ordered]

theorem some_gt_eq {x y : ℚ} (ordered : y < x) : some Ordering.gt = some (compare x y) := by
  rw [compare_gt_iff_gt.mpr ordered]

/-- Finite numbers compare by their signs first, then by their sizes. -/
theorem compare_finite
    (firstSign secondSign : Sign)
    {first second : Nat}
    {firstExponent secondExponent : Int}
    (firstPositive : 0 < first)
    (secondPositive : 0 < second)
    (firstCanonical : IsCanonical first firstExponent)
    (secondCanonical : IsCanonical second secondExponent) :
    (UnpackedFloat.finite firstSign first firstExponent firstPositive).compare
        (.finite secondSign second secondExponent secondPositive) =
      some (compare (signFactor firstSign * scaled first firstExponent)
        (signFactor secondSign * scaled second secondExponent)) := by
  have firstSize := scaled_pos firstPositive firstExponent
  have secondSize := scaled_pos secondPositive secondExponent
  have sizes := compare_scaled firstCanonical secondCanonical
  cases firstSign <;> cases secondSign
  · change some ((compare firstExponent secondExponent).then (compare first second)).swap = _
    rw [← sizes, ← Std.OrientedCmp.eq_swap]
    simp only [signFactor, neg_one_mul, compare_neg_neg]
  · exact some_lt_eq (by simp only [signFactor]; linarith)
  · exact some_gt_eq (by simp only [signFactor]; linarith)
  · change some ((compare firstExponent secondExponent).then (compare first second)) = _
    simp only [signFactor, one_mul, sizes]

/-- Numbers compare as their values. -/
theorem compare_eq
    {first second : UnpackedFloat}
    (firstInRange : InRange first)
    (secondInRange : InRange second) :
    first.compare second = some (compare (value first) (value second)) := by
  have beyond := infinityValue_pos
  -- An infinity counts as a value that no finite size reaches, so linear facts decide mixed cases.
  cases first with
  | notANumber => exact firstInRange.elim
  | infinity sign =>
      cases second with
      | notANumber => exact secondInRange.elim
      | infinity other =>
          cases sign <;> cases other
          · exact congrArg some (compare_eq_iff_eq.mpr rfl).symm
          · exact some_lt_eq (by simp only [value, signFactor]; linarith)
          · exact some_gt_eq (by simp only [value, signFactor]; linarith)
          · exact congrArg some (compare_eq_iff_eq.mpr rfl).symm
      | zero other =>
          cases sign
          · exact some_lt_eq (by simp only [value, signFactor]; linarith)
          · exact some_gt_eq (by simp only [value, signFactor]; linarith)
      | finite other mantissa exponent positive =>
          have bound := scaled_lt_infinityValue secondInRange.1 secondInRange.2
          have sizePositive := scaled_pos positive exponent
          cases sign
          · refine some_lt_eq ?_
            cases other <;> simp only [value, signFactor] <;> linarith
          · refine some_gt_eq ?_
            cases other <;> simp only [value, signFactor] <;> linarith
  | zero sign =>
      cases second with
      | notANumber => exact secondInRange.elim
      | infinity other =>
          cases other
          · exact some_gt_eq (by simp only [value, signFactor]; linarith)
          · exact some_lt_eq (by simp only [value, signFactor]; linarith)
      | zero other => exact congrArg some (compare_eq_iff_eq.mpr rfl).symm
      | finite other mantissa exponent positive =>
          have sizePositive := scaled_pos positive exponent
          cases other
          · exact some_gt_eq (by simp only [value, signFactor]; linarith)
          · exact some_lt_eq (by simp only [value, signFactor]; linarith)
  | finite sign mantissa exponent positive =>
      have bound := scaled_lt_infinityValue firstInRange.1 firstInRange.2
      have sizePositive := scaled_pos positive exponent
      cases second with
      | notANumber => exact secondInRange.elim
      | infinity other =>
          cases other
          · cases sign
            · exact some_gt_eq (by simp only [value, signFactor]; linarith)
            · exact some_gt_eq (by simp only [value, signFactor]; linarith)
          · cases sign
            · exact some_lt_eq (by simp only [value, signFactor]; linarith)
            · exact some_lt_eq (by simp only [value, signFactor]; linarith)
      | zero other =>
          cases sign
          · exact some_lt_eq (by simp only [value, signFactor]; linarith)
          · exact some_gt_eq (by simp only [value, signFactor]; linarith)
      | finite other otherMantissa otherExponent otherPositive =>
          exact compare_finite sign other positive otherPositive firstInRange.1 secondInRange.1

/-- Packing keeps a canonical number whose exponent is in range. -/
theorem unpack_pack_finite
    (sign : Sign)
    {mantissa : Nat}
    {exponent : Int}
    (positive : 0 < mantissa)
    (canonical : IsCanonical mantissa exponent)
    (inRange : exponent ≤ 971) :
    (Float.Model.pack (.finite sign mantissa exponent positive)).unpack =
      .finite sign mantissa exponent positive := by
  obtain ⟨fits, least, full⟩ := canonical
  change UnpackedFloat.unpack .binary64 (UnpackedFloat.pack .binary64 _) = _
  by_cases normal : 2 ^ 52 ≤ mantissa
  · obtain ⟨fraction, rfl⟩ : ∃ fraction : BitVec 52, mantissa = 2 ^ 52 + fraction.toNat :=
      ⟨.ofNat 52 mantissa, by rw [BitVec.toNat_ofNat]; omega⟩
    obtain ⟨field, rfl⟩ : ∃ field : BitVec 11, exponent = field.toNat - 1075 :=
      ⟨.ofNat 11 (exponent + 1075).toNat, by rw [BitVec.toNat_ofNat]; omega⟩
    have notLeast : field ≠ 0#11 := by
      rintro rfl
      cases least
    have notFull : field ≠ -1#11 := by
      rintro rfl
      cases inRange
    exact unpack_pack_normal sign notLeast notFull positive
  · obtain rfl : exponent = -1074 := full.resolve_left normal
    obtain ⟨fraction, rfl⟩ : ∃ fraction : BitVec 52, mantissa = fraction.toNat :=
      ⟨.ofNat 52 mantissa, by rw [BitVec.toNat_ofNat]; omega⟩
    exact unpack_pack_subnormal sign positive

/-- Packing turns a number beyond the range into an infinity. -/
theorem unpack_pack_of_lt
    (sign : Sign)
    {mantissa : Nat}
    {exponent : Int}
    (positive : 0 < mantissa)
    (beyond : 971 < exponent) :
    (Float.Model.pack (.finite sign mantissa exponent positive)).unpack = .infinity sign := by
  have bias := exponentBias_add_mantissaBits
  change UnpackedFloat.unpack .binary64 (UnpackedFloat.pack .binary64 _) = _
  simp only [UnpackedFloat.pack, Int.add_assoc, bias]
  rw [if_pos (by change 2048 ≤ _; omega)]
  cases sign <;> rfl

end Unpacked

/-- The value of a double. -/
def value (x : Float) : ℚ :=
  Unpacked.value x.toModel.unpack

/-- A double with what its parts are when it is a number. -/
theorem inRange_unpack_iff (x : Float) :
    Unpacked.InRange x.toModel.unpack ↔ x.isNaN = false := by
  constructor
  · intro inRange
    change x.toModel.unpack.isNaN = false
    cases unpacked : x.toModel.unpack with
    | notANumber =>
        rw [unpacked] at inRange
        exact inRange.elim
    | _ => rfl
  · exact Unpacked.inRange_unpack x.toModel

/-- With NaN on either side there is no comparison. -/
theorem compare_eq_none
    {x y : Float}
    (someNaN : ¬ (x.isNaN = false ∧ y.isNaN = false)) :
    x.toModel.unpack.compare y.toModel.unpack = none := by
  change ¬ (x.toModel.unpack.isNaN = false ∧ y.toModel.unpack.isNaN = false) at someNaN
  cases first : x.toModel.unpack <;> cases second : y.toModel.unpack <;>
    simp_all [UnpackedFloat.isNaN, UnpackedFloat.compare]

/-- A comparison of doubles is one of their values, and fails when one is NaN. -/
theorem any_compare_iff
    (accepts : Ordering → Bool)
    (x y : Float) :
    (x.toModel.unpack.compare y.toModel.unpack).any accepts = true ↔
      x.isNaN = false ∧ y.isNaN = false ∧ accepts (compare (value x) (value y)) = true := by
  by_cases numbers : x.isNaN = false ∧ y.isNaN = false
  · have compared := Unpacked.compare_eq
      ((inRange_unpack_iff x).mpr numbers.1) ((inRange_unpack_iff y).mpr numbers.2)
    rw [compared, Option.any_some]
    exact ⟨fun accepted => ⟨numbers.1, numbers.2, accepted⟩, fun ⟨_, _, accepted⟩ => accepted⟩
  · rw [compare_eq_none numbers]
    simp only [Option.any_none, Bool.false_eq_true, false_iff]
    exact fun ⟨first, second, _⟩ => numbers ⟨first, second⟩

theorem eq_some_iff_any (found : Option Ordering) (ordering : Ordering) :
    (found == some ordering) = true ↔ found.any (· == ordering) = true := by
  cases found <;> simp

/-- Doubles are ordered as their values, provided that neither is NaN. -/
theorem le_iff {x y : Float} :
    x ≤ y ↔ x.isNaN = false ∧ y.isNaN = false ∧ value x ≤ value y := by
  have unfolded :
      x ≤ y ↔ (x.toModel.unpack.compare y.toModel.unpack).any Ordering.isLE = true := by
    change decide (x.toModel ≤ y.toModel) = true ↔ _
    rw [decide_eq_true_eq]
    rfl
  rw [unfolded, any_compare_iff, Ordering.isLE_iff_ne_gt, compare_gt_iff_gt, not_lt]

theorem lt_iff {x y : Float} :
    x < y ↔ x.isNaN = false ∧ y.isNaN = false ∧ value x < value y := by
  have unfolded :
      x < y ↔ (x.toModel.unpack.compare y.toModel.unpack == some .lt) = true := by
    change decide (x.toModel < y.toModel) = true ↔ _
    rw [decide_eq_true_eq]
    rfl
  rw [unfolded, eq_some_iff_any, any_compare_iff, beq_iff_eq, compare_lt_iff_lt]

/-- Doubles are equal when their values are, so zeros of both signs are equal, and NaN is not. -/
theorem beq_iff {x y : Float} :
    (x == y) = true ↔ x.isNaN = false ∧ y.isNaN = false ∧ value x = value y := by
  have unfolded :
      (x == y) = true ↔ (x.toModel.unpack.compare y.toModel.unpack == some .eq) = true :=
    Iff.rfl
  rw [unfolded, eq_some_iff_any, any_compare_iff, beq_iff_eq, compare_eq_iff_eq]

theorem le_refl_of_number {x : Float} (number : x.isNaN = false) : x ≤ x :=
  le_iff.mpr ⟨number, number, le_rfl⟩

theorem le_of_beq {x y : Float} (equal : (x == y) = true) : x ≤ y :=
  have ⟨xNumber, yNumber, values⟩ := beq_iff.mp equal
  le_iff.mpr ⟨xNumber, yNumber, values.le⟩

/-- Between numbers the order is total, unlike with NaN. -/
theorem le_of_not_lt
    {x y : Float}
    (xNumber : x.isNaN = false)
    (yNumber : y.isNaN = false)
    (notLess : ¬ y < x) :
    x ≤ y := by
  rw [lt_iff] at notLess
  exact le_iff.mpr ⟨xNumber, yNumber, not_lt.mp fun less => notLess ⟨yNumber, xNumber, less⟩⟩

/-- NaN stands in no order, so transitivity needs no assumption about the middle. -/
theorem le_trans {x y z : Float} (below : x ≤ y) (above : y ≤ z) : x ≤ z := by
  rw [le_iff] at below above ⊢
  exact ⟨below.1, above.2.1, below.2.2.trans above.2.2⟩

section Extremes

variable {first second : Float} (number : first.isNaN = false)

include number

/-- A minimum does not exceed the first number, whatever the second one is. -/
theorem smaller_le_left : smaller first second ≤ first := by
  unfold smaller
  rw [if_neg (Bool.eq_false_iff.mp number)]
  by_cases less : second < first
  · rw [if_pos less]
    obtain ⟨secondNumber, _, values⟩ := lt_iff.mp less
    exact le_iff.mpr ⟨secondNumber, number, values.le⟩
  · rw [if_neg less]
    exact le_refl_of_number number

/-- A minimum does not exceed the second one, if that is a number. -/
theorem smaller_le_right (secondNumber : second.isNaN = false) :
    smaller first second ≤ second := by
  unfold smaller
  rw [if_neg (Bool.eq_false_iff.mp number)]
  by_cases less : second < first
  · rw [if_pos less]
    exact le_refl_of_number secondNumber
  · rw [if_neg less]
    exact le_of_not_lt number secondNumber less

theorem left_le_larger : first ≤ larger first second := by
  unfold larger
  rw [if_neg (Bool.eq_false_iff.mp number)]
  by_cases less : first < second
  · rw [if_pos less]
    obtain ⟨_, secondNumber, values⟩ := lt_iff.mp less
    exact le_iff.mpr ⟨number, secondNumber, values.le⟩
  · rw [if_neg less]
    exact le_refl_of_number number

theorem right_le_larger (secondNumber : second.isNaN = false) :
    second ≤ larger first second := by
  unfold larger
  rw [if_neg (Bool.eq_false_iff.mp number)]
  by_cases less : first < second
  · rw [if_pos less]
    exact le_refl_of_number secondNumber
  · rw [if_neg less]
    exact le_of_not_lt secondNumber number less

end Extremes

/-- The finite doubles are those whose values stay below an infinity. -/
theorem isFinite_iff {x : Float} :
    x.isFinite = true ↔ x.isNaN = false ∧ |value x| < infinityValue := by
  have beyond := infinityValue_pos
  rw [← inRange_unpack_iff]
  unfold value
  change x.toModel.unpack.isFinite = true ↔ _
  cases unpacked : x.toModel.unpack with
  | notANumber => simp [UnpackedFloat.isFinite, Unpacked.InRange]
  | infinity sign =>
      simp only [UnpackedFloat.isFinite, Unpacked.value, abs_signFactor_mul,
        abs_of_pos beyond, lt_irrefl, and_false, Bool.false_eq_true]
  | zero sign =>
      simp [UnpackedFloat.isFinite, Unpacked.InRange, Unpacked.value, beyond]
  | finite sign mantissa exponent positive =>
      have inRange := (inRange_unpack_iff x).mpr (by
        change x.toModel.unpack.isNaN = false
        rw [unpacked]
        rfl)
      rw [unpacked] at inRange
      have bound := scaled_lt_infinityValue inRange.1 inRange.2
      simp only [UnpackedFloat.isFinite, Unpacked.value, abs_signFactor_mul,
        abs_of_nonneg (scaled_nonneg mantissa exponent), true_iff]
      exact ⟨inRange, bound⟩

/-- The size of a number is canonical and at most that of an infinity. -/
theorem exists_canonical_abs_value {x : Float} (number : x.isNaN = false) :
    |value x| ≤ infinityValue ∧
      ∃ mantissa exponent, IsCanonical mantissa exponent ∧
        |value x| = scaled mantissa exponent := by
  have inRange := (inRange_unpack_iff x).mpr number
  unfold value
  cases unpacked : x.toModel.unpack with
  | notANumber =>
      rw [unpacked] at inRange
      exact inRange.elim
  | infinity sign =>
      rw [Unpacked.value, abs_signFactor_mul, abs_of_pos infinityValue_pos]
      exact ⟨le_rfl, 2 ^ 52, 972, isCanonical_infinityValue, infinityValue_eq_scaled⟩
  | zero sign =>
      rw [Unpacked.value, abs_zero]
      exact ⟨infinityValue_pos.le, 0, -1074, ⟨by norm_num, by norm_num, .inr rfl⟩,
        by simp [scaled]⟩
  | finite sign mantissa exponent positive =>
      rw [unpacked] at inRange
      rw [Unpacked.value, abs_signFactor_mul, abs_of_nonneg (scaled_nonneg mantissa exponent)]
      exact ⟨(scaled_lt_infinityValue inRange.1 inRange.2).le, mantissa, exponent,
        inRange.1, rfl⟩

end LayerPlayback.Binary64
