import LayerPlayback.Proofs.Number.Difference

namespace LayerPlayback.Binary64

/-!
# Errors of rounding

A rounded number is at most half a unit in its last place away from the exact one.
Relative to the exact number that is at most `2 ^ -53`, unless the number is tiny;
and sums and differences of doubles are exact when they are tiny.
-/

/-! ## Half a unit -/

/-- Between two neighbouring counts of units, rounding errs by at most half a unit. -/
theorem Rounds.abs_sub_le_of_between
    {exact : ℚ}
    {x low high : Float}
    (rounds : Rounds exact x)
    {count : Nat}
    {unit : Int}
    (lowNumber : low.isNaN = false)
    (isLow : value low = scaled count unit)
    (highNumber : high.isNaN = false)
    (isHigh : value high = scaled (count + 1) unit)
    (atLeast : scaled count unit ≤ exact)
    (atMost : exact ≤ scaled (count + 1) unit) :
    |value x - exact| ≤ 2 ^ unit / 2 := by
  have toLow := rounds.nearest low lowNumber
  have toHigh := rounds.nearest high highNumber
  have oneMore : scaled (count + 1) unit = scaled count unit + 2 ^ unit := by
    rw [scaled, scaled, Nat.cast_add_one, add_one_mul]
  rw [isLow, abs_of_nonpos (sub_nonpos.mpr atLeast)] at toLow
  rw [isHigh, abs_of_nonneg (sub_nonneg.mpr atMost)] at toHigh
  linarith

/-- The whole units of a size do not exceed it. -/
theorem scaled_floor_le {exact : ℚ} (nonneg : 0 ≤ exact) (unit : Int) :
    scaled ⌊exact / 2 ^ unit⌋₊ unit ≤ exact := by
  have positive : (0 : ℚ) < 2 ^ unit := zpow_pos two_pos _
  rw [scaled, ← le_div_iff₀ positive]
  exact Nat.floor_le (div_nonneg nonneg positive.le)

theorem lt_scaled_floor_add_one (exact : ℚ) (unit : Int) :
    exact < scaled (⌊exact / 2 ^ unit⌋₊ + 1) unit := by
  have positive : (0 : ℚ) < 2 ^ unit := zpow_pos two_pos _
  rw [scaled, ← div_lt_iff₀ positive, Nat.cast_add_one]
  exact Nat.lt_floor_add_one _

/-- Up to `2 ^ 53` units, rounding errs by at most half a unit. -/
theorem Rounds.abs_sub_le_half_unit
    {exact : ℚ}
    {x : Float}
    (rounds : Rounds exact x)
    {unit : Int}
    (least : -1074 ≤ unit)
    (greatest : unit ≤ 971)
    (nonneg : 0 ≤ exact)
    (atMost : exact ≤ scaled (2 ^ 53) unit) :
    |value x - exact| ≤ 2 ^ unit / 2 := by
  have positive : (0 : ℚ) < 2 ^ unit := zpow_pos two_pos _
  have below := scaled_floor_le nonneg unit
  have above := lt_scaled_floor_add_one exact unit
  have whole : ⌊exact / 2 ^ unit⌋₊ ≤ 2 ^ 53 := by
    refine Nat.floor_le_of_le ?_
    rw [div_le_iff₀ positive]
    exact atMost
  obtain ⟨low, lowNumber, isLow⟩ := exists_value_eq_units whole least greatest
  rcases whole.lt_or_eq with less | full
  · obtain ⟨high, highNumber, isHigh⟩ := exists_value_eq_units less least greatest
    exact rounds.abs_sub_le_of_between lowNumber isLow highNumber isHigh below above.le
  · rw [full] at below isLow
    have same := rounds.value_eq lowNumber (isLow.trans (le_antisymm below atMost))
    rw [same, sub_self, abs_zero]
    positivity

/-! ## Relative errors -/

/-- A number of at least `2 ^ -1022` is rounded by at most `2 ^ -53` of itself. -/
theorem Rounds.abs_sub_le_of_pos
    {exact : ℚ}
    {x : Float}
    (rounds : Rounds exact x)
    (normal : 2 ^ (-1022 : Int) ≤ exact)
    (inRange : exact < infinityValue) :
    |value x - exact| ≤ exact / 2 ^ 53 := by
  have positive : 0 < exact := lt_of_lt_of_le (zpow_pos two_pos _) normal
  obtain ⟨binary, isBinary⟩ : ∃ binary, Int.log 2 exact = binary := ⟨_, rfl⟩
  have atLeast : (2 : ℚ) ^ binary ≤ exact := by
    have := Int.zpow_log_le_self (by norm_num : 1 < 2) positive
    rwa [isBinary] at this
  have below : exact < (2 : ℚ) ^ (binary + 1) := by
    have := Int.lt_zpow_succ_log_self (by norm_num : 1 < 2) exact
    rwa [isBinary] at this
  have least : -1022 < binary + 1 :=
    (zpow_lt_zpow_iff_right₀ one_lt_two).mp (normal.trans_lt below)
  have greatest : binary < (1024 : Nat) := by
    refine (zpow_lt_zpow_iff_right₀ (one_lt_two (α := ℚ))).mp ?_
    rw [zpow_natCast]
    exact atLeast.trans_lt inRange
  -- The unit is the place of the last of the 53 bits.
  have units (bits : Nat) : (2 : ℚ) ^ (binary - 52 + bits) = scaled (2 ^ bits) (binary - 52) := by
    rw [scaled, zpow_add₀ two_ne_zero, zpow_natCast, mul_comm, Nat.cast_pow, Nat.cast_ofNat]
  have first : scaled (2 ^ 52) (binary - 52) ≤ exact := by
    rw [← units]
    simpa using atLeast
  have last : exact ≤ scaled (2 ^ 53) (binary - 52) := by
    have place : binary - 52 + (53 : Nat) = binary + 1 := by omega
    rw [← units, place]
    exact below.le
  have halfUnit := rounds.abs_sub_le_half_unit (by omega) (by omega) positive.le last
  rw [scaled, Nat.cast_pow, Nat.cast_ofNat] at first
  rw [le_div_iff₀ (by positivity)]
  linarith

/-- Rounding is symmetric about zero. -/
theorem Rounds.neg {exact : ℚ} {x : Float} (rounds : Rounds exact x) : Rounds (-exact) (-x) := by
  refine ⟨isNaN_neg rounds.number, fun y number => ?_⟩
  have near := rounds.nearest (-y) (isNaN_neg number)
  rw [value_neg number, ← abs_neg, ← abs_neg (-value y - exact)] at near
  rw [value_neg rounds.number]
  convert near using 2 <;> ring

/-- Rounding errs by at most `2 ^ -53` of the exact number, on either side of zero. -/
theorem Rounds.abs_sub_le
    {exact : ℚ}
    {x : Float}
    (rounds : Rounds exact x)
    (normal : 2 ^ (-1022 : Int) ≤ |exact|)
    (inRange : |exact| < infinityValue) :
    |value x - exact| ≤ |exact| / 2 ^ 53 := by
  rcases abs_choice exact with same | opposite
  · rw [same] at normal inRange ⊢
    exact rounds.abs_sub_le_of_pos normal inRange
  · rw [opposite] at normal inRange ⊢
    have mirrored := rounds.neg.abs_sub_le_of_pos normal inRange
    rw [value_neg rounds.number, ← abs_neg] at mirrored
    convert mirrored using 2
    ring

/-- What is rounded to a finite double lies in the range of the doubles. -/
theorem Rounds.abs_lt_infinityValue
    {exact : ℚ}
    {x : Float}
    (rounds : Rounds exact x)
    (finite : x.isFinite = true) :
    |exact| < infinityValue := by
  have inside := abs_lt.mp (isFinite_iff.mp finite).2
  rw [abs_lt]
  constructor
  · by_contra outside
    have reached := rounds.atMost (-infinity) rfl
      (by rw [value_neg rfl, value_infinity]; exact not_lt.mp outside)
    rw [value_neg rfl, value_infinity] at reached
    linarith
  · by_contra outside
    have reached := rounds.atLeast infinity rfl (by rw [value_infinity]; exact not_lt.mp outside)
    rw [value_infinity] at reached
    linarith

/-! ## Differences of doubles -/

/-- Whether a rational number is the value of a finite double. -/
def IsDouble (exact : ℚ) : Prop :=
  ∃ x : Float, x.isFinite = true ∧ value x = exact

/-- A double is rounded to itself. -/
theorem IsDouble.value_eq
    {exact : ℚ}
    (isDouble : IsDouble exact)
    {x : Float}
    (rounds : Rounds exact x) :
    x.isFinite = true ∧ value x = exact := by
  obtain ⟨y, finite, same⟩ := isDouble
  have isExact := rounds.value_eq (isNaN_of_isFinite finite) same
  rw [isFinite_iff, isExact, ← same]
  exact ⟨⟨rounds.number, (isFinite_iff.mp finite).2⟩, rfl⟩

theorem IsDouble.neg {exact : ℚ} (isDouble : IsDouble exact) : IsDouble (-exact) := by
  obtain ⟨x, finite, same⟩ := isDouble
  have number := isNaN_of_isFinite finite
  exact ⟨-x, isFinite_neg number finite, by rw [value_neg number, same]⟩

/-- Up to `2 ^ 53` a whole multiple of a unit is a double. -/
theorem isDouble_of_multiple
    {multiple : Int}
    (small : multiple.natAbs ≤ 2 ^ 53)
    {unit : Int}
    (least : -1074 ≤ unit)
    (greatest : unit ≤ 970) :
    IsDouble (multiple * 2 ^ unit) := by
  have unitPositive : (0 : ℚ) < 2 ^ unit := zpow_pos two_pos _
  have size : |(multiple * 2 ^ unit : ℚ)| = scaled multiple.natAbs unit := by
    rw [abs_mul, abs_of_pos unitPositive, scaled, Nat.cast_natAbs, Int.cast_abs]
  have inRange : scaled multiple.natAbs unit < infinityValue := by
    calc
      scaled multiple.natAbs unit ≤ 2 ^ 53 * 2 ^ (970 : Int) := by
        refine mul_le_mul (by exact_mod_cast small) ?_ unitPositive.le (by positivity)
        exact zpow_le_zpow_right₀ one_le_two greatest
      _ = 2 ^ 1023 := by
        rw [← zpow_natCast, ← zpow_add₀ two_ne_zero]
        norm_num
      _ < infinityValue := pow_lt_pow_right₀ one_lt_two (by norm_num)
  obtain ⟨x, number, same⟩ := exists_value_eq_units small least (greatest.trans (by norm_num))
  have isDouble : IsDouble |(multiple * 2 ^ unit : ℚ)| := by
    refine ⟨x, isFinite_iff.mpr ⟨number, ?_⟩, same.trans size.symm⟩
    rw [same, abs_of_nonneg (scaled_nonneg _ _)]
    exact inRange
  rcases abs_choice (multiple * 2 ^ unit : ℚ) with positive | negative
  · exact positive ▸ isDouble
  · have mirrored := isDouble.neg
    rwa [negative, neg_neg] at mirrored

/-- The difference of two multiples of a unit that are up to `2 ^ 53` units apart is a double. -/
theorem isDouble_sub_of_multiples
    {x y : Float}
    {first second unit : Int}
    (isFirst : value x = first * 2 ^ unit)
    (isSecond : value y = second * 2 ^ unit)
    (near : (first - second).natAbs ≤ 2 ^ 53)
    (least : -1074 ≤ unit)
    (greatest : unit ≤ 970) :
    IsDouble (value x - value y) := by
  have isMultiple : value x - value y = (first - second : Int) * 2 ^ unit := by
    rw [isFirst, isSecond, Int.cast_sub, sub_mul]
  exact isMultiple ▸ isDouble_of_multiple near least greatest

/-- A difference that does not overflow errs by at most `2 ^ -53` of itself. -/
theorem abs_value_sub_sub_le
    {x y : Float}
    (xFinite : x.isFinite = true)
    (yFinite : y.isFinite = true)
    (finite : (x - y).isFinite = true) :
    |value (x - y) - (value x - value y)| ≤ |value x - value y| / 2 ^ 53 := by
  have rounds := rounds_sub xFinite yFinite
  by_cases normal : 2 ^ (-1022 : Int) ≤ |value x - value y|
  · exact rounds.abs_sub_le normal (rounds.abs_lt_infinityValue finite)
  · obtain ⟨first, isFirst⟩ := exists_value_eq_multiple (isNaN_of_isFinite xFinite)
    obtain ⟨second, isSecond⟩ := exists_value_eq_multiple (isNaN_of_isFinite yFinite)
    have near : (first - second).natAbs ≤ 2 ^ 53 := by
      have unitPositive : (0 : ℚ) < 2 ^ (-1074 : Int) := zpow_pos two_pos _
      have power : (2 : ℚ) ^ (-1022 : Int) = 2 ^ 52 * 2 ^ (-1074 : Int) := by
        rw [← zpow_natCast, ← zpow_add₀ two_ne_zero]
        norm_num
      rw [isFirst, isSecond, ← sub_mul, abs_mul, abs_of_pos unitPositive, power, not_le,
        mul_lt_mul_iff_left₀ unitPositive] at normal
      have below : ((first - second).natAbs : ℚ) < 2 ^ 52 := by
        rw [Nat.cast_natAbs, Int.cast_abs, Int.cast_sub]
        exact normal
      have castBelow : (first - second).natAbs < 2 ^ 52 := by exact_mod_cast below
      omega
    have isDouble := isDouble_sub_of_multiples isFirst isSecond near le_rfl (by norm_num)
    rw [(isDouble.value_eq rounds).2, sub_self, abs_zero]
    positivity

/-! ## Differences added back -/

section AddedBack

variable {x y : Float} (xFinite : x.isFinite = true) (yFinite : y.isFinite = true)

include xFinite yFinite

/-- A difference that is a double leads back exactly. -/
theorem add_sub_beq (isDouble : IsDouble (value x - value y)) : (y + (x - y) == x) = true := by
  obtain ⟨finite, same⟩ := isDouble.value_eq (rounds_sub xFinite yFinite)
  have rounds := rounds_add yFinite finite
  rw [same, add_sub_cancel] at rounds
  have number := isNaN_of_isFinite xFinite
  exact beq_iff.mpr ⟨rounds.number, number, rounds.value_eq number rfl⟩

/-- The sum is no farther from the rounded point than `x` is, so its error is at most doubled. -/
theorem abs_value_add_sub_sub_le (finite : (x - y).isFinite = true) :
    |value (y + (x - y)) - value x| ≤ |value x - value y| / 2 ^ 52 := by
  have difference := abs_value_sub_sub_le xFinite yFinite finite
  have nearest := (rounds_add yFinite finite).nearest x (isNaN_of_isFinite xFinite)
  have sameError :
      |value x - (value y + value (x - y))| = |value (x - y) - (value x - value y)| := by
    rw [abs_sub_comm]
    congr 1
    ring
  calc
    |value (y + (x - y)) - value x| ≤
        |value (y + (x - y)) - (value y + value (x - y))| +
          |value y + value (x - y) - value x| :=
      abs_sub_le _ _ _
    _ ≤ |value (x - y) - (value x - value y)| + |value (x - y) - (value x - value y)| := by
      rw [abs_sub_comm _ (value x), sameError]
      rw [sameError] at nearest
      gcongr
    _ ≤ |value x - value y| / 2 ^ 52 := by linarith

/-- A difference that overflows does not lead back. -/
theorem isFinite_add_sub_of_overflow (overflow : (x - y).isFinite = false) :
    (y + (x - y)).isFinite = false := by
  have rounds := rounds_sub xFinite yFinite
  obtain ⟨_, same⟩ := value_add_of_not_isFinite rounds.number overflow yFinite
  rw [Bool.eq_false_iff, ne_eq, isFinite_iff] at overflow ⊢
  rw [add_comm, same]
  exact fun finite => overflow ⟨rounds.number, finite.2⟩

end AddedBack

end LayerPlayback.Binary64
