import LayerPlayback.Proofs.Number.Nearest

namespace LayerPlayback.Binary64

/-!
# Differences of doubles

Every double is a whole multiple of the least positive one.  So the difference of
two different doubles is not rounded to zero, however close they are, and a
difference keeps its sign.  A difference with an infinity has the sign that the
infinity gives it, and equal infinities have no difference.
-/

/-- The difference of finite doubles is the exact difference, rounded once. -/
theorem rounds_sub
    {x y : Float}
    (xFinite : x.isFinite = true)
    (yFinite : y.isFinite = true) :
    Rounds (value x - value y) (x - y) := by
  have number := isNaN_of_isFinite yFinite
  have rounds := rounds_add xFinite (isFinite_neg number yFinite)
  have exact : value x + -value y = value x - value y := by ring
  rw [value_neg number, exact, ← sub_eq_add_neg number] at rounds
  exact rounds

/-- Rounding passes no power of two that is a double. -/
theorem Rounds.two_pow_le
    {exact : ℚ}
    {x : Float}
    (rounds : Rounds exact x)
    {exponent : Int}
    (least : -1074 ≤ exponent)
    (greatest : exponent ≤ 971)
    (atLeast : 2 ^ exponent ≤ exact) :
    2 ^ exponent ≤ value x := by
  obtain ⟨y, number, same⟩ :=
    @exists_value_eq_units 1 (by norm_num) exponent least greatest
  have isPower : value y = 2 ^ exponent := by rw [same, scaled, Nat.cast_one, one_mul]
  rw [← isPower] at atLeast ⊢
  exact rounds.atLeast y number atLeast

/-- Rounding does not lead past a power of two. -/
theorem Rounds.le_two_pow
    {exact : ℚ}
    {x : Float}
    (rounds : Rounds exact x)
    {exponent : Int}
    (least : -1074 ≤ exponent)
    (greatest : exponent ≤ 971)
    (atMost : exact ≤ 2 ^ exponent) :
    value x ≤ 2 ^ exponent := by
  obtain ⟨y, number, same⟩ :=
    @exists_value_eq_units 1 (by norm_num) exponent least greatest
  have isPower : value y = 2 ^ exponent := by rw [same, scaled, Nat.cast_one, one_mul]
  rw [← isPower] at atMost ⊢
  exact rounds.atMost y number atMost

/-- Every number is a whole multiple of the least positive double. -/
theorem exists_value_eq_multiple {x : Float} (number : x.isNaN = false) :
    ∃ multiple : Int, value x = multiple * 2 ^ (-1074 : Int) := by
  obtain ⟨_, mantissa, exponent, canonical, size⟩ := exists_canonical_abs_value number
  have least := canonical.least
  obtain ⟨count, isCount⟩ : ∃ count : Nat, exponent = count + -1074 :=
    ⟨(exponent + 1074).toNat, by omega⟩
  have multiple : |value x| = ((mantissa * 2 ^ count : Nat) : Int) * 2 ^ (-1074 : Int) := by
    rw [size, scaled, isCount, zpow_add₀ two_ne_zero, zpow_natCast]
    rw [Int.cast_natCast, Nat.cast_mul, Nat.cast_pow, Nat.cast_ofNat, mul_assoc]
  rcases abs_choice (value x) with same | opposite
  · exact ⟨_, same ▸ multiple⟩
  · refine ⟨-((mantissa * 2 ^ count : Nat) : Int), ?_⟩
    rw [Int.cast_neg, neg_mul, ← multiple, opposite, neg_neg]

/-! ## Signs of differences -/

/-- A double is positive exactly when its value is. -/
theorem zero_lt_iff {x : Float} : 0.0 < x ↔ x.isNaN = false ∧ 0 < value x :=
  lt_iff.trans (and_iff_right isNaN_zero)

/-- The difference to a smaller finite double is positive: it is not rounded to zero. -/
theorem zero_lt_value_sub
    {x y : Float}
    (xFinite : x.isFinite = true)
    (yFinite : y.isFinite = true)
    (less : value y < value x) :
    0 < value (x - y) := by
  obtain ⟨larger, isLarger⟩ := exists_value_eq_multiple (isNaN_of_isFinite xFinite)
  obtain ⟨smaller, isSmaller⟩ := exists_value_eq_multiple (isNaN_of_isFinite yFinite)
  obtain ⟨least, leastNumber, isLeast⟩ :=
    @exists_value_eq_scaled 1 (-1074) ⟨by norm_num, le_rfl, .inr rfl⟩ (by norm_num)
  have unit : (0 : ℚ) < 2 ^ (-1074 : Int) := zpow_pos two_pos _
  rw [scaled, Nat.cast_one, one_mul] at isLeast
  have oneMore : (smaller : ℚ) + 1 ≤ larger := by
    rw [isLarger, isSmaller] at less
    exact_mod_cast lt_of_mul_lt_mul_right less unit.le
  have apart : value least ≤ value x - value y := by
    rw [isLeast, isLarger, isSmaller, ← sub_mul]
    exact le_mul_of_one_le_left unit.le (by linarith)
  have reached := (rounds_sub xFinite yFinite).atLeast least leastNumber apart
  rw [isLeast] at reached
  exact unit.trans_le reached

/-- A difference with NaN is NaN. -/
theorem isNaN_sub_of_isNaN {x y : Float} (someNaN : ¬ (x.isNaN = false ∧ y.isNaN = false)) :
    (x - y).isNaN = true := by
  refine (Unpacked.isNaN_pack _).trans ?_
  change ¬ (x.toModel.unpack.isNaN = false ∧ y.toModel.unpack.isNaN = false) at someNaN
  generalize x.toModel.unpack = first at someNaN ⊢
  generalize y.toModel.unpack = second at someNaN ⊢
  cases first <;> cases second <;> first | rfl | exact absurd ⟨rfl, rfl⟩ someNaN

theorem value_infinity : value infinity = infinityValue :=
  one_mul _

section Infinite

variable {x y : Float} (yNumber : y.isNaN = false) (yInfinite : y.isFinite = false)

include yNumber yInfinite

/-- Beyond the finite numbers there are only the infinities. -/
theorem eq_infinity_or_neg : y = infinity ∨ y = -infinity := by
  have isAbs := abs_signed yNumber
  rw [abs_eq_infinity yNumber yInfinite] at isAbs
  split at isAbs
  · exact .inr isAbs.symm
  · exact .inl isAbs.symm

variable (xFinite : x.isFinite = true)

include xFinite

/-- The difference to an infinity is the opposite infinity. -/
theorem value_sub_infinite : (x - y).isNaN = false ∧ value (x - y) = -value y := by
  have infinite : (-y).isFinite = false := by
    rcases eq_infinity_or_neg yNumber yInfinite with rfl | rfl <;> rfl
  rw [sub_eq_add_neg yNumber, add_comm, ← value_neg yNumber]
  exact value_add_of_not_isFinite (isNaN_neg yNumber) infinite xFinite

/-- The difference from an infinity is that infinity. -/
theorem value_infinite_sub : (y - x).isNaN = false ∧ value (y - x) = value y := by
  have xNumber := isNaN_of_isFinite xFinite
  rw [sub_eq_add_neg xNumber]
  exact value_add_of_not_isFinite yNumber yInfinite (isFinite_neg xNumber xFinite)

/-- An infinity compares with a finite double as with zero. -/
theorem value_lt_infinite_iff :
    (value x < value y ↔ 0 < value y) ∧ (value y < value x ↔ value y < 0) := by
  obtain ⟨above, below⟩ := abs_lt.mp (isFinite_iff.mp xFinite).2
  have beyond := infinityValue_pos
  rcases eq_infinity_or_neg yNumber yInfinite with rfl | rfl
  · rw [value_infinity]
    constructor <;> constructor <;> intro <;> linarith
  · rw [value_neg rfl, value_infinity]
    constructor <;> constructor <;> intro <;> linarith

end Infinite

/--
The difference of two doubles is positive exactly when the first one is greater, also
when one of them is infinite, when both are, and when one is NaN.
-/
theorem zero_lt_sub_iff {x y : Float} : 0.0 < x - y ↔ y < x := by
  by_cases numbers : x.isNaN = false ∧ y.isNaN = false
  · obtain ⟨xNumber, yNumber⟩ := numbers
    have less : y < x ↔ value y < value x :=
      lt_iff.trans ((and_iff_right yNumber).trans (and_iff_right xNumber))
    cases xFinite : x.isFinite <;> cases yFinite : y.isFinite
    · rcases eq_infinity_or_neg xNumber xFinite with rfl | rfl <;>
        rcases eq_infinity_or_neg yNumber yFinite with rfl | rfl <;>
        decide
    · obtain ⟨number, same⟩ := value_infinite_sub xNumber xFinite yFinite
      rw [zero_lt_iff, and_iff_right number, same, less,
        (value_lt_infinite_iff xNumber xFinite yFinite).1]
    · obtain ⟨number, same⟩ := value_sub_infinite yNumber yFinite xFinite
      rw [zero_lt_iff, and_iff_right number, same, less,
        (value_lt_infinite_iff yNumber yFinite xFinite).2, neg_pos]
    · have rounds := rounds_sub xFinite yFinite
      rw [zero_lt_iff, and_iff_right rounds.number, less]
      refine ⟨fun positive => ?_, zero_lt_value_sub xFinite yFinite⟩
      by_contra notLess
      have notPositive := rounds.atMost 0.0 isNaN_zero (sub_nonpos.mpr (not_lt.mp notLess))
      exact absurd positive (not_lt.mpr notPositive)
  · have isNaN := isNaN_sub_of_isNaN numbers
    constructor
    · intro positive
      rw [(zero_lt_iff.mp positive).1] at isNaN
      cases isNaN
    · intro less
      obtain ⟨yNumber, xNumber, _⟩ := lt_iff.mp less
      exact absurd ⟨xNumber, yNumber⟩ numbers

theorem add_zero_beq {x : Float} (finite : x.isFinite = true) : (x + 0.0 == x) = true := by
  have number := isNaN_of_isFinite finite
  have isZero : value 0.0 = 0 := rfl
  have zeroFinite : (0.0 : Float).isFinite = true := rfl
  have rounds := rounds_add finite zeroFinite
  rw [isZero, add_zero] at rounds
  exact beq_iff.mpr ⟨rounds.number, number, rounds.value_eq number rfl⟩

theorem sub_zero_beq {x : Float} (finite : x.isFinite = true) : (x - 0.0 == x) = true := by
  have number := isNaN_of_isFinite finite
  have isZero : value 0.0 = 0 := rfl
  have zeroFinite : (0.0 : Float).isFinite = true := rfl
  have rounds := rounds_sub finite zeroFinite
  rw [isZero, sub_zero] at rounds
  exact beq_iff.mpr ⟨rounds.number, number, rounds.value_eq number rfl⟩

theorem isNaN_abs {x : Float} (number : x.isNaN = false) : x.abs.isNaN = false := by
  have inRange := (inRange_unpack_iff x).mpr number
  rw [← inRange_unpack_iff, unpack_abs number]
  exact Unpacked.inRange_abs inRange

/-! ## Equal doubles -/

theorem beq_self_of_isFinite {x : Float} (finite : x.isFinite = true) : (x == x) = true :=
  beq_self (isNaN_of_isFinite finite)

theorem isFinite_of_beq {x y : Float} (finite : x.isFinite = true) (same : (x == y) = true) :
    y.isFinite = true := by
  obtain ⟨_, yNumber, values⟩ := beq_iff.mp same
  rw [isFinite_iff, ← values]
  exact ⟨yNumber, (isFinite_iff.mp finite).2⟩

/-- Doubles that are equal differ by zero. -/
theorem sub_beq_zero
    {x y : Float}
    (finite : x.isFinite = true)
    (same : (x == y) = true) :
    (x - y == 0.0) = true := by
  obtain ⟨_, _, values⟩ := beq_iff.mp same
  have rounds := rounds_sub finite (isFinite_of_beq finite same)
  rw [values, sub_self] at rounds
  exact beq_iff.mpr ⟨rounds.number, isNaN_zero, rounds.value_eq isNaN_zero rfl⟩

/-- The distance of equal doubles is zero. -/
theorem value_abs_sub_eq_zero
    {x y : Float}
    (finite : x.isFinite = true)
    (same : (x == y) = true) :
    (x - y).abs.isNaN = false ∧ value (x - y).abs = 0 := by
  obtain ⟨number, _, values⟩ := beq_iff.mp (sub_beq_zero finite same)
  have isZero : value (x - y) = 0 := values
  rw [value_abs number, isZero, abs_zero]
  exact ⟨isNaN_abs number, rfl⟩

/-- Results that are rounded from the value of a double are equal. -/
theorem Rounds.beq_of_value_eq
    {exact : ℚ}
    {x y z : Float}
    (first : Rounds exact x)
    (second : Rounds exact y)
    (number : z.isNaN = false)
    (same : value z = exact) :
    (x == y) = true :=
  beq_iff.mpr ⟨first.number, second.number,
    (first.value_eq number same).trans (second.value_eq number same).symm⟩

/-- Of equal doubles only zeros can be different ones, and then the difference is exact. -/
theorem sub_beq_sub
    {x y u v : Float}
    (xFinite : x.isFinite = true)
    (yFinite : y.isFinite = true)
    (minuends : (x == u) = true)
    (subtrahends : (y == v) = true) :
    (x - y == u - v) = true := by
  have uFinite := isFinite_of_beq xFinite minuends
  have vFinite := isFinite_of_beq yFinite subtrahends
  have left : (x - y == u - y) = true := by
    have rounds := rounds_sub xFinite yFinite
    by_cases zero : value x = 0
    · have others := rounds_sub uFinite yFinite
      rw [← (beq_iff.mp minuends).2.2] at others
      rw [zero, zero_sub, ← value_neg (isNaN_of_isFinite yFinite)] at rounds others
      exact rounds.beq_of_value_eq others (isNaN_neg (isNaN_of_isFinite yFinite)) rfl
    · rw [← eq_of_beq minuends zero]
      exact beq_self rounds.number
  have right : (u - y == u - v) = true := by
    have rounds := rounds_sub uFinite yFinite
    by_cases zero : value y = 0
    · have others := rounds_sub uFinite vFinite
      rw [← (beq_iff.mp subtrahends).2.2] at others
      rw [zero, sub_zero] at rounds others
      exact rounds.beq_of_value_eq others (isNaN_of_isFinite uFinite) rfl
    · rw [← eq_of_beq subtrahends zero]
      exact beq_self rounds.number
  exact BEq.trans left right

/-- Different natural numbers are at least one apart, also as doubles. -/
theorem one_le_abs_sub_ofNat
    {first second : Nat}
    (less : first < second)
    (small : second ≤ 2 ^ 53) :
    1.0 ≤ (Float.ofNat first - Float.ofNat second).abs := by
  have firstFinite := @isFinite_ofNat first (by omega)
  have secondFinite := @isFinite_ofNat second (by omega)
  have rounds := rounds_sub firstFinite secondFinite
  rw [value_ofNat (less.le.trans small), value_ofNat small] at rounds
  have oneMore : (first : ℚ) + 1 ≤ second := by exact_mod_cast less
  have minusOne : value (-1.0) = -1 := by rw [value_neg isNaN_one, value_one]
  have atMost := rounds.atMost (-1.0) (isNaN_neg isNaN_one) (by linarith)
  rw [le_iff, value_one, value_abs rounds.number]
  exact ⟨isNaN_one, isNaN_abs rounds.number, le_abs.mpr (.inr (by linarith))⟩

end LayerPlayback.Binary64
