import LayerPlayback.Proofs.Number.Nearest

namespace LayerPlayback.Binary64

/-!
# Sums that do not overflow

A sum is rounded, but not past a double that lies beyond it.  So a sum of doubles that
are no larger than so many units each is no larger than all these units together, as
long as that count of units is a double.  With units of `2 ^ 970`, counts up to `2 ^ 53`
are far from the infinities.
-/

/-- Whether a double is finite and no larger than a count of units of `2 ^ 970`. -/
structure IsWithin (count : Nat) (x : Float) : Prop where
  finite : x.isFinite = true
  size : |value x| ≤ scaled count 970

theorem scaled_add (first second : Nat) (exponent : Int) :
    scaled (first + second) exponent = scaled first exponent + scaled second exponent := by
  simp only [scaled, Nat.cast_add, add_mul]

theorem scaled_le_scaled {first second : Nat} (atMost : first ≤ second) (exponent : Int) :
    scaled first exponent ≤ scaled second exponent := by
  unfold scaled
  gcongr

/-- Rounding does not lead past a double, on either side of zero. -/
theorem Rounds.abs_value_le
    {exact : ℚ}
    {x y : Float}
    (rounds : Rounds exact x)
    (number : y.isNaN = false)
    (size : |exact| ≤ value y) :
    |value x| ≤ value y := by
  rw [abs_le] at size ⊢
  have lower : value (-y) ≤ value x :=
    rounds.atLeast (-y) (isNaN_neg number) (by rw [value_neg number]; exact size.1)
  rw [value_neg number] at lower
  exact ⟨lower, rounds.atMost y number size.2⟩

/-- Up to `2 ^ 53`, counts of the unit stay below an infinity. -/
theorem scaled_lt_infinityValue_of_le {count : Nat} (small : count ≤ 2 ^ 53) :
    scaled count 970 < infinityValue := by
  calc
    scaled count 970 ≤ scaled (2 ^ 53) 970 := scaled_le_scaled small 970
    _ = scaled (2 ^ 52) 971 := by
      rw [pow_succ, ← pow_one 2, scaled_mul_two_pow]
      norm_num
    _ < infinityValue :=
      scaled_lt_infinityValue ⟨by norm_num, by norm_num, .inl le_rfl⟩ le_rfl

/-- A count of units is a double itself, so rounding does not lead past it. -/
theorem isWithin_of_rounds
    {exact : ℚ}
    {count : Nat}
    {x : Float}
    (small : count ≤ 2 ^ 53)
    (rounds : Rounds exact x)
    (size : |exact| ≤ scaled count 970) :
    IsWithin count x := by
  obtain ⟨y, number, same⟩ :=
    exists_value_eq_units small (by norm_num : -1074 ≤ (970 : Int)) (by norm_num)
  have bounded : |value x| ≤ scaled count 970 := by
    rw [← same] at size ⊢
    exact rounds.abs_value_le number size
  exact ⟨isFinite_iff.mpr
    ⟨rounds.number, bounded.trans_lt (scaled_lt_infinityValue_of_le small)⟩, bounded⟩

theorem isWithin_zero : IsWithin 0 0.0 where
  finite := rfl
  size := by
    rw [scaled, Nat.cast_zero, zero_mul]
    exact abs_zero.le

namespace IsWithin

variable {first second : Nat} {x y : Float}

/-- More units leave more room. -/
theorem mono (within : IsWithin first x) (atMost : first ≤ second) : IsWithin second x :=
  ⟨within.finite, within.size.trans (scaled_le_scaled atMost 970)⟩

/-- A sum is within the units of both its terms. -/
theorem add
    (xWithin : IsWithin first x)
    (yWithin : IsWithin second y)
    (small : first + second ≤ 2 ^ 53) :
    IsWithin (first + second) (x + y) := by
  refine isWithin_of_rounds small (rounds_add xWithin.finite yWithin.finite) ?_
  calc
    |value x + value y| ≤ |value x| + |value y| := abs_add_le _ _
    _ ≤ scaled first 970 + scaled second 970 := add_le_add xWithin.size yWithin.size
    _ = scaled (first + second) 970 := (scaled_add first second 970).symm

theorem neg (within : IsWithin first x) : IsWithin first (-x) := by
  have number := isNaN_of_isFinite within.finite
  refine ⟨isFinite_neg number within.finite, ?_⟩
  rw [value_neg number, abs_neg]
  exact within.size

theorem sub
    (xWithin : IsWithin first x)
    (yWithin : IsWithin second y)
    (small : first + second ≤ 2 ^ 53) :
    IsWithin (first + second) (x - y) := by
  rw [sub_eq_add_neg (isNaN_of_isFinite yWithin.finite)]
  exact xWithin.add yWithin.neg small

end IsWithin

end LayerPlayback.Binary64
