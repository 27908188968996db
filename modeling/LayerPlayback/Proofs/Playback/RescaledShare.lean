import LayerPlayback.Playback.Cursor
import LayerPlayback.Proofs.Number.RoundingError

namespace LayerPlayback.ViewCursor

/-!
# Shares of rescaled cursors

Rescaling divides and multiplies, and both results are rounded.  So the share of a
cursor that stands at a whole number of segments is kept to within one segment.  A
share that is not whole itself gives all its whole segments, for counts of practical
size.  A whole share loses its last segment exactly if the rounded product falls below
it, which does not happen when the quotient is not rounded down.
-/

open Binary64 (Rounds value)

/-- A cursor at a whole number of segments, of a count that is exact as a double. -/
structure StandsAt (cursor : ViewCursor) (progress : Nat) : Prop where
  nonempty : 0 < cursor.progressMax
  exact : cursor.progressMax ≤ 2 ^ 53
  isWhole : (cursor.progress == Float.ofNat progress) = true
  within : progress ≤ cursor.progressMax

/-- How many whole segments a share is of another count. -/
def wholeShare (cursor : ViewCursor) (progress count : Nat) : Nat :=
  progress * count / cursor.progressMax

/-- What a cursor keeps of its share when it is rescaled. -/
structure KeepsShare (cursor : ViewCursor) (progress count : Nat) : Prop where
  /-- No more than one segment is missing, and no more than one is revealed too early. -/
  close :
    (cursor.rescale count).revealed ≤ cursor.wholeShare progress count + 1 ∧
      cursor.wholeShare progress count ≤ (cursor.rescale count).revealed + 1
  /-- A share with a part of a segment gives all its whole segments and no more. -/
  broken :
    ¬ cursor.progressMax ∣ progress * count →
      progress * count < 2 ^ 52 →
        (cursor.rescale count).revealed = cursor.wholeShare progress count
  /-- A whole share is kept, unless the rounded product falls below it; then one is missing. -/
  whole :
    cursor.progressMax ∣ progress * count →
      (cursor.rescale count).revealed =
        if (cursor.rescale count).progress < Float.ofNat (cursor.wholeShare progress count) then
          cursor.wholeShare progress count - 1
        else
          cursor.wholeShare progress count
  /-- That does not happen when the quotient is not rounded down. -/
  quotient :
    cursor.progressMax ∣ progress * count →
      (progress : ℚ) / cursor.progressMax ≤ value cursor.fraction →
        (cursor.rescale count).revealed = cursor.wholeShare progress count

section Shares

variable {cursor : ViewCursor} {progress count : Nat} (stands : cursor.StandsAt progress)

include stands

/-! ## The quotient -/

/-- A progress that counts segments has exactly their number as its value. -/
theorem StandsAt.value_progress :
    cursor.progress.isFinite = true ∧ value cursor.progress = progress := by
  obtain ⟨number, _, same⟩ := Binary64.beq_iff.mp stands.isWhole
  have small : progress ≤ 2 ^ 53 := stands.within.trans stands.exact
  rw [Binary64.value_ofNat small] at same
  exact ⟨Binary64.isFinite_of_value_eq_natCast number same (small.trans_lt (by norm_num)), same⟩

theorem StandsAt.cast_pos : (0 : ℚ) < cursor.progressMax := by
  exact_mod_cast stands.nonempty

theorem StandsAt.quotient_le_one : (progress : ℚ) / cursor.progressMax ≤ 1 :=
  div_le_one_of_le₀ (by exact_mod_cast stands.within) stands.cast_pos.le

/-- The fraction is the quotient, rounded. -/
theorem StandsAt.rounds_fraction :
    Rounds ((progress : ℚ) / cursor.progressMax) cursor.fraction := by
  obtain ⟨finite, same⟩ := stands.value_progress
  have countFinite := Binary64.isFinite_ofNat (stands.exact.trans_lt (by norm_num))
  have countValue := Binary64.value_ofNat stands.exact
  have rounds := Binary64.rounds_div finite countFinite (countValue ▸ stands.cast_pos.ne')
  rw [same, countValue] at rounds
  rw [fraction, if_neg stands.nonempty.ne']
  exact rounds

/-- A fraction of at most the whole is rounded to one of at most the whole. -/
theorem StandsAt.fraction_inRange :
    0 ≤ value cursor.fraction ∧ value cursor.fraction ≤ 1 := by
  have nonneg := stands.rounds_fraction.atLeast 0.0 rfl (div_nonneg (by positivity) (by positivity))
  have atMost := stands.rounds_fraction.atMost 1.0 rfl
    (stands.quotient_le_one.trans_eq Binary64.value_one.symm)
  exact ⟨nonneg, atMost.trans_eq Binary64.value_one⟩

/-- Numbers up to one are rounded by at most `2 ^ -54`. -/
theorem StandsAt.abs_fraction_sub_le :
    |value cursor.fraction - (progress : ℚ) / cursor.progressMax| ≤ 1 / 2 ^ 54 := by
  have one : Binary64.scaled (2 ^ 53) (-53) = 1 := by norm_num [Binary64.scaled]
  have halfUnit := stands.rounds_fraction.abs_sub_le_half_unit (by norm_num) (by norm_num)
    (div_nonneg (by positivity) (by positivity)) (stands.quotient_le_one.trans_eq one.symm)
  exact halfUnit.trans_eq (by norm_num)

/-- A share that is not empty is far from the smallest doubles. -/
theorem StandsAt.two_pow_le_quotient (started : 0 < progress) :
    (2 : ℚ) ^ (-53 : Int) ≤ progress / cursor.progressMax := by
  have castStarted : (1 : ℚ) ≤ progress := by exact_mod_cast started
  have castExact : (cursor.progressMax : ℚ) ≤ 2 ^ 53 := by exact_mod_cast stands.exact
  calc
    (2 : ℚ) ^ (-53 : Int) = 1 / 2 ^ 53 := by norm_num
    _ ≤ progress / cursor.progressMax :=
      div_le_div₀ (by positivity) castStarted stands.cast_pos castExact

/-- Relative to the quotient, the fraction is off by at most `2 ^ -53`. -/
theorem StandsAt.abs_fraction_sub_le_relative :
    |value cursor.fraction - (progress : ℚ) / cursor.progressMax| ≤
      (progress : ℚ) / cursor.progressMax / 2 ^ 53 := by
  rcases Nat.eq_zero_or_pos progress with rfl | started
  · have rounds := stands.rounds_fraction
    rw [Nat.cast_zero, zero_div] at rounds ⊢
    rw [rounds.value_eq Binary64.isNaN_zero rfl]
    norm_num
  · have normal : (2 : ℚ) ^ (-1022 : Int) ≤ 2 ^ (-53 : Int) :=
      zpow_le_zpow_right₀ one_le_two (by norm_num)
    exact stands.rounds_fraction.abs_sub_le_of_pos
      (normal.trans (stands.two_pow_le_quotient started))
      (stands.quotient_le_one.trans_lt (one_lt_pow₀ one_lt_two (by norm_num)))

/-- Relative to the exact product, that of the fraction is off by at most `2 ^ -53`. -/
theorem StandsAt.abs_product_sub_le_relative (count : Nat) :
    |value cursor.fraction * count * cursor.progressMax - progress * count| ≤
      (progress * count : ℚ) / 2 ^ 53 := by
  have error := stands.abs_fraction_sub_le_relative
  have positive := stands.cast_pos
  have nonneg : (0 : ℚ) ≤ count * cursor.progressMax := by positivity
  calc
    |value cursor.fraction * count * cursor.progressMax - progress * count| =
        |(value cursor.fraction - (progress : ℚ) / cursor.progressMax)
          * (count * cursor.progressMax)| := by
      congr 1
      field_simp
    _ = |value cursor.fraction - (progress : ℚ) / cursor.progressMax|
          * (count * cursor.progressMax) := by
      rw [abs_mul, abs_of_nonneg nonneg]
    _ ≤ (progress : ℚ) / cursor.progressMax / 2 ^ 53 * (count * cursor.progressMax) := by
      gcongr
    _ = (progress * count : ℚ) / 2 ^ 53 := by field_simp

/-! ## The product -/

variable (small : count ≤ 2 ^ 53)

include small

/-- Counts up to `2 ^ 53` make at most half a segment of the quotient's error. -/
theorem StandsAt.abs_product_sub_le :
    |value cursor.fraction * count - (progress * count : ℚ) / cursor.progressMax| ≤ 1 / 2 := by
  have castSmall : (count : ℚ) ≤ 2 ^ 53 := by exact_mod_cast small
  calc
    |value cursor.fraction * count - (progress * count : ℚ) / cursor.progressMax| =
        |value cursor.fraction - (progress : ℚ) / cursor.progressMax| * count := by
      rw [mul_div_right_comm, ← sub_mul, abs_mul, Nat.abs_cast]
    _ ≤ 1 / 2 ^ 54 * 2 ^ 53 := by
      have := stands.abs_fraction_sub_le
      gcongr
    _ = 1 / 2 := by norm_num

variable (changed : count ≠ cursor.progressMax)

include changed

/-- The rescaled progress is the exact product, rounded once more. -/
theorem StandsAt.rounds_rescale :
    Rounds (value cursor.fraction * count) (cursor.rescale count).progress := by
  obtain ⟨nonneg, atMost⟩ := stands.fraction_inRange
  have finite : cursor.fraction.isFinite = true := by
    rw [Binary64.isFinite_iff, abs_of_nonneg nonneg]
    exact ⟨stands.rounds_fraction.number,
      atMost.trans_lt (one_lt_pow₀ one_lt_two (by norm_num))⟩
  have rounds :=
    Binary64.rounds_mul finite (Binary64.isFinite_ofNat (small.trans_lt (by norm_num)))
  rw [Binary64.value_ofNat small] at rounds
  rw [rescale, if_neg changed]
  exact rounds

/-- Up to `2 ^ 53`, rounding the product is wrong by a half at most. -/
theorem StandsAt.abs_progress_rescale_sub_le :
    |value (cursor.rescale count).progress - value cursor.fraction * count| ≤ 1 / 2 := by
  obtain ⟨nonneg, atMost⟩ := stands.fraction_inRange
  have castSmall : (count : ℚ) ≤ 2 ^ 53 := by exact_mod_cast small
  have largest : value cursor.fraction * count ≤ Binary64.scaled (2 ^ 53) 0 := by
    rw [Binary64.scaled, zpow_zero, mul_one, Nat.cast_pow, Nat.cast_ofNat]
    exact (mul_le_of_le_one_left (Nat.cast_nonneg count) atMost).trans castSmall
  have halfUnit := (stands.rounds_rescale small changed).abs_sub_le_half_unit (by norm_num)
    (by norm_num) (mul_nonneg nonneg (Nat.cast_nonneg count)) largest
  rwa [zpow_zero] at halfUnit

theorem StandsAt.progress_rescale_nonneg : 0 ≤ value (cursor.rescale count).progress :=
  (stands.rounds_rescale small changed).atLeast 0.0 rfl
    (mul_nonneg stands.fraction_inRange.1 (Nat.cast_nonneg count))

/-- A whole number that the exact product reaches is reached by the rounded one. -/
theorem StandsAt.le_progress_rescale
    {segments : Nat}
    (exact : segments ≤ 2 ^ 53)
    (reached : (segments : ℚ) ≤ value cursor.fraction * count) :
    (segments : ℚ) ≤ value (cursor.rescale count).progress := by
  have same := Binary64.value_ofNat exact
  have := (stands.rounds_rescale small changed).atLeast (Float.ofNat segments)
    (Binary64.isNaN_ofNat segments) (same.trans_le reached)
  rwa [same] at this

/-- What is revealed are the whole segments of the rescaled progress. -/
theorem StandsAt.revealed_rescale_eq
    {segments : Nat}
    (fits : segments < 2 ^ 64)
    (atLeast : (segments : ℚ) ≤ value (cursor.rescale count).progress)
    (below : value (cursor.rescale count).progress < segments + 1) :
    (cursor.rescale count).revealed = segments :=
  Binary64.wholeUnits_eq (stands.rounds_rescale small changed).number atLeast below fits

/-- Relative to the product, the new progress is off by at most `2 ^ -53`. -/
theorem StandsAt.abs_progress_rescale_sub_le_relative
    (started : 0 < progress)
    (positive : 0 < count) :
    |value (cursor.rescale count).progress - value cursor.fraction * count| ≤
      value cursor.fraction * count / 2 ^ 53 := by
  have castPositive : (1 : ℚ) ≤ count := by exact_mod_cast positive
  have castSmall : (count : ℚ) ≤ 2 ^ 53 := by exact_mod_cast small
  have fractionLeast := stands.rounds_fraction.two_pow_le (by norm_num) (by norm_num)
    (stands.two_pow_le_quotient started)
  obtain ⟨nonneg, atMost⟩ := stands.fraction_inRange
  refine (stands.rounds_rescale small changed).abs_sub_le_of_pos ?_ ?_
  · calc
      (2 : ℚ) ^ (-1022 : Int) ≤ 2 ^ (-53 : Int) :=
        zpow_le_zpow_right₀ one_le_two (by norm_num)
      _ ≤ value cursor.fraction * count :=
        fractionLeast.trans (le_mul_of_one_le_right nonneg castPositive)
  · calc
      value cursor.fraction * count ≤ 2 ^ 53 :=
        (mul_le_of_le_one_left (Nat.cast_nonneg count) atMost).trans castSmall
      _ < Binary64.infinityValue := pow_lt_pow_right₀ one_lt_two (by norm_num)

end Shares

/-! ## Whole segments -/

section Segments

variable {cursor : ViewCursor} {progress count : Nat}

theorem StandsAt.wholeShare_le (stands : cursor.StandsAt progress) (count : Nat) :
    cursor.wholeShare progress count ≤ count :=
  Nat.div_le_of_le_mul (Nat.mul_le_mul_right count stands.within)

/-- The whole share is the exact share without its fraction. -/
theorem wholeShare_eq_floor (cursor : ViewCursor) (progress count : Nat) :
    cursor.wholeShare progress count = ⌊(progress * count : ℚ) / cursor.progressMax⌋₊ := by
  rw [wholeShare, ← Nat.floor_div_eq_div (K := ℚ), Nat.cast_mul]

theorem StandsAt.cast_wholeShare
    (stands : cursor.StandsAt progress)
    (isWhole : cursor.progressMax ∣ progress * count) :
    (cursor.wholeShare progress count : ℚ) = (progress * count : ℚ) / cursor.progressMax := by
  rw [wholeShare, Nat.cast_div isWhole stands.cast_pos.ne', Nat.cast_mul]

/-- Half a segment more than a whole share is too much for the rounded quotient. -/
theorem StandsAt.product_ne_half
    (stands : cursor.StandsAt progress)
    (small : count ≤ 2 ^ 53)
    (isWhole : cursor.progressMax ∣ progress * count) :
    value cursor.fraction * count ≠ cursor.wholeShare progress count + 1 / 2 := by
  intro atHalf
  have exactShare := stands.cast_wholeShare isWhole
  rcases small.lt_or_eq with less | full
  · have castLess : (count : ℚ) < 2 ^ 53 := by exact_mod_cast less
    have error := (abs_le.mp stands.abs_fraction_sub_le).2
    have missed :
        (value cursor.fraction - (progress : ℚ) / cursor.progressMax) * count = 1 / 2 := by
      rw [sub_mul, atHalf, exactShare]
      ring
    have tooLittle :
        (value cursor.fraction - (progress : ℚ) / cursor.progressMax) * count < 1 / 2 := by
      calc
        (value cursor.fraction - (progress : ℚ) / cursor.progressMax) * count ≤
            1 / 2 ^ 54 * count := by gcongr
        _ < 1 / 2 := by linarith
    exact tooLittle.ne missed
  · -- The quotient is the share in units of `2 ^ -53`, so it is not rounded at all.
    have castFull : (count : ℚ) = 2 ^ 53 := by rw [full, Nat.cast_pow, Nat.cast_ofNat]
    obtain ⟨exact, number, same⟩ :=
      Binary64.exists_value_eq_units ((stands.wholeShare_le count).trans small)
        (by norm_num : -1074 ≤ (-53 : Int)) (by norm_num)
    have isQuotient :
        Binary64.scaled (cursor.wholeShare progress count) (-53) =
          (progress : ℚ) / cursor.progressMax := by
      rw [Binary64.scaled, exactShare, castFull]
      norm_num
      ring
    have unrounded := stands.rounds_fraction.value_eq number (same.trans isQuotient)
    rw [unrounded, exactShare] at atHalf
    have : (progress : ℚ) / cursor.progressMax * count = progress * count / cursor.progressMax := by
      ring
    linarith

variable
  (stands : cursor.StandsAt progress)
  (small : count ≤ 2 ^ 53)
  (changed : count ≠ cursor.progressMax)

include stands small changed

/-- Half a segment for the quotient and half a segment for the product make one. -/
theorem StandsAt.revealed_rescale_close :
    (cursor.rescale count).revealed ≤ cursor.wholeShare progress count + 1 ∧
      cursor.wholeShare progress count ≤ (cursor.rescale count).revealed + 1 := by
  have quotientError := abs_le.mp (stands.abs_product_sub_le small)
  have productError := abs_le.mp (stands.abs_progress_rescale_sub_le small changed)
  have nonneg := stands.progress_rescale_nonneg small changed
  have exactNonneg : (0 : ℚ) ≤ (progress * count : ℚ) / cursor.progressMax := by positivity
  have atLeast := Nat.floor_le exactNonneg
  have below := Nat.lt_floor_add_one ((progress * count : ℚ) / cursor.progressMax)
  have segmentsAtLeast := Nat.floor_le nonneg
  have segmentsBelow := Nat.lt_floor_add_one (value (cursor.rescale count).progress)
  rw [← wholeShare_eq_floor] at atLeast below
  have upper :
      ⌊value (cursor.rescale count).progress⌋₊ < cursor.wholeShare progress count + 2 := by
    have : (⌊value (cursor.rescale count).progress⌋₊ : ℚ) <
        cursor.wholeShare progress count + 2 := by linarith
    exact_mod_cast this
  have lower :
      cursor.wholeShare progress count < ⌊value (cursor.rescale count).progress⌋₊ + 2 := by
    have : (cursor.wholeShare progress count : ℚ) <
        ⌊value (cursor.rescale count).progress⌋₊ + 2 := by linarith
    exact_mod_cast this
  have shareFits := stands.wholeShare_le count
  have revealed :=
    stands.revealed_rescale_eq small changed (by omega) segmentsAtLeast segmentsBelow
  rw [revealed]
  omega

/-- Both errors together are less than the part of a segment that is missing to the next one. -/
theorem StandsAt.revealed_rescale_of_not_dvd
    (notWhole : ¬ cursor.progressMax ∣ progress * count)
    (practical : progress * count < 2 ^ 52) :
    (cursor.rescale count).revealed = cursor.wholeShare progress count := by
  have started : 0 < progress := Nat.pos_of_ne_zero fun isZero => notWhole (by simp [isZero])
  have positive : 0 < count := Nat.pos_of_ne_zero fun isZero => notWhole (by simp [isZero])
  have divided := Nat.div_add_mod (progress * count) cursor.progressMax
  have remainderPositive : 0 < progress * count % cursor.progressMax :=
    Nat.pos_of_ne_zero fun isZero => notWhole (Nat.dvd_of_mod_eq_zero isZero)
  have remainderBelow := Nat.mod_lt (progress * count) stands.nonempty
  -- What is no whole share is at least one part of a segment away from the shares around it.
  have afterShare :
      cursor.wholeShare progress count * cursor.progressMax + 1 ≤ progress * count := by
    rw [wholeShare, Nat.mul_comm]
    omega
  have beforeNext :
      progress * count + 1 ≤ (cursor.wholeShare progress count + 1) * cursor.progressMax := by
    rw [wholeShare, Nat.add_one_mul, Nat.mul_comm _ cursor.progressMax]
    omega
  have castAfter :
      (cursor.wholeShare progress count : ℚ) * cursor.progressMax + 1 ≤ progress * count := by
    exact_mod_cast afterShare
  have castBefore :
      (progress * count : ℚ) + 1 ≤
        (cursor.wholeShare progress count + 1) * cursor.progressMax := by
    exact_mod_cast beforeNext
  have castPractical : (progress * count : ℚ) + 1 ≤ 2 ^ 52 := by exact_mod_cast practical
  have quotientError := abs_le.mp (stands.abs_product_sub_le_relative count)
  have productError :=
    abs_le.mp (stands.abs_progress_rescale_sub_le_relative small changed started positive)
  have shareFits := stands.wholeShare_le count
  refine stands.revealed_rescale_eq small changed (by omega) ?_ ?_
  · refine stands.le_progress_rescale small changed (by omega) ?_
    refine le_of_mul_le_mul_right ?_ stands.cast_pos
    linarith
  · refine lt_of_mul_lt_mul_right ?_ stands.cast_pos.le
    calc
      value (cursor.rescale count).progress * cursor.progressMax ≤
          (value cursor.fraction * count + value cursor.fraction * count / 2 ^ 53)
            * cursor.progressMax := by
        have := stands.cast_pos
        gcongr
        linarith
      _ = value cursor.fraction * count * cursor.progressMax * (1 + 1 / 2 ^ 53) := by ring
      _ ≤ (progress * count + progress * count / 2 ^ 53) * (1 + 1 / 2 ^ 53) := by
        gcongr
        linarith
      _ < progress * count + 1 := by linarith
      _ ≤ (cursor.wholeShare progress count + 1) * cursor.progressMax := castBefore

/-- Of a whole share no more than itself is revealed. -/
theorem StandsAt.progress_rescale_lt
    (isWhole : cursor.progressMax ∣ progress * count) :
    value (cursor.rescale count).progress < cursor.wholeShare progress count + 1 := by
  have quotientError := stands.abs_product_sub_le small
  rw [← stands.cast_wholeShare isWhole, abs_sub_comm] at quotientError
  have nearer := (stands.rounds_rescale small changed).nearest _
    (Binary64.isNaN_ofNat (cursor.wholeShare progress count))
  rw [Binary64.value_ofNat ((stands.wholeShare_le count).trans small)] at nearer
  have productError := (abs_le.mp (nearer.trans quotientError)).2
  have notAbove := (abs_le.mp quotientError).1
  refine lt_of_not_ge fun reached => stands.product_ne_half small isWhole ?_
  linarith

/-- A whole share loses at most one segment. -/
theorem StandsAt.le_progress_rescale_add_one
    (isWhole : cursor.progressMax ∣ progress * count) :
    ((cursor.wholeShare progress count - 1 : Nat) : ℚ) ≤
      value (cursor.rescale count).progress := by
  have shareSmall := (stands.wholeShare_le count).trans small
  rcases Nat.eq_zero_or_pos (cursor.wholeShare progress count) with isZero | positive
  · rw [isZero, Nat.zero_sub, Nat.cast_zero]
    exact stands.progress_rescale_nonneg small changed
  · have quotientError := (abs_le.mp (stands.abs_product_sub_le small)).1
    rw [← stands.cast_wholeShare isWhole] at quotientError
    refine stands.le_progress_rescale small changed (by omega) ?_
    rw [Nat.cast_sub positive, Nat.cast_one]
    linarith

/-- A whole share is kept or loses one segment, as the rounded product says. -/
theorem StandsAt.revealed_rescale_of_dvd
    (isWhole : cursor.progressMax ∣ progress * count) :
    (cursor.rescale count).revealed =
      if (cursor.rescale count).progress < Float.ofNat (cursor.wholeShare progress count) then
        cursor.wholeShare progress count - 1
      else
        cursor.wholeShare progress count := by
  have shareSmall := (stands.wholeShare_le count).trans small
  have rounds := stands.rounds_rescale small changed
  have shareDouble := Binary64.value_ofNat shareSmall
  have shareNumber := Binary64.isNaN_ofNat (cursor.wholeShare progress count)
  split
  case isTrue less =>
    have below := (Binary64.lt_iff.mp less).2.2
    rw [shareDouble] at below
    have positive : 0 < cursor.wholeShare progress count := by
      have nonneg := stands.progress_rescale_nonneg small changed
      exact_mod_cast nonneg.trans_lt below
    refine stands.revealed_rescale_eq small changed (by omega)
      (stands.le_progress_rescale_add_one small changed isWhole) ?_
    rw [Nat.cast_sub positive, Nat.cast_one]
    linarith
  case isFalse notLess =>
    refine stands.revealed_rescale_eq small changed (by omega) ?_
      (stands.progress_rescale_lt small changed isWhole)
    refine not_lt.mp fun below => notLess ?_
    exact Binary64.lt_iff.mpr ⟨rounds.number, shareNumber, shareDouble.symm ▸ below⟩

/-- Nothing of a whole share is lost if the quotient is not rounded down. -/
theorem StandsAt.revealed_rescale_of_le_fraction
    (isWhole : cursor.progressMax ∣ progress * count)
    (notLess : (progress : ℚ) / cursor.progressMax ≤ value cursor.fraction) :
    (cursor.rescale count).revealed = cursor.wholeShare progress count := by
  have shareSmall := (stands.wholeShare_le count).trans small
  refine stands.revealed_rescale_eq small changed (by omega) ?_
    (stands.progress_rescale_lt small changed isWhole)
  refine stands.le_progress_rescale small changed shareSmall ?_
  rw [stands.cast_wholeShare isWhole, mul_div_right_comm]
  gcongr

end Segments

/-! ## All rescalings -/

/-- Nothing changes for a cursor that has the new count already. -/
theorem StandsAt.keepsShare_self
    {cursor : ViewCursor}
    {progress : Nat}
    (stands : cursor.StandsAt progress) :
    cursor.KeepsShare progress cursor.progressMax := by
  obtain ⟨finite, same⟩ := stands.value_progress
  have number := Binary64.isNaN_of_isFinite finite
  have small := stands.within.trans stands.exact
  have isShare : cursor.wholeShare progress cursor.progressMax = progress :=
    Nat.mul_div_cancel progress stands.nonempty
  have unchanged : cursor.rescale cursor.progressMax = cursor := if_pos rfl
  have revealed : cursor.revealed = progress :=
    Binary64.wholeUnits_eq number same.ge (same.trans_lt (lt_add_one _)) (by omega)
  have notLess : ¬ cursor.progress < Float.ofNat progress := by
    intro less
    have below := (Binary64.lt_iff.mp less).2.2
    rw [same, Binary64.value_ofNat small] at below
    exact below.false
  constructor <;> rw [unchanged, isShare, revealed]
  case close => exact ⟨Nat.le_succ _, Nat.le_succ _⟩
  case broken => exact fun _ _ => rfl
  case whole => exact fun _ => (if_neg notLess).symm
  case quotient => exact fun _ _ => rfl

/-- Rescaling keeps a share to within one segment, and exactly where rounding allows it. -/
theorem keepsShare_rescale
    {cursor : ViewCursor}
    {progress count : Nat}
    (stands : cursor.StandsAt progress)
    (small : count ≤ 2 ^ 53) :
    cursor.KeepsShare progress count := by
  by_cases same : count = cursor.progressMax
  · exact same ▸ stands.keepsShare_self
  · exact {
      close := stands.revealed_rescale_close small same
      broken := stands.revealed_rescale_of_not_dvd small same
      whole := stands.revealed_rescale_of_dvd small same
      quotient := stands.revealed_rescale_of_le_fraction small same
    }

/-- Three of eleven segments are two of ten, not counting the part of a third one. -/
theorem keepsShare_rescale_elevenths :
    let cursor : ViewCursor := ((ofWindow (.between 0.0 0.0)).rescale 11).setProgress 3.0
    cursor.StandsAt 3 ∧ cursor.KeepsShare 3 10 ∧ (cursor.rescale 10).revealed = 2 := by
  intro cursor
  have stands : cursor.StandsAt 3 := by
    constructor <;> decide +kernel
  have keeps : cursor.KeepsShare 3 10 := keepsShare_rescale stands (by norm_num)
  have broken : ¬ cursor.progressMax ∣ 3 * 10 := by decide
  have share : cursor.wholeShare 3 10 = 2 := by decide
  exact ⟨stands, keeps, (keeps.broken broken (by norm_num)).trans share⟩

/-- Three of eleven segments are fifteen of fifty-five, but only fourteen are revealed. -/
theorem revealed_rescale_lossy :
    let cursor : ViewCursor := ((ofWindow (.between 0.0 0.0)).rescale 11).setProgress 3.0
    cursor.StandsAt 3 ∧ cursor.wholeShare 3 55 = 15 ∧ (cursor.rescale 55).revealed = 14 := by
  refine ⟨?_, rfl, by decide +kernel⟩
  constructor <;> decide +kernel

end LayerPlayback.ViewCursor
