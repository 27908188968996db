import LayerPlayback.Proofs.Number.Value

namespace LayerPlayback.Binary64

/-!
# Rounding leads to a nearest double

No double is nearer to the exact number than the rounded one.  So rounding never
passes a double: one that is at most the exact number is at most the rounded one, and
one that is at least the exact number is at least the rounded one.  Doubles are kept
as they are, and bounds that are doubles carry over from exact results to rounded ones.
-/

open Float.Model
open Float.Model.UnpackedFloat (Sign ExtendedMantissa Accuracy)

/-- What is as near as a number below the exact one does not lie below that number. -/
theorem le_of_abs_sub_le
    {exact x y : ℚ}
    (near : |x - exact| ≤ |y - exact|)
    (atMost : y ≤ exact) :
    y ≤ x := by
  rw [abs_of_nonpos (sub_nonpos.mpr atMost), abs_le] at near
  linarith

/-- What is as near as a number above the exact one does not lie above that number. -/
theorem ge_of_abs_sub_le
    {exact x y : ℚ}
    (near : |x - exact| ≤ |y - exact|)
    (atLeast : exact ≤ y) :
    x ≤ y := by
  rw [abs_of_nonneg (sub_nonneg.mpr atLeast), abs_le] at near
  linarith

/-- No whole number is nearer than one that is at most a half away. -/
theorem abs_sub_le_of_half
    {exact : ℚ}
    {rounded : Nat}
    (near : |(rounded : ℚ) - exact| ≤ 1 / 2)
    (whole : Nat) :
    |(rounded : ℚ) - exact| ≤ |(whole : ℚ) - exact| := by
  rcases eq_or_ne whole rounded with rfl | different
  · exact le_rfl
  · have apart : (1 : ℚ) ≤ |(whole : ℚ) - rounded| := by
      have := Int.one_le_abs (sub_ne_zero.mpr (Int.natCast_inj.not.mpr different))
      exact_mod_cast this
    have detour := abs_sub_le (whole : ℚ) exact rounded
    rw [abs_sub_comm exact] at detour
    linarith

namespace Unpacked

/--
A mantissa with residual bits stands for a number that it is the whole part of.  The
round bit says whether what is left over reaches a half, and the sticky bit whether it
is neither nothing nor a half.
-/
structure StandsFor (extended : ExtendedMantissa) (exact : ℚ) : Prop where
  atLeast : (extended.mantissa : ℚ) ≤ exact
  below : exact < extended.mantissa + 1
  residue :
    exact = extended.mantissa ↔ extended.roundBit = false ∧ extended.stickyBit = false
  half : (extended.mantissa : ℚ) + 1 / 2 ≤ exact ↔ extended.roundBit = true
  middle :
    exact = extended.mantissa + 1 / 2 ↔
      extended.roundBit = true ∧ extended.stickyBit = false

/-- Dropping a bit halves the number that is stood for. -/
theorem StandsFor.shiftRightOne
    {extended : ExtendedMantissa}
    {exact : ℚ}
    (standsFor : StandsFor extended exact) :
    StandsFor extended.shiftRightOne (exact / 2) := by
  obtain ⟨mantissa, roundBit, stickyBit⟩ := extended
  obtain ⟨atLeast, below, residue, _, _⟩ := standsFor
  dsimp only at atLeast below residue
  have parts : (mantissa : ℚ) = 2 * (mantissa / 2 : Nat) + (mantissa % 2 : Nat) := by
    exact_mod_cast (Nat.div_add_mod mantissa 2).symm
  -- The dropped bit is the new round bit, so what it leaves over is that bit and the old rest.
  rcases Nat.mod_two_eq_zero_or_one mantissa with even | odd
  · rw [even, Nat.cast_zero, add_zero] at parts
    refine ⟨?_, ?_, ?_, ?_, ?_⟩
    · change ((mantissa / 2 : Nat) : ℚ) ≤ exact / 2
      linarith
    · change exact / 2 < ((mantissa / 2 : Nat) : ℚ) + 1
      linarith
    · have halves : exact / 2 = ((mantissa / 2 : Nat) : ℚ) ↔ exact = mantissa := by
        constructor <;> intro equal <;> linarith
      simpa [ExtendedMantissa.shiftRightOne, even] using halves.trans residue
    · have belowHalf : exact / 2 < ((mantissa / 2 : Nat) : ℚ) + 1 / 2 := by linarith
      simpa [ExtendedMantissa.shiftRightOne, even] using belowHalf
    · have notHalf : exact / 2 ≠ ((mantissa / 2 : Nat) : ℚ) + 1 / 2 := by
        intro equal
        linarith
      simpa [ExtendedMantissa.shiftRightOne, even] using notHalf
  · rw [odd, Nat.cast_one] at parts
    refine ⟨?_, ?_, ?_, ?_, ?_⟩
    · change ((mantissa / 2 : Nat) : ℚ) ≤ exact / 2
      linarith
    · change exact / 2 < ((mantissa / 2 : Nat) : ℚ) + 1
      linarith
    · have notHalf : exact / 2 ≠ ((mantissa / 2 : Nat) : ℚ) := by
        intro equal
        linarith
      simp [ExtendedMantissa.shiftRightOne, odd, notHalf]
    · have atLeastHalf : ((mantissa / 2 : Nat) : ℚ) + 1 / 2 ≤ exact / 2 := by linarith
      simpa [ExtendedMantissa.shiftRightOne, odd] using atLeastHalf
    · have halves : exact / 2 = ((mantissa / 2 : Nat) : ℚ) + 1 / 2 ↔ exact = mantissa := by
        constructor <;> intro equal <;> linarith
      simpa [ExtendedMantissa.shiftRightOne, odd] using halves.trans residue

/-- Dropping bits one by one divides by a power of two. -/
theorem StandsFor.shiftRight
    {extended : ExtendedMantissa}
    {exact : ℚ}
    (standsFor : StandsFor extended exact)
    (count : Nat) :
    StandsFor (extended >>> count) (exact / 2 ^ count) := by
  induction count with
  | zero =>
      rw [pow_zero, div_one]
      exact standsFor
  | succ count inductionHypothesis =>
      have halved := inductionHypothesis.shiftRightOne
      rw [div_div, ← pow_succ] at halved
      exact halved

/-- A mantissa without residual bits stands for itself. -/
theorem standsFor_natCast (mantissa : Nat) :
    StandsFor (.ofMantissaAndAccuracy mantissa .exact) mantissa where
  atLeast := le_rfl
  below := lt_add_one _
  residue := ⟨fun _ => ⟨rfl, rfl⟩, fun _ => rfl⟩
  half := by simp [ExtendedMantissa.ofMantissaAndAccuracy]
  middle := by simp [ExtendedMantissa.ofMantissaAndAccuracy]

/-- The rounded mantissa is at most a half away from what is stood for. -/
theorem StandsFor.abs_roundedMantissa_sub_le
    {extended : ExtendedMantissa}
    {exact : ℚ}
    (standsFor : StandsFor extended exact) :
    |(extended.roundedMantissa : ℚ) - exact| ≤ 1 / 2 := by
  obtain ⟨mantissa, roundBit, stickyBit⟩ := extended
  obtain ⟨atLeast, below, residue, half, middle⟩ := standsFor
  dsimp only at atLeast below residue half middle
  rw [abs_le]
  cases roundBit with
  | false =>
      have belowHalf : exact < mantissa + 1 / 2 := by simpa using half
      have rounded :
          ExtendedMantissa.roundedMantissa ⟨mantissa, false, stickyBit⟩ = mantissa := by
        cases stickyBit <;> rfl
      rw [rounded]
      constructor <;> linarith
  | true =>
      have atLeastHalf := half.mpr rfl
      cases stickyBit with
      | false =>
          have isHalf := middle.mpr ⟨rfl, rfl⟩
          change -(1 / 2) ≤ ((mantissa + mantissa % 2 : Nat) : ℚ) - exact ∧
            ((mantissa + mantissa % 2 : Nat) : ℚ) - exact ≤ 1 / 2
          rcases Nat.mod_two_eq_zero_or_one mantissa with even | odd
          · rw [even, Nat.add_zero]
            constructor <;> linarith
          · rw [odd, Nat.cast_add, Nat.cast_one]
            constructor <;> linarith
      | true =>
          change -(1 / 2) ≤ ((mantissa + 1 : Nat) : ℚ) - exact ∧
            ((mantissa + 1 : Nat) : ℚ) - exact ≤ 1 / 2
          rw [Nat.cast_add, Nat.cast_one]
          constructor <;> linarith

/-- The rounded mantissa passes no whole number. -/
theorem StandsFor.roundedMantissa
    {extended : ExtendedMantissa}
    {exact : ℚ}
    (standsFor : StandsFor extended exact)
    (whole : Nat) :
    ((whole : ℚ) ≤ exact → whole ≤ extended.roundedMantissa) ∧
      (exact ≤ whole → extended.roundedMantissa ≤ whole) := by
  have near := abs_sub_le_of_half standsFor.abs_roundedMantissa_sub_le whole
  exact ⟨fun atMost => Nat.cast_le.mp (le_of_abs_sub_le near atMost),
    fun atLeast => Nat.cast_le.mp (ge_of_abs_sub_le near atLeast)⟩

end Unpacked

/-- A size that no canonical size is nearer than to the exact one. -/
structure RoundsSize (exact rounded : ℚ) : Prop where
  nearest :
    ∀ mantissa exponent, IsCanonical mantissa exponent →
      |rounded - exact| ≤ |scaled mantissa exponent - exact|

/-- Powers of two move between mantissa and exponent. -/
theorem scaled_mul_two_pow (mantissa count : Nat) (exponent : Int) :
    scaled (mantissa * 2 ^ count) exponent = scaled mantissa (exponent + count) := by
  unfold scaled
  rw [zpow_add₀ two_ne_zero, zpow_natCast]
  push_cast
  ring

/-- A nearest whole number of units of a grid is a nearest canonical size. -/
theorem roundsSize_of_grid
    {exact : ℚ}
    {rounded : Nat}
    {unit : Int}
    (full : 2 ^ 52 ≤ exact ∨ unit = -1074)
    (near : |(rounded : ℚ) - exact| ≤ 1 / 2) :
    RoundsSize (exact * 2 ^ unit) (scaled rounded unit) := by
  have unitPositive : (0 : ℚ) < 2 ^ unit := by positivity
  have distance (whole : Nat) :
      |scaled whole unit - exact * 2 ^ unit| = |(whole : ℚ) - exact| * 2 ^ unit := by
    rw [scaled, ← sub_mul, abs_mul, abs_of_pos unitPositive]
  constructor
  intro mantissa exponent canonical
  -- A canonical size is a whole number of units, or it lies below all that is rounded here.
  by_cases onGrid : unit ≤ exponent
  · have same : scaled mantissa exponent =
        scaled (mantissa * 2 ^ (exponent - unit).toNat) unit := by
      rw [scaled_mul_two_pow]
      congr 1
      omega
    rw [same, distance, distance]
    have nearest := abs_sub_le_of_half near (mantissa * 2 ^ (exponent - unit).toNat)
    gcongr
  · have least := canonical.least
    have large : 2 ^ 52 ≤ exact := full.resolve_right (by omega)
    have below : scaled mantissa exponent < scaled (2 ^ 52) unit :=
      scaled_lt_of_exponent_lt canonical ⟨by norm_num, by omega, .inl le_rfl⟩ (by omega)
    have atMost : scaled (2 ^ 52) unit ≤ exact * 2 ^ unit := by
      rw [scaled, Nat.cast_pow, Nat.cast_ofNat]
      gcongr
    calc
      |scaled rounded unit - exact * 2 ^ unit| ≤ |scaled (2 ^ 52) unit - exact * 2 ^ unit| := by
        rw [distance, distance]
        have nearest := abs_sub_le_of_half near (2 ^ 52)
        gcongr
      _ ≤ |scaled mantissa exponent - exact * 2 ^ unit| := by
        rw [abs_of_nonpos (by linarith), abs_of_nonpos (by linarith)]
        linarith

namespace Unpacked

/-- A number with a sign and a size, in its canonical form. -/
inductive HasSize (sign : Sign) : UnpackedFloat → ℚ → Prop where
  | zero : HasSize sign (.zero sign) 0
  | finite
      {mantissa : Nat}
      {exponent : Int}
      (canonical : IsCanonical mantissa exponent)
      (positive : 0 < mantissa) :
      HasSize sign (.finite sign mantissa exponent positive) (scaled mantissa exponent)

/-- The exponent of the rounded number leaves 53 bits, or is the least one. -/
theorem targetExponent_eq (mantissa : Nat) (exponent : Int) :
    Format.binary64.targetExponent (totalExponent mantissa exponent) =
      max (mantissa.log2 + exponent - 52) (-1074) := by
  change max ((mantissa.log2 : Int) + 1 + exponent - 53) (-1074) = _
  congr 1
  omega

theorem log2_le_of_lt {mantissa : Nat} (fits : mantissa < 2 ^ 53) : mantissa.log2 ≤ 52 := by
  by_cases isZero : mantissa = 0
  · simp [isZero]
  · have := (Nat.log2_lt isZero).mpr fits
    omega

/-- A mantissa that fits is not shifted. -/
theorem shiftToTargetExponent_of_fits
    {mantissa : Nat}
    {exponent : Int}
    (fits : mantissa < 2 ^ 53)
    (least : -1074 ≤ exponent) :
    UnpackedFloat.shiftToTargetExponent .binary64 mantissa exponent .exact =
      (⟨mantissa, false, false⟩, exponent) := by
  have log := log2_le_of_lt fits
  have noShift :
      (max ((mantissa.log2 : Int) + exponent - 52) (-1074) - exponent).toNat = 0 := by
    omega
  unfold UnpackedFloat.shiftToTargetExponent UnpackedFloat.shiftToExponent
  dsimp only
  rw [targetExponent_eq, noShift]
  simp [HShiftRight.hShiftRight, Nat.repeat, ExtendedMantissa.ofMantissaAndAccuracy]

/-- A mantissa that overflows by rounding is halved. -/
theorem shiftToTargetExponent_of_overflow {exponent : Int} (least : -1074 ≤ exponent) :
    UnpackedFloat.shiftToTargetExponent .binary64 (2 ^ 53) exponent .exact =
      (⟨2 ^ 52, false, false⟩, exponent + 1) := by
  have oneShift :
      (max (((2 ^ 53 : Nat).log2 : Int) + exponent - 52) (-1074) - exponent).toNat = 1 := by
    rw [Nat.log2_two_pow]
    omega
  unfold UnpackedFloat.shiftToTargetExponent UnpackedFloat.shiftToExponent
  dsimp only
  rw [targetExponent_eq, oneShift]
  simp [HShiftRight.hShiftRight, Nat.repeat, ExtendedMantissa.ofMantissaAndAccuracy,
    ExtendedMantissa.shiftRightOne]

/-- A mantissa with its residual bits does not reach the next power of two. -/
theorem bounds_of_standsFor
    {mantissa : Nat}
    {accuracy : Accuracy}
    {exact : ℚ}
    (standsFor : StandsFor (.ofMantissaAndAccuracy mantissa accuracy) exact) :
    (mantissa : ℚ) ≤ exact ∧ exact < 2 ^ (mantissa.log2 + 1) := by
  have keeps : (ExtendedMantissa.ofMantissaAndAccuracy mantissa accuracy).mantissa = mantissa := by
    rcases accuracy with _ | _ | _ | _ <;> rfl
  obtain ⟨atLeast, below, _⟩ := standsFor
  rw [keeps] at atLeast below
  have whole : mantissa + 1 ≤ 2 ^ (mantissa.log2 + 1) := Nat.lt_log2_self
  have castWhole : (mantissa : ℚ) + 1 ≤ 2 ^ (mantissa.log2 + 1) := by exact_mod_cast whole
  exact ⟨atLeast, below.trans_le castWhole⟩

/-- A rounded mantissa is brought into its canonical form without being changed. -/
theorem hasSize_of_shift
    (sign : Sign)
    {mantissa : Nat}
    {exponent unit : Int}
    {accuracy : Accuracy}
    {extended : ExtendedMantissa}
    (shifted :
      UnpackedFloat.shiftToTargetExponent .binary64 mantissa exponent accuracy =
        (extended, unit))
    (least : -1074 ≤ unit)
    (roundedFits : extended.roundedMantissa ≤ 2 ^ 53)
    (roundedFull : 2 ^ 52 ≤ extended.roundedMantissa ∨ unit = -1074) :
    HasSize sign
      (UnpackedFloat.roundWithAccuracy .binary64 sign mantissa exponent accuracy)
      (scaled extended.roundedMantissa unit) := by
  unfold UnpackedFloat.roundWithAccuracy
  rw [shifted]
  dsimp only
  generalize extended.roundedMantissa = rounded at roundedFits roundedFull
  by_cases fits : rounded < 2 ^ 53
  · rw [shiftToTargetExponent_of_fits fits least]
    dsimp only
    by_cases isZero : rounded = 0
    · rw [dif_pos isZero, isZero]
      simpa [scaled] using HasSize.zero
    · rw [dif_neg isZero]
      exact .finite ⟨fits, least, roundedFull⟩ (Nat.pos_of_ne_zero isZero)
  · have overflows : rounded = 2 ^ 53 := by omega
    have halved : scaled (2 ^ 53) unit = scaled (2 ^ 52) (unit + 1) :=
      scaled_mul_two_pow (2 ^ 52) 1 unit
    rw [overflows, shiftToTargetExponent_of_overflow least, halved]
    dsimp only
    rw [dif_neg (by norm_num)]
    exact .finite ⟨by norm_num, by omega, .inl le_rfl⟩ (by norm_num)

/--
Rounding a mantissa with its residual bits passes no canonical size.  The mantissa
must have all 53 bits, unless its exponent is low enough.
-/
theorem hasSize_roundWithAccuracy
    (sign : Sign)
    {mantissa : Nat}
    {exponent : Int}
    {accuracy : Accuracy}
    {exact : ℚ}
    (standsFor : StandsFor (.ofMantissaAndAccuracy mantissa accuracy) exact)
    (placed : 52 ≤ mantissa.log2 ∨ exponent ≤ -1074) :
    ∃ size,
      RoundsSize (exact * 2 ^ exponent) size ∧
        HasSize sign
          (UnpackedFloat.roundWithAccuracy .binary64 sign mantissa exponent accuracy) size := by
  obtain ⟨atLeast, below⟩ := bounds_of_standsFor standsFor
  obtain ⟨unit, isUnit⟩ :
      ∃ unit, max ((mantissa.log2 : Int) + exponent - 52) (-1074) = unit := ⟨_, rfl⟩
  obtain ⟨count, isCount⟩ : ∃ count, (unit - exponent).toNat = count := ⟨_, rfl⟩
  have reaches : exponent + count = unit := by omega
  have shifted := standsFor.shiftRight count
  generalize isExtended :
      ExtendedMantissa.ofMantissaAndAccuracy mantissa accuracy >>> count = extended at shifted
  have shiftsTo :
      UnpackedFloat.shiftToTargetExponent .binary64 mantissa exponent accuracy =
        (extended, unit) := by
    unfold UnpackedFloat.shiftToTargetExponent UnpackedFloat.shiftToExponent
    dsimp only
    rw [targetExponent_eq, isUnit, isCount, isExtended, reaches]
  have sameExact : exact * 2 ^ exponent = exact / 2 ^ count * 2 ^ unit := by
    rw [← reaches, zpow_add₀ two_ne_zero, zpow_natCast]
    field_simp
  have power : (0 : ℚ) < 2 ^ count := by positivity
  -- In the unit of the target the number has 53 bits, or fewer when the unit is the least one.
  have fits : exact / 2 ^ count ≤ (2 ^ 53 : Nat) := by
    have bits : (2 : ℚ) ^ (mantissa.log2 + 1) ≤ 2 ^ (53 + count) :=
      pow_le_pow_right₀ (by norm_num) (by omega)
    rw [div_le_iff₀ power, Nat.cast_pow, Nat.cast_ofNat, ← pow_add]
    exact below.le.trans bits
  have full : 2 ^ 52 ≤ exact / 2 ^ count ∨ unit = -1074 := by
    by_cases isLeast : unit = -1074
    · exact .inr isLeast
    · left
      have log : mantissa.log2 = 52 + count := by omega
      have nonzero : mantissa ≠ 0 := by
        intro isZero
        rw [isZero, Nat.log2_zero] at log
        omega
      have leading : (2 : ℚ) ^ (52 + count) ≤ mantissa := by
        rw [← log]
        exact_mod_cast Nat.log2_self_le nonzero
      rw [le_div_iff₀ power, ← pow_add]
      exact leading.trans atLeast
  have passesNone := shifted.roundedMantissa
  refine ⟨scaled extended.roundedMantissa unit,
    sameExact ▸ roundsSize_of_grid full shifted.abs_roundedMantissa_sub_le, ?_⟩
  refine hasSize_of_shift sign shiftsTo (by omega) ((passesNone (2 ^ 53)).2 fits) ?_
  refine full.imp_left fun large => (passesNone (2 ^ 52)).1 ?_
  exact_mod_cast large

theorem log2_mul_two_pow {mantissa : Nat} (positive : 0 < mantissa) (count : Nat) :
    (mantissa * 2 ^ count).log2 = mantissa.log2 + count := by
  have nonzero := Nat.ne_of_gt positive
  refine (Nat.log2_eq_iff (Nat.mul_ne_zero nonzero (by positivity))).mpr ⟨?_, ?_⟩
  · rw [pow_add]
    exact Nat.mul_le_mul_right _ (Nat.log2_self_le nonzero)
  · rw [Nat.add_right_comm, pow_add]
    exact Nat.mul_lt_mul_of_pos_right Nat.lt_log2_self (by positivity)

/-- Rounding a whole number of units moves it to the place where it has all bits. -/
theorem hasSize_round
    (sign : Sign)
    {mantissa : Nat}
    (positive : 0 < mantissa)
    (exponent : Int) :
    ∃ size,
      RoundsSize (scaled mantissa exponent) size ∧
        HasSize sign (UnpackedFloat.round .binary64 sign mantissa exponent) size := by
  unfold UnpackedFloat.round UnpackedFloat.decreaseExponent
  dsimp only
  rw [targetExponent_eq]
  obtain ⟨count, isCount⟩ :
      ∃ count,
        (exponent - max ((mantissa.log2 : Int) + exponent - 52) (-1074)).toNat = count :=
    ⟨_, rfl⟩
  rw [isCount, Nat.shiftLeft_eq]
  have log := log2_mul_two_pow positive count
  have placed : 52 ≤ (mantissa * 2 ^ count).log2 ∨ exponent - count ≤ -1074 := by
    omega
  have sameSize : scaled mantissa exponent = scaled (mantissa * 2 ^ count) (exponent - count) := by
    rw [scaled_mul_two_pow]
    congr 1
    omega
  rw [sameSize]
  exact hasSize_roundWithAccuracy sign (standsFor_natCast _) placed

/-- A packed number keeps its size unless that is beyond the range. -/
theorem value_pack
    {sign : Sign}
    {unpacked : UnpackedFloat}
    {size : ℚ}
    (hasSize : HasSize sign unpacked size) :
    (Float.ofModel (.pack unpacked)).isNaN = false ∧
      Binary64.value (.ofModel (.pack unpacked)) =
        signFactor sign * min size infinityValue := by
  cases hasSize with
  | zero =>
      have unpacks : (Float.Model.pack (.zero sign)).unpack = .zero sign := by
        cases sign <;> rfl
      refine ⟨(isNaN_pack _).trans rfl, ?_⟩
      rw [min_eq_left infinityValue_pos.le, mul_zero]
      change value (Float.Model.pack (.zero sign)).unpack = 0
      rw [unpacks]
      rfl
  | finite canonical positive =>
      rename_i mantissa exponent
      refine ⟨(isNaN_pack _).trans rfl, ?_⟩
      change value (Float.Model.pack (.finite sign mantissa exponent positive)).unpack = _
      by_cases inRange : exponent ≤ 971
      · rw [unpack_pack_finite sign positive canonical inRange,
          min_eq_left (scaled_lt_infinityValue canonical inRange).le]
        rfl
      · have beyond : 971 < exponent := by omega
        rw [unpack_pack_of_lt sign positive beyond,
          min_eq_right (infinityValue_le_scaled canonical beyond)]
        rfl

end Unpacked

/-- A number that no double is nearer than to the exact one. -/
structure Rounds (exact : ℚ) (x : Float) : Prop where
  number : x.isNaN = false
  nearest : ∀ y : Float, y.isNaN = false → |value x - exact| ≤ |value y - exact|

namespace Rounds

variable {exact : ℚ} {x : Float} (rounds : Rounds exact x)

include rounds

/-- Rounding does not lead below a double that is at most the exact number. -/
theorem atLeast (y : Float) (number : y.isNaN = false) (atMost : value y ≤ exact) :
    value y ≤ value x :=
  le_of_abs_sub_le (rounds.nearest y number) atMost

theorem atMost (y : Float) (number : y.isNaN = false) (atLeast : exact ≤ value y) :
    value x ≤ value y :=
  ge_of_abs_sub_le (rounds.nearest y number) atLeast

end Rounds

theorem abs_signFactor_mul_sub (sign : Sign) (first second : ℚ) :
    |signFactor sign * first - signFactor sign * second| = |first - second| := by
  rw [← mul_sub, abs_signFactor_mul]

/-- A rounded size is packed, with its sign, to a nearest double of the exact number. -/
theorem rounds_pack
    {sign : Sign}
    {exact size : ℚ}
    {unpacked : UnpackedFloat}
    (nonneg : 0 ≤ exact)
    (rounds : RoundsSize exact size)
    (hasSize : Unpacked.HasSize sign unpacked size) :
    Rounds (signFactor sign * exact) (.ofModel (.pack unpacked)) := by
  obtain ⟨number, value_eq⟩ := Unpacked.value_pack hasSize
  refine ⟨number, fun y yNumber => ?_⟩
  rw [value_eq, abs_signFactor_mul_sub]
  obtain ⟨inRange, mantissa, exponent, canonical, isScaled⟩ :=
    exists_canonical_abs_value yNumber
  calc
    |min size infinityValue - exact| ≤ abs (|value y| - exact) := by
      rcases le_total size infinityValue with fits | beyond
      · rw [min_eq_left fits, isScaled]
        exact rounds.nearest mantissa exponent canonical
      · -- What is rounded beyond the infinities lies there, or just at their value.
        have near := rounds.nearest (2 ^ 52) 972 isCanonical_infinityValue
        rw [← infinityValue_eq_scaled] at near
        rw [min_eq_right beyond]
        rcases le_total exact infinityValue with below | above
        · obtain rfl := le_antisymm beyond (ge_of_abs_sub_le near below)
          rw [isScaled]
          exact rounds.nearest mantissa exponent canonical
        · rw [abs_of_nonpos (by linarith), abs_of_nonpos (by linarith)]
          linarith
    _ = abs (|value y| - |signFactor sign * exact|) := by
      rw [abs_signFactor_mul, abs_of_nonneg nonneg]
    _ ≤ |value y - signFactor sign * exact| := abs_abs_sub_abs_le _ _

end LayerPlayback.Binary64
