import LayerPlayback.Proofs.Number.Arithmetic

namespace LayerPlayback.Binary64

/-!
# Doubles and their parts

A double is put together again from its parts, so doubles with the same value that is
not zero are the same double.  The value of a finite double is the magnitude that is
read off its bits, with their sign.
-/

open Float.Model
open Float.Model.UnpackedFloat (Sign packComponents unpackSign unpackExponent unpackMantissa)

namespace Unpacked

/-- A number is the packed form of its parts. -/
theorem pack_unpack {model : Float.Model} (number : model.unpack.isNaN = false) :
    Float.Model.pack model.unpack = model := by
  suffices UnpackedFloat.pack .binary64 (UnpackedFloat.unpack .binary64 model.toBits.toBitVec) =
      model.toBits.toBitVec by
    obtain ⟨modelBits, valid⟩ := model
    simp only [Float.Model.pack, Float.Model.unpack, Float.Model.mk.injEq]
    exact UInt64.toBitVec_inj.mp this
  change UnpackedFloat.isNaN (UnpackedFloat.unpack .binary64 _) = false at number
  obtain ⟨sign, exponent, mantissa, packed⟩ := exists_components model.toBits.toBitVec
  rcases unpack_cases packed with
    ⟨isOnes, isZero, unpacked⟩ | unpacked | ⟨isLeast, isZero, unpacked⟩ |
      ⟨isLeast, positive, unpacked⟩ | ⟨_, notOnes, positive, unpacked⟩
  · rw [unpacked, ← packed, isOnes, isZero]
    rfl
  · rw [unpacked] at number
    cases number
  · rw [unpacked, ← packed, isLeast, isZero]
    rfl
  · rw [unpacked, ← packed, isLeast]
    exact pack_subnormal sign positive
  · rw [unpacked, ← packed]
    exact pack_normal sign notOnes positive

/-- Positive sizes with signs are equal only when both are. -/
theorem signed_size_injective
    {sign otherSign : Sign}
    {size otherSize : ℚ}
    (positive : 0 < size)
    (otherPositive : 0 < otherSize)
    (same : signFactor sign * size = signFactor otherSign * otherSize) :
    sign = otherSign ∧ size = otherSize := by
  cases sign <;> cases otherSign <;> simp only [signFactor, neg_one_mul, one_mul] at same
  · exact ⟨rfl, neg_injective same⟩
  · linarith
  · linarith
  · exact ⟨rfl, same⟩

/-- A size has only one canonical form. -/
theorem canonical_injective
    {mantissa otherMantissa : Nat}
    {exponent otherExponent : Int}
    (canonical : IsCanonical mantissa exponent)
    (otherCanonical : IsCanonical otherMantissa otherExponent)
    (same : scaled mantissa exponent = scaled otherMantissa otherExponent) :
    mantissa = otherMantissa ∧ exponent = otherExponent := by
  have compared := compare_scaled canonical otherCanonical
  rw [compare_eq_iff_eq.mpr same, eq_comm, Ordering.then_eq_eq, compare_eq_iff_eq,
    compare_eq_iff_eq] at compared
  exact ⟨compared.2, compared.1⟩

/-- Numbers that come out of packed forms are told apart by their values, except zeros. -/
theorem eq_of_value_eq
    {first second : UnpackedFloat}
    (firstInRange : InRange first)
    (secondInRange : InRange second)
    (nonzero : value first ≠ 0)
    (same : value first = value second) :
    first = second := by
  have beyond := infinityValue_pos
  -- Infinities differ from finite numbers in size; zeros, of which there are two, are excluded.
  cases first with
  | notANumber => exact firstInRange.elim
  | zero => exact absurd rfl nonzero
  | infinity sign =>
      cases second with
      | notANumber => exact secondInRange.elim
      | zero => exact absurd same nonzero
      | infinity other => rw [(signed_size_injective beyond beyond same).1]
      | finite other mantissa exponent positive =>
          have sizes := (signed_size_injective beyond (scaled_pos positive exponent) same).2
          have below := scaled_lt_infinityValue secondInRange.1 secondInRange.2
          exact absurd sizes.symm below.ne
  | finite sign mantissa exponent positive =>
      have sizePositive := scaled_pos positive exponent
      cases second with
      | notANumber => exact secondInRange.elim
      | zero => exact absurd same nonzero
      | infinity other =>
          have sizes := (signed_size_injective sizePositive beyond same).2
          have below := scaled_lt_infinityValue firstInRange.1 firstInRange.2
          exact absurd sizes below.ne
      | finite other otherMantissa otherExponent otherPositive =>
          obtain ⟨rfl, sizes⟩ :=
            signed_size_injective sizePositive (scaled_pos otherPositive otherExponent) same
          obtain ⟨rfl, rfl⟩ := canonical_injective firstInRange.1 secondInRange.1 sizes
          rfl

end Unpacked

/-- Equal doubles are the same double, unless they are zeros. -/
theorem eq_of_beq {x y : Float} (equal : (x == y) = true) (nonzero : value x ≠ 0) : x = y := by
  obtain ⟨xNumber, yNumber, same⟩ := beq_iff.mp equal
  have parts :=
    Unpacked.eq_of_value_eq ((inRange_unpack_iff x).mpr xNumber)
      ((inRange_unpack_iff y).mpr yNumber) nonzero same
  have models : x.toModel = y.toModel := by
    calc
      x.toModel = .pack x.toModel.unpack := (Unpacked.pack_unpack xNumber).symm
      _ = .pack y.toModel.unpack := congrArg Float.Model.pack parts
      _ = y.toModel := Unpacked.pack_unpack yNumber
  cases x
  cases y
  exact congrArg Float.ofModel models

/-! ## Parts that are read off the bits -/

/-- The sign that a double has, also as a zero or an infinity. -/
def sign (x : Float) : Sign :=
  if isNegative x then .negative else .positive

/-- The sign that is unpacked is the sign of the double. -/
theorem ofBitVec_unpackSign (x : Float) :
    Sign.ofBitVec (@unpackSign .binary64 x.toModel.toBits.toBitVec) = sign x := by
  have isBit := toNat_unpackSign x.toModel.toBits.toBitVec
  have below := x.toModel.toBits.toBitVec.isLt
  unfold sign isNegative
  change _ = if decide (2 ^ 63 ≤ x.toModel.toBits.toBitVec.toNat) = true then _ else _
  generalize x.toModel.toBits.toBitVec = bits at isBit below
  by_cases set : 2 ^ 63 ≤ bits.toNat
  · have one : @unpackSign .binary64 bits = 1#1 := by
      apply BitVec.eq_of_toNat_eq
      rw [isBit]
      change _ = 1
      omega
    rw [one, if_pos (decide_eq_true set)]
    rfl
  · have zero : @unpackSign .binary64 bits = 0#1 := by
      apply BitVec.eq_of_toNat_eq
      rw [isBit]
      change _ = 0
      omega
    rw [zero, if_neg (by simpa using set)]
    rfl

/-- The magnitude of a finite double is its size. -/
theorem value_eq_magnitude {x : Float} (finite : x.isFinite = true) :
    value x =
      signFactor (sign x) * scaled (magnitude x).significand (magnitude x).exponent := by
  have packed := Unpacked.packComponents_unpacked x.toModel.toBits.toBitVec
  have isExponent : (@unpackExponent .binary64 x.toModel.toBits.toBitVec).toNat = exponentField x :=
    toNat_unpackExponent _
  have isMantissa : (@unpackMantissa .binary64 x.toModel.toBits.toBitVec).toNat = fractionField x :=
    toNat_unpackMantissa _
  rw [ofBitVec_unpackSign x] at packed
  generalize @unpackExponent .binary64 x.toModel.toBits.toBitVec = exponent at packed isExponent
  generalize @unpackMantissa .binary64 x.toModel.toBits.toBitVec = mantissa at packed isMantissa
  change x.toModel.unpack.isFinite = true at finite
  unfold value magnitude
  rcases Unpacked.unpack_cases packed with
    ⟨_, _, unpacked⟩ | unpacked | ⟨isLeast, isZero, unpacked⟩ |
      ⟨isLeast, _, unpacked⟩ | ⟨notLeast, _, _, unpacked⟩ <;>
    change x.toModel.unpack = _ at unpacked
  · rw [unpacked] at finite
    cases finite
  · rw [unpacked] at finite
    cases finite
  · have field : exponentField x = 0 := by rw [← isExponent, isLeast]; rfl
    rw [unpacked, if_pos field, ← isMantissa, isZero]
    simp [Unpacked.value, scaled]
  · have field : exponentField x = 0 := by rw [← isExponent, isLeast]; rfl
    rw [unpacked, if_pos field, ← isMantissa]
    rfl
  · have field : exponentField x ≠ 0 := by
      rw [← isExponent]
      exact fun zero => notLeast (BitVec.eq_of_toNat_eq zero)
    rw [unpacked, if_neg field, ← isMantissa, ← isExponent]
    rfl

/-! ## Signs and magnitudes -/

/-- A double that is a number is packed from its parts, bit for bit. -/
theorem ofModel_pack_unpack {x : Float} (number : x.isNaN = false) :
    Float.ofModel (.pack x.toModel.unpack) = x := by
  rw [Unpacked.pack_unpack number]

theorem Unpacked.inRange_abs {unpacked : UnpackedFloat} (inRange : InRange unpacked) :
    InRange unpacked.abs := by
  cases unpacked <;> exact inRange

theorem unpack_abs {x : Float} (number : x.isNaN = false) :
    x.abs.toModel.unpack = x.toModel.unpack.abs :=
  Unpacked.unpack_pack (Unpacked.inRange_abs ((inRange_unpack_iff x).mpr number))

theorem isFinite_abs {x : Float} (finite : x.isFinite = true) : x.abs.isFinite = true := by
  change x.abs.toModel.unpack.isFinite = true
  change x.toModel.unpack.isFinite = true at finite
  rw [unpack_abs (isNaN_of_isFinite finite)]
  cases unpacked : x.toModel.unpack <;> rw [unpacked] at finite <;> exact finite

/-- The sign bit tells whether a number is its magnitude or the opposite of it. -/
theorem unpack_abs_signed (x : Float) :
    (if isNegative x then x.toModel.unpack.abs.neg else x.toModel.unpack.abs) =
      x.toModel.unpack := by
  have packed := Unpacked.packComponents_unpacked x.toModel.toBits.toBitVec
  rw [ofBitVec_unpackSign x, sign] at packed
  rcases Unpacked.unpack_cases packed with
    ⟨_, _, unpacked⟩ | unpacked | ⟨_, _, unpacked⟩ | ⟨_, _, unpacked⟩ | ⟨_, _, _, unpacked⟩ <;>
    change x.toModel.unpack = _ at unpacked <;>
    rw [unpacked] <;>
    cases isNegative x <;>
    rfl

/-- A number is its size with its sign. -/
theorem abs_signed {x : Float} (number : x.isNaN = false) :
    (if isNegative x then -x.abs else x.abs) = x := by
  have parts := unpack_abs_signed x
  calc
    (if isNegative x then -x.abs else x.abs) =
        .ofModel
          (.pack (if isNegative x then x.toModel.unpack.abs.neg else x.toModel.unpack.abs)) := by
      by_cases negative : isNegative x = true
      · rw [if_pos negative, if_pos negative, ← unpack_abs number]
        rfl
      · rw [if_neg negative, if_neg negative]
        rfl
    _ = .ofModel (.pack x.toModel.unpack) := by rw [parts]
    _ = x := ofModel_pack_unpack number

/-- A number that is not finite has the size of infinity. -/
theorem abs_eq_infinity {x : Float} (number : x.isNaN = false) (infinite : x.isFinite = false) :
    x.abs = infinity := by
  have inRange := (inRange_unpack_iff x).mpr number
  change x.toModel.unpack.isFinite = false at infinite
  change Float.ofModel (.pack x.toModel.unpack.abs) = _
  cases unpacked : x.toModel.unpack with
  | infinity sign => rfl
  | notANumber => rw [unpacked] at inRange; exact inRange.elim
  | _ => rw [unpacked] at infinite; cases infinite

/-- Zeros of both signs have the same size. -/
theorem abs_eq_zero {x : Float} (zero : (x == 0.0) = true) : x.abs = 0.0 := by
  obtain ⟨number, _, same⟩ := beq_iff.mp zero
  have inRange := (inRange_unpack_iff x).mpr number
  have isZero : value x = 0 := same
  unfold value at isZero
  change Float.ofModel (.pack x.toModel.unpack.abs) = _
  cases unpacked : x.toModel.unpack with
  | zero sign => rfl
  | notANumber => rw [unpacked] at inRange; exact inRange.elim
  | infinity sign =>
      rw [unpacked, Unpacked.value] at isZero
      have := infinityValue_pos
      cases sign <;> rw [signFactor] at isZero <;> linarith
  | finite sign mantissa exponent positive =>
      rw [unpacked, Unpacked.value] at isZero
      have := scaled_pos positive exponent
      cases sign <;> rw [signFactor] at isZero <;> linarith

/-- The value of a size is the size of the value. -/
theorem value_abs {x : Float} (number : x.isNaN = false) : value x.abs = |value x| := by
  rw [value, value, unpack_abs number]
  cases x.toModel.unpack with
  | notANumber => exact abs_zero.symm
  | zero => exact abs_zero.symm
  | infinity sign =>
      rw [Unpacked.value, abs_signFactor_mul, abs_of_pos infinityValue_pos]
      exact one_mul _
  | finite sign mantissa exponent positive =>
      rw [Unpacked.value, abs_signFactor_mul, abs_of_pos (scaled_pos positive exponent)]
      exact one_mul _

/-- The magnitude of a finite double that is not negative is its value. -/
theorem value_eq_magnitude_of_nonneg
    {x : Float}
    (finite : x.isFinite = true)
    (nonneg : 0 ≤ value x) :
    value x = scaled (magnitude x).significand (magnitude x).exponent := by
  have same := value_eq_magnitude finite
  have sizeNonneg := scaled_nonneg (magnitude x).significand (magnitude x).exponent
  cases isSign : sign x with
  | positive => rw [same, isSign, signFactor, one_mul]
  | negative =>
      rw [isSign, signFactor, neg_one_mul] at same
      linarith

end LayerPlayback.Binary64
