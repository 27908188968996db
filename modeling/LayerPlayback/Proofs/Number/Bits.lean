import Mathlib
import LayerPlayback.Number.Binary64

namespace LayerPlayback.Binary64

/-!
# The parts of packed doubles

The bits of a double are its sign, the field of its exponent, and its mantissa without
the implicit bit.  What a double is unpacked to depends on the range of the field, and
finite parts are packed into the bits that they are unpacked from.
-/

open Float.Model
open Float.Model.UnpackedFloat (Sign packComponents unpackSign unpackExponent unpackMantissa
  unpackExponent_packComponents unpackMantissa_packComponents unpackSign_packComponents)

/-- The sign is the highest bit. -/
theorem toNat_unpackSign (bits : BitVec 64) :
    (@unpackSign .binary64 bits).toNat = bits.toNat / 2 ^ 63 := by
  have below := bits.isLt
  change (bits.extractLsb 63 63).toNat = _
  rw [BitVec.extractLsb_toNat, Nat.shiftRight_eq_div_pow]
  omega

/-- The exponent is in the eleven bits below the sign. -/
theorem toNat_unpackExponent (bits : BitVec 64) :
    (@unpackExponent .binary64 bits).toNat = bits.toNat / 2 ^ 52 % 2 ^ 11 := by
  change (bits.extractLsb 62 52).toNat = _
  rw [BitVec.extractLsb_toNat, Nat.shiftRight_eq_div_pow]

/-- The mantissa is in the lowest 52 bits. -/
theorem toNat_unpackMantissa (bits : BitVec 64) :
    (@unpackMantissa .binary64 bits).toNat = bits.toNat % 2 ^ 52 := by
  change (bits.extractLsb 51 0).toNat = _
  rw [BitVec.extractLsb_toNat, Nat.shiftRight_zero]

namespace Unpacked

theorem toBitVec_ofBitVec (bit : BitVec 1) : (Sign.ofBitVec bit).toBitVec = bit := by
  have cases : bit = 0#1 ∨ bit = 1#1 := by
    have := bit.isLt
    rcases Nat.lt_or_ge bit.toNat 1 with zero | one
    · exact .inl (BitVec.eq_of_toNat_eq (by simpa using zero))
    · exact .inr (BitVec.eq_of_toNat_eq (by simp; omega))
  rcases cases with rfl | rfl <;> rfl

/-- The three fields have all the bits. -/
theorem extractLsb_append (bits : BitVec 64) :
    bits.extractLsb 63 63 ++ bits.extractLsb 62 52 ++ bits.extractLsb 51 0 = bits := by
  apply BitVec.eq_of_getLsbD_eq
  intro index small
  rw [BitVec.getLsbD_append, BitVec.getLsbD_append]
  by_cases inMantissa : index < 52
  · simp [inMantissa]
  · by_cases inExponent : index < 63
    · have place : 52 + (index - 52) = index := by omega
      have placed : index - 52 < 11 := by omega
      simp [inMantissa, place, placed]
    · have last : index = 63 := by omega
      subst last
      simp

/-- Packing the fields that were unpacked gives the bits back. -/
theorem packComponents_unpacked (bits : BitVec 64) :
    packComponents .binary64 (Sign.ofBitVec (@unpackSign .binary64 bits))
      (@unpackExponent .binary64 bits) (@unpackMantissa .binary64 bits) = bits := by
  unfold packComponents
  rw [toBitVec_ofBitVec]
  exact extractLsb_append bits

/-- The bits of a double are packed from some parts. -/
theorem exists_components (bits : BitVec 64) :
    ∃ sign exponent mantissa, packComponents .binary64 sign exponent mantissa = bits :=
  ⟨_, _, _, packComponents_unpacked bits⟩

/-- The bit that is not stored is worth a power of two. -/
theorem toNat_implicit_append (mantissa : BitVec 52) :
    (1#1 ++ mantissa).toNat = 2 ^ 52 + mantissa.toNat := by
  rw [BitVec.toNat_append, ← Nat.shiftLeft_add_eq_or_of_lt mantissa.isLt]
  rfl

theorem exponentBias_add_mantissaBits :
    (Format.binary64.exponentBias : Int) + (Format.binary64.mantissaBitsWithoutImplicit : Int) =
      1075 := by
  decide

/-- What is unpacked from packed parts. -/
theorem unpack_packComponents
    (sign : Sign)
    (exponent : BitVec 11)
    (mantissa : BitVec 52) :
    UnpackedFloat.unpack .binary64 (packComponents .binary64 sign exponent mantissa) =
      if exponent = -1#11 then
        if mantissa = 0#52 then .infinity sign else .notANumber
      else if exponent = 0#11 then
        if nonzero : mantissa = 0#52 then
          .zero sign
        else
          .finite sign mantissa.toNat ((exponent.toNat : Int) - 1075 + 1)
            (by simpa [BitVec.toNat_pos, BitVec.pos_iff_ne_zero])
      else
        .finite sign (1#1 ++ mantissa).toNat ((exponent.toNat : Int) - 1075)
          (by rw [BitVec.toNat_append]; simp [Nat.pos_iff_ne_zero]) := by
  have bias := exponentBias_add_mantissaBits
  unfold UnpackedFloat.unpack
  simp only [unpackExponent_packComponents, unpackMantissa_packComponents,
    unpackSign_packComponents, UnpackedFloat.Sign.ofBitVec_toBitVec, bias]

/-- The parts of a double by the ranges of its exponent field. -/
theorem unpack_cases
    {bits : BitVec 64}
    {sign : Sign}
    {exponent : BitVec 11}
    {mantissa : BitVec 52}
    (packed : packComponents .binary64 sign exponent mantissa = bits) :
    (exponent = -1#11 ∧ mantissa = 0#52 ∧ UnpackedFloat.unpack .binary64 bits = .infinity sign) ∨
      UnpackedFloat.unpack .binary64 bits = .notANumber ∨
      (exponent = 0#11 ∧ mantissa = 0#52 ∧ UnpackedFloat.unpack .binary64 bits = .zero sign) ∨
      (exponent = 0#11 ∧ ∃ positive,
        UnpackedFloat.unpack .binary64 bits =
          .finite sign mantissa.toNat (-1074) positive) ∨
      (exponent ≠ 0#11 ∧ exponent ≠ -1#11 ∧ ∃ positive,
        UnpackedFloat.unpack .binary64 bits =
          .finite sign (2 ^ 52 + mantissa.toNat) (exponent.toNat - 1075) positive) := by
  have unpacked := unpack_packComponents sign exponent mantissa
  rw [packed] at unpacked
  by_cases isOnes : exponent = -1#11
  · rw [if_pos isOnes] at unpacked
    by_cases isZero : mantissa = 0#52
    · rw [if_pos isZero] at unpacked
      exact .inl ⟨isOnes, isZero, unpacked⟩
    · rw [if_neg isZero] at unpacked
      exact .inr (.inl unpacked)
  · rw [if_neg isOnes] at unpacked
    by_cases isLeast : exponent = 0#11
    · rw [if_pos isLeast] at unpacked
      by_cases isZero : mantissa = 0#52
      · rw [dif_pos isZero] at unpacked
        exact .inr (.inr (.inl ⟨isLeast, isZero, unpacked⟩))
      · rw [dif_neg isZero] at unpacked
        subst isLeast
        exact .inr (.inr (.inr (.inl ⟨rfl, _, unpacked⟩)))
    · rw [if_neg isLeast] at unpacked
      simp only [toNat_implicit_append] at unpacked
      exact .inr (.inr (.inr (.inr ⟨isLeast, isOnes, _, unpacked⟩)))

/-- A mantissa without its implicit bit is packed with the least exponent. -/
theorem pack_subnormal (sign : Sign) {mantissa : BitVec 52} (positive : 0 < mantissa.toNat) :
    UnpackedFloat.pack .binary64 (.finite sign mantissa.toNat (-1074) positive) =
      packComponents .binary64 sign 0#11 mantissa := by
  have log : mantissa.toNat.log2 < 52 :=
    (Nat.log2_lt (Nat.ne_of_gt positive)).mpr mantissa.isLt
  have bias := exponentBias_add_mantissaBits
  simp only [UnpackedFloat.pack, Int.add_assoc, bias]
  rw [if_neg (by decide), if_neg (by change mantissa.toNat.log2 + 1 ≠ 53; omega)]
  simp

/-- A mantissa with its implicit bit is packed with its exponent. -/
theorem pack_normal
    (sign : Sign)
    {exponent : BitVec 11}
    {mantissa : BitVec 52}
    (notFull : exponent ≠ -1#11)
    (positive : 0 < 2 ^ 52 + mantissa.toNat) :
    UnpackedFloat.pack .binary64
        (.finite sign (2 ^ 52 + mantissa.toNat) (exponent.toNat - 1075) positive) =
      packComponents .binary64 sign exponent mantissa := by
  have mantissaBound : mantissa.toNat < 2 ^ 52 := mantissa.isLt
  have exponentBound : exponent.toNat < 2 ^ 11 := exponent.isLt
  have below : exponent.toNat ≠ 2047 := fun full => notFull (BitVec.eq_of_toNat_eq full)
  have log : (2 ^ 52 + mantissa.toNat).log2 = 52 :=
    (Nat.log2_eq_iff (by omega)).mpr ⟨by omega, by omega⟩
  have field : ((exponent.toNat : Int) - 1075 + 1075).toNat = exponent.toNat := by
    omega
  have fraction : BitVec.ofNat 52 (2 ^ 52 + mantissa.toNat) = mantissa := by
    apply BitVec.eq_of_toNat_eq
    rw [BitVec.toNat_ofNat]
    omega
  have bias := exponentBias_add_mantissaBits
  simp only [UnpackedFloat.pack, Int.add_assoc, bias, field]
  rw [if_neg (by change ¬ 2048 ≤ _; omega), if_pos (by rw [log]; rfl), fraction]
  simp

/-- A subnormal is unpacked to what was packed. -/
theorem unpack_pack_subnormal
    (sign : Sign)
    {mantissa : BitVec 52}
    (positive : 0 < mantissa.toNat) :
    UnpackedFloat.unpack .binary64
        (UnpackedFloat.pack .binary64 (.finite sign mantissa.toNat (-1074) positive)) =
      .finite sign mantissa.toNat (-1074) positive := by
  have notZero : mantissa ≠ 0#52 := by
    rintro rfl
    exact Nat.lt_irrefl _ positive
  rw [pack_subnormal sign positive, unpack_packComponents, if_neg (by decide), if_pos rfl,
    dif_neg notZero]
  rfl

theorem unpack_pack_normal
    (sign : Sign)
    {exponent : BitVec 11}
    {mantissa : BitVec 52}
    (notLeast : exponent ≠ 0#11)
    (notFull : exponent ≠ -1#11)
    (positive : 0 < 2 ^ 52 + mantissa.toNat) :
    UnpackedFloat.unpack .binary64
        (UnpackedFloat.pack .binary64
          (.finite sign (2 ^ 52 + mantissa.toNat) (exponent.toNat - 1075) positive)) =
      .finite sign (2 ^ 52 + mantissa.toNat) (exponent.toNat - 1075) positive := by
  rw [pack_normal sign notFull positive, unpack_packComponents, if_neg notFull, if_neg notLeast]
  simp only [toNat_implicit_append]

end Unpacked

end LayerPlayback.Binary64
