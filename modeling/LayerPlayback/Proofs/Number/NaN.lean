import Mathlib
import LayerPlayback.Number.Binary64

namespace LayerPlayback.Binary64

/-!
# Sums that are numbers

A double that is not NaN is called a number.  This module proves that a sum or a
difference of numbers is a number unless both are infinite: neither rounding nor
packing makes a NaN.
-/

open Float.Model
open Float.Model.UnpackedFloat (Sign packComponents unpackExponent_packComponents
  unpackMantissa_packComponents)

namespace Unpacked

/-- What is packed from its parts is NaN only at the greatest exponent field. -/
theorem isNaN_unpack_packComponents
    (sign : Sign)
    (exponent : BitVec 11)
    (mantissa : BitVec 52) :
    (UnpackedFloat.unpack .binary64
        (packComponents .binary64 sign exponent mantissa)).isNaN
      = (decide (exponent = -1) && decide (mantissa ≠ 0)) := by
  unfold UnpackedFloat.unpack
  simp only [unpackExponent_packComponents, unpackMantissa_packComponents]
  split
  · split <;> simp_all [UnpackedFloat.isNaN]
  · split
    · split <;> simp_all [UnpackedFloat.isNaN]
    · simp_all [UnpackedFloat.isNaN]

/-- Packing neither makes a NaN nor loses one. -/
theorem isNaN_pack (unpacked : UnpackedFloat) :
    (Float.Model.pack unpacked).isNaN = unpacked.isNaN := by
  change (UnpackedFloat.unpack .binary64 (UnpackedFloat.pack .binary64 unpacked)).isNaN = _
  cases unpacked with
  | notANumber =>
      rfl
  | infinity sign =>
      cases sign <;> rfl
  | zero sign =>
      cases sign <;> rfl
  | finite sign mantissa exponent positive =>
      simp only [UnpackedFloat.pack]
      split
      · cases sign <;> rfl
      · next inRange =>
          -- An exponent that is not too large never fills its field with ones.
          split
          · have notFull :
                BitVec.ofNat 11
                    (exponent + (Format.binary64.exponentBias : Int) + 52).toNat ≠ -1 := by
              intro full
              have ones := congrArg BitVec.toNat full
              rw [BitVec.toNat_ofNat] at ones
              change _ = 2047 at ones
              omega
            rw [isNaN_unpack_packComponents]
            simpa [UnpackedFloat.isNaN] using fun full => absurd full notFull
          · rw [isNaN_unpack_packComponents]
            simp [UnpackedFloat.isNaN]

/-- A rounded number is a number. -/
theorem isNaN_normalize (spec : Format) (mantissa exponent : Int) (zeroSign : Sign) :
    (UnpackedFloat.normalize spec mantissa exponent zeroSign).isNaN = false := by
  have isNaN_round (sign : Sign) (size : Nat) :
      (UnpackedFloat.round spec sign size exponent).isNaN = false := by
    simp only [UnpackedFloat.round, UnpackedFloat.roundWithAccuracy]
    split <;> rfl
  unfold UnpackedFloat.normalize
  split
  · exact isNaN_round _ _
  · rfl
  · exact isNaN_round _ _

/-- A sum is a number when its terms are and one of them is finite. -/
theorem isNaN_add
    (spec : Format)
    {first second : UnpackedFloat}
    (firstNumber : first.isNaN = false)
    (secondNumber : second.isNaN = false)
    (finite : first.isFinite = true ∨ second.isFinite = true) :
    (UnpackedFloat.add spec first second).isNaN = false := by
  cases first with
  | notANumber =>
      cases firstNumber
  | infinity sign =>
      cases second with
      | notANumber => cases secondNumber
      | infinity other => simp [UnpackedFloat.isFinite] at finite
      | _ => rfl
  | zero sign =>
      cases second with
      | notANumber => cases secondNumber
      | zero other => cases sign <;> cases other <;> rfl
      | _ => rfl
  | finite sign mantissa exponent positive =>
      cases second with
      | notANumber => cases secondNumber
      | finite => exact isNaN_normalize _ _ _ _
      | _ => rfl

/-- A difference is the sum with the opposite. -/
theorem sub_eq_add_neg (spec : Format) (first second : UnpackedFloat) :
    UnpackedFloat.sub spec first second = UnpackedFloat.add spec first second.neg := by
  have apply_neg (sign : Sign) (size : Int) : (-sign).apply size = -sign.apply size := by
    cases sign
    · exact (Int.neg_neg size).symm
    · rfl
  cases first <;> cases second <;> try rfl
  case finite.finite =>
    simp only [UnpackedFloat.sub, UnpackedFloat.add, UnpackedFloat.neg, apply_neg,
      Int.sub_eq_add_neg]

end Unpacked

theorem beq_self {x : Float} (number : x.isNaN = false) : (x == x) = true := by
  rw [Float.isNaN_eq_decide_eq_nan, decide_eq_false_iff_not] at number
  exact Float.beq_self_iff.mpr number

/-- A sum is a number when its terms are and one of them is finite. -/
theorem isNaN_add
    {x y : Float}
    (xNumber : x.isNaN = false)
    (yNumber : y.isNaN = false)
    (finite : x.isFinite = true ∨ y.isFinite = true) :
    (x + y).isNaN = false :=
  (Unpacked.isNaN_pack _).trans (Unpacked.isNaN_add _ xNumber yNumber finite)

theorem isNaN_sub
    {x y : Float}
    (xNumber : x.isNaN = false)
    (yNumber : y.isNaN = false)
    (finite : x.isFinite = true ∨ y.isFinite = true) :
    (x - y).isNaN = false := by
  have isNaN_neg (unpacked : UnpackedFloat) : unpacked.neg.isNaN = unpacked.isNaN := by
    cases unpacked <;> rfl
  have isFinite_neg (unpacked : UnpackedFloat) :
      unpacked.neg.isFinite = unpacked.isFinite := by
    cases unpacked <;> rfl
  refine (Unpacked.isNaN_pack _).trans ?_
  rw [Unpacked.sub_eq_add_neg]
  exact Unpacked.isNaN_add _ xNumber ((isNaN_neg _).trans yNumber)
    (finite.imp_right (isFinite_neg _).trans)

theorem isNaN_of_isFinite {x : Float} (finite : x.isFinite = true) : x.isNaN = false := by
  change x.toModel.unpack.isFinite = true at finite
  change x.toModel.unpack.isNaN = false
  cases unpacked : x.toModel.unpack <;>
    simp_all [UnpackedFloat.isFinite, UnpackedFloat.isNaN]

end LayerPlayback.Binary64
