import Mathlib.Data.List.Induction
import LayerPlayback.Number.Unsigned

namespace LayerPlayback.NumberLiteral

/-!
# Digits that fit into 32 bits

Reading digit by digit with a check at every step refuses exactly the numbers that do not
fit as a whole: a number that is too large stays so whatever digit is put behind it.
-/

/-- A check before a step that makes a number no smaller adds nothing to the check behind it. -/
theorem checked?_bind (next : Nat → Nat) {value : Nat} (grows : value ≤ next value) :
    ((checked? value).bind fun number => checked? (next number.toNat)) =
      checked? (next value) := by
  rcases Nat.lt_or_ge value UInt32.size with fits | large
  · have first : checked? value = some (.ofNat value) := if_pos fits
    rw [first, Option.bind_some, UInt32.toNat_ofNat_of_lt' fits]
  · have first : checked? value = none := if_neg (Nat.not_lt.mpr large)
    have second : checked? (next value) = none :=
      if_neg (Nat.not_lt.mpr (Nat.le_trans large grows))
    rw [first, second, Option.bind_none]

/-- A number with a digit behind it is ten times as large and the digit more, if that fits. -/
theorem withDigit?_eq (number : UInt32) (digit : Char) :
    withDigit? number digit = checked? (number.toNat * 10 + digitValue digit) := by
  apply checked?_bind (· + digitValue digit)
  exact Nat.le_add_right _ _

theorem digitsValue_concat (digits : List Char) (digit : Char) :
    digitsValue (digits ++ [digit]) = digitsValue digits * 10 + digitValue digit := by
  rw [digitsValue, List.foldl_append, digitsValue, Nat.mul_comm]
  rfl

/-- Digits are read as the number that they stand for exactly if that number fits. -/
theorem uint32?_eq (digits : List Char) : uint32? digits = checked? (digitsValue digits) := by
  -- Induction from the right: the digits before the last one are read first.
  induction digits using List.reverseRecOn with
  | nil => rfl
  | append_singleton digits digit inductionHypothesis =>
      have grows : digitsValue digits ≤ digitsValue digits * 10 + digitValue digit := by
        omega
      calc
        uint32? (digits ++ [digit]) =
            (uint32? digits).bind fun number => withDigit? number digit := by
          simp only [uint32?, List.foldlM_append, List.foldlM_cons, List.foldlM_nil, bind_pure,
            Option.bind_eq_bind]
        _ = (checked? (digitsValue digits)).bind fun number =>
              checked? (number.toNat * 10 + digitValue digit) := by
          simp only [inductionHypothesis, withDigit?_eq]
        _ = checked? (digitsValue (digits ++ [digit])) := by
          rw [checked?_bind (· * 10 + digitValue digit) grows, digitsValue_concat]

end LayerPlayback.NumberLiteral
