import Mathlib.Data.List.Basic
import LayerPlayback.Number.Literal
import LayerPlayback.Number.Text

namespace LayerPlayback

/-!
# Digits are read back

The digits of a natural number have its value, and start with a zero only for zero.
-/

namespace NumberLiteral

variable {digits : List Char}

/-- Digits are at least one, and nothing else is among them. -/
theorem isDigits_iff :
    isDigits digits = true ↔ digits ≠ [] ∧ ∀ digit ∈ digits, digit.isDigit = true := by
  simp [isDigits]

theorem digitsValue_eq (digits : List Char) :
    digitsValue digits = Nat.ofDigitChars 10 digits 0 :=
  rfl

/-- Digits behind others move these up by their number of places. -/
theorem digitsValue_append (whole fraction : List Char) :
    digitsValue (whole ++ fraction) =
      digitsValue whole * Nat.pow 10 fraction.length + digitsValue fraction := by
  simp only [digitsValue_eq]
  rw [Nat.ofDigitChars_append, Nat.ofDigitChars_eq_ofDigitChars_zero, Nat.mul_comm]
  rfl

/-- Zeros in front change no value. -/
theorem digitsValue_zeros (count : Nat) (digits : List Char) :
    digitsValue (List.replicate count '0' ++ digits) = digitsValue digits := by
  simp only [digitsValue_eq]
  rw [Nat.ofDigitChars_append, Nat.ofDigitChars_replicate_zero, Nat.mul_zero]

end NumberLiteral

namespace NumberText

open NumberLiteral (digitsValue isDigits isDigits_iff digitsValue_eq)

/-- A natural number is written with digits only. -/
theorem isDigit_of_mem_naturalDigits
    {value : Nat}
    {digit : Char}
    (member : digit ∈ naturalDigits value) :
    digit.isDigit = true :=
  Nat.isDigit_of_mem_toDigits (by decide) (by decide) member

theorem naturalDigits_ne_nil (value : Nat) : naturalDigits value ≠ [] :=
  Nat.toDigits_ne_nil

theorem isDigits_naturalDigits (value : Nat) : isDigits (naturalDigits value) = true :=
  isDigits_iff.mpr ⟨naturalDigits_ne_nil value, fun _ => isDigit_of_mem_naturalDigits⟩

theorem digitsValue_naturalDigits (value : Nat) :
    digitsValue (naturalDigits value) = value :=
  Nat.ofDigitChars_ten_toDigits

/-- Digits with a leading zero are those of zero. -/
theorem naturalDigits_of_head {value : Nat} (leading : (naturalDigits value).head? = some '0') :
    naturalDigits value = ['0'] := by
  have isZero : value = 0 := by
    induction value using Nat.strongRecOn with
    | ind value inductionHypothesis =>
        by_cases oneDigit : value < 10
        · rw [naturalDigits, Nat.toDigits_of_lt_base oneDigit] at leading
          simpa using leading
        · rw [naturalDigits, Nat.toDigits_of_base_le (by decide) (by omega),
            List.head?_append_of_ne_nil _ Nat.toDigits_ne_nil] at leading
          have := inductionHypothesis (value / 10) (by omega) leading
          omega
  rw [isZero]
  rfl

/-- A number below a power of ten needs no more digits than the power has zeros. -/
theorem length_naturalDigits_le {value places : Nat} (positive : 0 < places)
    (small : value < Nat.pow 10 places) :
    (naturalDigits value).length ≤ places :=
  (Nat.length_toDigits_le_iff (by decide) positive).mpr small

end NumberText

end LayerPlayback
