import LayerPlayback.Number.Literal

namespace LayerPlayback.NumberLiteral

/-!
# Whole numbers of 32 bits

Digits are read from left to right into 32 bits.  A number that becomes too large on the
way is refused, so nothing wraps around, and zeros in front do not count.
-/

/-- A whole number in 32 bits, if it fits. -/
def checked? (value : Nat) : Option UInt32 :=
  if value < UInt32.size then some (.ofNat value) else none

/-- A number with one more digit behind it: ten times the number, and the digit. -/
def withDigit? (number : UInt32) (digit : Char) : Option UInt32 := do
  let tens ← checked? (number.toNat * 10)
  checked? (tens.toNat + digitValue digit)

/-- The number that a string of digits stands for, if it fits into 32 bits. -/
def uint32? (digits : List Char) : Option UInt32 :=
  digits.foldlM withDigit? 0

end LayerPlayback.NumberLiteral
