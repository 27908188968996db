import LayerPlayback.Number.Literal
import LayerPlayback.Number.Text

namespace LayerPlayback

/-!
# JSON numbers

A number is kept as it is written: sign, whole digits, fraction digits, exponent.
Its double is made from the leading digits that fit into 64 bits and one scaling
by a power of ten, which is exact for short numbers and may be off in the last
place for long ones.  Doubles are written with the fewest digits that read back
to them when read exactly.
-/

/-- The exponent of a written number. -/
structure JsonExponent where
  negative : Bool
  digits : List Char
  deriving Repr, DecidableEq

/-- A number as it is written. -/
structure JsonNumber where
  negative : Bool := false
  whole : List Char
  fraction : List Char := []
  exponent? : Option JsonExponent := none
  deriving Repr, DecidableEq

namespace JsonExponent

/-- The value of an exponent. -/
def value (exponent : JsonExponent) : Int :=
  if exponent.negative then
    -(NumberLiteral.digitsValue exponent.digits)
  else
    NumberLiteral.digitsValue exponent.digits

/-- An exponent with its sign written out. -/
def characters (exponent : JsonExponent) : List Char :=
  'e' :: (if exponent.negative then '-' else '+') :: exponent.digits

/-- The exponent of a value. -/
def ofInt (value : Int) : JsonExponent :=
  ⟨decide (value < 0), NumberText.naturalDigits value.natAbs⟩

end JsonExponent

namespace JsonNumber

open NumberLiteral (digitValue digitsValue isDigits splitSign splitFraction)

/-- Whether a number is written without a point and without an exponent. -/
def isWhole (number : JsonNumber) : Bool :=
  number.fraction.isEmpty && number.exponent?.isNone

/-! ## Reading -/

/-- An exponent, or nothing at all. -/
def readExponent? : List Char → Option (Option JsonExponent)
  | [] => some none
  | mark :: rest =>
      let (negative, digits) := splitSign rest
      if (mark = 'e' || mark = 'E') && isDigits digits then
        some (some ⟨negative, digits⟩)
      else
        none

/-- A fraction has at least one digit; its point tells it from no fraction. -/
def readFraction? : List Char → Option (List Char × List Char)
  | '.' :: rest =>
      let (fraction, after) := splitFraction ('.' :: rest)
      if fraction.isEmpty then none else some (fraction, after)
  | characters => some ([], characters)

/-- Whole digits have no leading zero. -/
def isWholePart (digits : List Char) : Bool :=
  isDigits digits && (digits.head? ≠ some '0' || digits.length = 1)

/-- A number without its sign. -/
def readUnsigned? (negative : Bool) (characters : List Char) : Option JsonNumber := do
  let whole := characters.takeWhile Char.isDigit
  if isWholePart whole then
    let (fraction, rest) ← readFraction? (characters.dropWhile Char.isDigit)
    let exponent? ← readExponent? rest
    some ⟨negative, whole, fraction, exponent?⟩
  else
    none

/-- A number and nothing else. -/
def ofCharacters? : List Char → Option JsonNumber
  | '-' :: rest => readUnsigned? true rest
  | characters => readUnsigned? false characters

/-! ## Values -/

/-- The greatest significand that is collected from digits. -/
def greatestSignificand : Nat :=
  UInt64.size - 1

/-- Append digits to a significand while it fits; also how many were appended. -/
def collect (significand : Nat) : List Char → Nat × Nat
  | [] => (significand, 0)
  | digit :: rest =>
      let next := 10 * significand + digitValue digit
      if next ≤ greatestSignificand then
        let (collected, count) := collect next rest
        (collected, count + 1)
      else
        (significand, 0)

/-- A power of ten with an exponent from 0 to 308. -/
def powerOfTen (exponent : Nat) : Float :=
  Decimal.nearest ⟨1, exponent⟩

/-- The exponent of the greatest power of ten that is a double. -/
def greatestPower : Nat := 308

/-- A value times a power of ten, unless it is too large. -/
def scaled? (value : Float) (exponent : Int) : Option Float :=
  if greatestPower < exponent then
    if value == 0.0 then some value else none
  else if 0 ≤ exponent then
    some (value * powerOfTen exponent.toNat) |>.filter Float.isFinite
  else if -greatestPower ≤ exponent then
    some (value / powerOfTen (-exponent).toNat)
  else if value == 0.0 then
    some value
  else
    scaled? (value / powerOfTen greatestPower) (exponent + greatestPower)
termination_by (-exponent).toNat
decreasing_by simp only [greatestPower] at *; omega

/-- The double of a number, unless it is too large. -/
def float? (number : JsonNumber) : Option Float :=
  let (whole, wholeCount) := collect 0 number.whole
  let (significand, fractionCount) := collect whole number.fraction
  let exponent : Int :=
    (number.whole.length - wholeCount : Nat) - fractionCount
      + (number.exponent?.map JsonExponent.value).getD 0
  (scaled? (Float.ofNat significand) exponent).map fun magnitude =>
    if number.negative then -magnitude else magnitude

/-- The natural number up to a limit that is written, without point and exponent. -/
def natural? (number : JsonNumber) (limit : Nat) : Option Nat :=
  let value := digitsValue number.whole
  if number.isWhole && !number.negative && value ≤ limit then some value else none

/-! ## Writing -/

/-- The number as text. -/
def characters (number : JsonNumber) : List Char :=
  (if number.negative then ['-'] else [])
    ++ number.whole
    ++ (if number.fraction.isEmpty then [] else '.' :: number.fraction)
    ++ (number.exponent?.map JsonExponent.characters).getD []

/-- A natural number. -/
def ofNat (value : Nat) : JsonNumber :=
  { whole := NumberText.naturalDigits value }

/-- Whether a number whose first digit stands for this power of ten has no exponent. -/
def isPlain (power : Int) : Bool :=
  -5 ≤ power && power ≤ 15

/-- A decimal without exponent and with at least one fraction digit. -/
def ofPlain (negative : Bool) (decimal : Decimal) : JsonNumber :=
  match decimal.exponent with
  | .ofNat up =>
      { negative := negative
        whole := NumberText.naturalDigits (decimal.coefficient * Nat.pow 10 up)
        fraction := ['0'] }
  | .negSucc down =>
      let places := down + 1
      let fraction := NumberText.naturalDigits (decimal.coefficient % Nat.pow 10 places)
      { negative := negative
        whole := NumberText.naturalDigits (decimal.coefficient / Nat.pow 10 places)
        fraction := List.replicate (places - fraction.length) '0' ++ fraction }

/-- A decimal with one whole digit and an exponent. -/
def ofScientific (negative : Bool) (digits : List Char) (power : Int) : JsonNumber :=
  { negative := negative
    whole := digits.take 1
    fraction := digits.drop 1
    exponent? := some (.ofInt power) }

/-- The shortest number for a finite double. -/
def ofFinite (x : Float) : JsonNumber :=
  let decimal := if x == 0.0 then ⟨0, 0⟩ else Decimal.shortest .toEven x.abs
  let digits := NumberText.naturalDigits decimal.coefficient
  let power := decimal.exponent + (digits.length - 1 : Nat)
  if isPlain power then
    ofPlain (Binary64.isNegative x) decimal
  else
    ofScientific (Binary64.isNegative x) digits power

end JsonNumber

end LayerPlayback
