import LayerPlayback.Number.Literal
import LayerPlayback.Text.Scanner
import LayerPlayback.Toml.Value

namespace LayerPlayback.TomlNumber

/-!
# TOML numbers and dates

Underscores may stand between two digits.  Integers fit into 64 bits with a sign;
without a sign they may be written in other bases.  A float that is too large is
refused, but one below the range is negative infinity.  Dates and times are
checked and then forgotten.
-/

open Scanner

/-- A run of digits of a class, with single underscores between them. -/
def digits (accepts : Char → Bool) : Scanner (List Char) := do
  let first ← character accepts
  let rest ← many (do
    let _ ← optional? (exactly '_')
    character accepts)
  return first :: rest

/-- A sign. -/
def sign : Scanner Char :=
  character fun mark => mark = '+' || mark = '-'

/-- Decimal digits without a leading zero. -/
def wholeDigits : Scanner (List Char) := do
  match ← peek? with
  | some '0' => return [← character (· = '0')]
  | _ => digits Char.isDigit

/-- An exponent with its mark. -/
def exponent : Scanner (List Char) := do
  let _ ← character fun mark => mark = 'e' || mark = 'E'
  let mark? ← optional? sign
  let value ← digits Char.isDigit
  return 'e' :: mark?.toList ++ value

/-- A fraction with its point. -/
def fraction : Scanner (List Char) := do
  exactly '.'
  let value ← digits Char.isDigit
  return '.' :: value

/-- What makes a decimal a float: an exponent, or a fraction that may have one. -/
def floatTail : Scanner (List Char) :=
  exponent <|> do
    let places ← fraction
    let power? ← optional? exponent
    return places ++ power?.getD []

/-- A float in decimal digits. -/
def decimalFloat : Scanner Float := do
  let mark? ← optional? sign
  let whole ← wholeDigits
  let tail ← floatTail
  match NumberLiteral.number? (mark?.toList ++ whole ++ tail) with
  | some value => if value == Binary64.infinity then failure else return value
  | none => failure

/-- Infinity or NaN by name. -/
def namedMagnitude : Scanner Float :=
  (do sequence ['i', 'n', 'f']; return Binary64.infinity)
    <|> (do sequence ['n', 'a', 'n']; return 0.0 / 0.0)

/-- Infinity or NaN with a sign that may be missing. -/
def namedFloat : Scanner Float := do
  let mark? ← optional? sign
  let magnitude ← namedMagnitude
  return if mark? = some '-' then -magnitude else magnitude

/-- The value of digits in a base. -/
def valueInBase (base : Nat) (digits : List Char) : Nat :=
  digits.foldl
    (fun value digit =>
      base * value
        + (if digit.isDigit then
            digit.toNat - '0'.toNat
          else
            digit.toLower.toNat - 'a'.toNat + 10))
    0

/-- An integer that fits. -/
def fitting (value : Int) : Scanner Int :=
  if Binary64.leastInt64 ≤ value ∧ value ≤ Binary64.greatestInt64 then
    return value
  else
    failure

/-- A hexadecimal digit in either case. -/
def isHexDigit (digit : Char) : Bool :=
  digit.isDigit || ('a' ≤ digit && digit ≤ 'f') || ('A' ≤ digit && digit ≤ 'F')

/-- An integer after the mark of its base. -/
def basedInteger (mark : Char) (base : Nat) (accepts : Char → Bool) : Scanner Int := do
  sequence ['0', mark]
  let value ← digits accepts
  fitting (valueInBase base value)

/-- An integer in decimal digits. -/
def decimalInteger : Scanner Int := do
  let mark? ← optional? sign
  let value := valueInBase 10 (← wholeDigits)
  fitting (if mark? = some '-' then -value else value)

/-- An integer. -/
def integer : Scanner Int :=
  basedInteger 'x' 16 isHexDigit
    <|> basedInteger 'o' 8 (fun digit => '0' ≤ digit && digit ≤ '7')
    <|> basedInteger 'b' 2 (fun digit => digit = '0' || digit = '1')
    <|> decimalInteger

/-- A number of digits whose value lies in a range. -/
def fieldBetween (count least greatest : Nat) : Scanner Nat := do
  let value := valueInBase 10 (← exactCount count Char.isDigit)
  if least ≤ value ∧ value ≤ greatest then return value else failure

/-- The number of days of a month. -/
def daysInMonth (year month : Nat) : Nat :=
  if month = 2 then
    if year % 4 = 0 ∧ (year % 100 ≠ 0 ∨ year % 400 = 0) then 29 else 28
  else if month = 4 ∨ month = 6 ∨ month = 9 ∨ month = 11 then
    30
  else
    31

/-- A date. -/
def date : Scanner Unit := do
  let year ← fieldBetween 4 0 9999
  exactly '-'
  let month ← fieldBetween 2 1 12
  exactly '-'
  let _ ← fieldBetween 2 1 (daysInMonth year month)

/-- A time of day; sixty seconds make room for a leap second. -/
def time : Scanner Unit := do
  let _ ← fieldBetween 2 0 23
  exactly ':'
  let _ ← fieldBetween 2 0 59
  exactly ':'
  let _ ← fieldBetween 2 0 60
  let _ ← optional? (do exactly '.'; run1 Char.isDigit)

/-- The offset of a time from universal time. -/
def offset : Scanner Unit :=
  (do let _ ← character fun mark => mark = 'Z' || mark = 'z') <|> do
    let _ ← sign
    let _ ← fieldBetween 2 0 23
    exactly ':'
    let _ ← fieldBetween 2 0 59

/-- A time after a date. -/
def timeAfterDate : Scanner Unit := do
  let _ ← character fun mark => mark = 'T' || mark = 't' || mark = ' '
  time
  let _ ← optional? offset

/-- A date, a time, or both. -/
def datetime : Scanner Unit :=
  (do date; let _ ← optional? timeAfterDate) <|> time

/-- A number or a date. -/
def value : Scanner Toml :=
  (do datetime; return .datetime)
    <|> (do return .float (← decimalFloat))
    <|> (do return .float (← namedFloat))
    <|> (do return .integer (← integer))

end LayerPlayback.TomlNumber
