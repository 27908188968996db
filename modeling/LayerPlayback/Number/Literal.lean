import LayerPlayback.Number.Decimal

namespace LayerPlayback.NumberLiteral

/-!
# Number words

The grammar of a number in program text and on the command line: an optional
sign, then digits with at most one point among, before, or after them, and an
optional exponent; or one of the words `inf`, `infinity`, and `nan` in any case.
At least one digit is needed, and nothing may follow.  The value is the double
nearest to the decimal that is written.
-/

/-- A sign, if there is one, and what follows it. -/
def splitSign : List Char → Bool × List Char
  | '-' :: rest => (true, rest)
  | '+' :: rest => (false, rest)
  | characters => (false, characters)

/-- The value of a decimal digit. -/
def digitValue (digit : Char) : Nat :=
  digit.toNat - '0'.toNat

/-- The value of a string of decimal digits. -/
def digitsValue (digits : List Char) : Nat :=
  digits.foldl (fun value digit => 10 * value + digitValue digit) 0

/-- A nonempty string of digits and nothing else. -/
def isDigits (characters : List Char) : Bool :=
  !characters.isEmpty && characters.all Char.isDigit

/-- The digits after a point, if there is one, and what follows them. -/
def splitFraction : List Char → List Char × List Char
  | '.' :: rest => (rest.takeWhile Char.isDigit, rest.dropWhile Char.isDigit)
  | characters => ([], characters)

/-- An exponent with a sign, or nothing at all. -/
def exponent? : List Char → Option Int
  | [] => some 0
  | mark :: rest =>
      let (negative, digits) := splitSign rest
      if (mark = 'e' || mark = 'E') && isDigits digits then
        some (if negative then -(digitsValue digits) else digitsValue digits)
      else
        none

/-- An unsigned decimal. -/
def decimal? (characters : List Char) : Option Decimal :=
  let whole := characters.takeWhile Char.isDigit
  let (fraction, rest) := splitFraction (characters.dropWhile Char.isDigit)
  if whole.isEmpty && fraction.isEmpty then
    none
  else
    (exponent? rest).map fun exponent =>
      ⟨digitsValue (whole ++ fraction), exponent - fraction.length⟩

/-- One of the words for values that are not finite. -/
def special? (characters : List Char) : Option Float :=
  match characters.map Char.toLower with
  | ['i', 'n', 'f'] => some Binary64.infinity
  | ['i', 'n', 'f', 'i', 'n', 'i', 't', 'y'] => some Binary64.infinity
  | ['n', 'a', 'n'] => some (0.0 / 0.0)
  | _ => none

/-- The double that a number word stands for. -/
def number? (characters : List Char) : Option Float :=
  let (negative, magnitude) := splitSign characters
  ((decimal? magnitude).map Decimal.nearest <|> special? magnitude).map fun x =>
    if negative then -x else x

/-- The double that a number word stands for, unless it is infinite or NaN. -/
def finite? (characters : List Char) : Option Float :=
  (number? characters).filter Float.isFinite

end LayerPlayback.NumberLiteral
