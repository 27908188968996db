import LayerPlayback.Number.Decimal

namespace LayerPlayback.NumberText

/-!
# Numbers as text

Doubles are written in positional notation, never with an exponent: `plain`
gives the shortest digits that read back, `pointed` adds `.0` to whole numbers,
and `fixed` rounds the exact value to a number of places, ties to the even
digit.  The sign of zero is kept.  Columns are padded on the left.
-/

/-- The decimal digits of a natural number. -/
def naturalDigits (value : Nat) : List Char :=
  Nat.toDigits 10 value

/-- `coefficient / 10 ^ places` with exactly `places` digits after the point. -/
def withPlaces (coefficient places : Nat) : List Char :=
  if places = 0 then
    naturalDigits coefficient
  else
    let fraction := naturalDigits (coefficient % Nat.pow 10 places)
    naturalDigits (coefficient / Nat.pow 10 places)
      ++ '.' :: List.replicate (places - fraction.length) '0'
      ++ fraction

/-- A decimal in positional notation; whole numbers have no point. -/
def positional (number : Decimal) : List Char :=
  withPlaces number.expanded.coefficient number.expanded.exponent.natAbs

/-- The sign of a double in front of the text of its magnitude. -/
def signed (x : Float) (magnitudeText : List Char) : List Char :=
  if Binary64.isNegative x then '-' :: magnitudeText else magnitudeText

/-- The shortest positional text of the magnitude of a finite double. -/
def shortestMagnitude (x : Float) : List Char :=
  if x == 0.0 then ['0'] else positional (Decimal.shortest .upward x.abs)

/-- The characters of `plain`. -/
def plainCharacters (x : Float) : List Char :=
  if x.isNaN then
    ['N', 'a', 'N']
  else
    signed x (if x.isFinite then shortestMagnitude x else ['i', 'n', 'f'])

/-- A double in its shortest positional text. -/
def plain (x : Float) : String :=
  String.ofList (plainCharacters x)

/-- A double in its shortest positional text, whole numbers ending in `.0`. -/
def pointed (x : Float) : String :=
  let characters := plainCharacters x
  if x.isFinite && !characters.contains '.' then
    String.ofList characters ++ ".0"
  else
    String.ofList characters

/-- A double rounded to a number of places, ties to even. -/
def fixed (places : Nat) (x : Float) : String :=
  if x.isFinite then
    let units := Decimal.measure (Binary64.magnitude x) (-places)
    String.ofList (signed x (withPlaces (units.rounded .toEven) places))
  else
    plain x

/-- Text padded with spaces on the left to a column width. -/
def padded (width : Nat) (text : String) : String :=
  String.ofList (List.replicate (width - text.length) ' ') ++ text

end LayerPlayback.NumberText
