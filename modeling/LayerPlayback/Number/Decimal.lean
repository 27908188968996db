import LayerPlayback.Number.Binary64

namespace LayerPlayback

/-!
# Decimal numbers and the doubles nearest to them

`Decimal` is an exact decimal number `coefficient * 10 ^ exponent`.  `nearest`
rounds it to binary64, and `shortest` goes back: among the decimals that round
to a given double it takes one with the fewest digits, and of those the nearest
one.  A candidate is accepted only when it reads back, so what `shortest` finds
on its grids is right by construction; beyond the grids stands the exact
expansion of the double.
-/

/-- An unsigned decimal number `coefficient * 10 ^ exponent`. -/
structure Decimal where
  coefficient : Nat
  exponent : Int
  deriving Repr, DecidableEq

/-- Which of two equally near decimals is written. -/
inductive Tie where
  | upward
  | toEven
  deriving Repr, DecidableEq

namespace Decimal

open Binary64 (Magnitude magnitude)

/-- The double nearest to a decimal, ties to the even significand. -/
def nearest (number : Decimal) : Float :=
  Float.ofScientific
    number.coefficient
    (decide (number.exponent < 0))
    number.exponent.natAbs

/-- Every binary magnitude has a finite decimal expansion. -/
def exact (size : Magnitude) : Decimal :=
  match size.exponent with
  | .ofNat up => ⟨size.significand * Nat.pow 2 up, 0⟩
  | .negSucc down => ⟨size.significand * Nat.pow 5 (down + 1), -(down + 1)⟩

/-- A quotient of naturals with its remainder, for rounding to a grid. -/
structure Division where
  quotient : Nat
  remainder : Nat
  divisor : Nat
  deriving Repr, DecidableEq

namespace Division

/-- Divide and keep what rounding needs. -/
def of (dividend divisor : Nat) : Division :=
  ⟨dividend / divisor, dividend % divisor, divisor⟩

/-- Whether the nearer integer is the one above, with ties as asked. -/
def prefersAbove (tie : Tie) (division : Division) : Bool :=
  if 2 * division.remainder = division.divisor then
    match tie with
    | .upward => true
    | .toEven => division.quotient % 2 = 1
  else
    division.divisor < 2 * division.remainder

/-- The nearest integer, with ties as asked. -/
def rounded (tie : Tie) (division : Division) : Nat :=
  if division.prefersAbove tie then division.quotient + 1 else division.quotient

end Division

/-- A magnitude measured in units of `10 ^ unit`. -/
def measure (size : Magnitude) (unit : Int) : Division :=
  .of
    (size.significand * Nat.pow 2 size.exponent.toNat * Nat.pow 10 (-unit).toNat)
    (Nat.pow 2 (-size.exponent).toNat * Nat.pow 10 unit.toNat)

/-- The same number with its trailing zeros written out. -/
def expanded (number : Decimal) : Decimal :=
  ⟨number.coefficient * Nat.pow 10 number.exponent.toNat, min number.exponent 0⟩

/-- Whether a decimal, with its trailing zeros written out, rounds to this double. -/
def readsBack (x : Float) (number : Decimal) : Bool :=
  number.expanded.nearest == x

/--
A multiple of `10 ^ unit` that reads back as the positive double `x`: one of
the two neighbours of `x`, the nearer one when both do.
-/
def onGrid? (tie : Tie) (x : Float) (unit : Int) : Option Decimal :=
  let place := measure (magnitude x) unit
  let below : Decimal := ⟨place.quotient, unit⟩
  let above : Decimal := ⟨place.quotient + 1, unit⟩
  match readsBack x below, readsBack x above with
  | true, true => some (if place.prefersAbove tie then above else below)
  | true, false => some below
  | false, true => some above
  | false, false => none

/-- What is found on a grid reads back. -/
theorem readsBack_of_onGrid?
    {tie : Tie}
    {x : Float}
    {unit : Int}
    {number : Decimal}
    (found : onGrid? tie x unit = some number) :
    readsBack x number = true := by
  unfold onGrid? at found
  grind

/--
The exponent of a power of ten above `x`, at most two too large: `x` lies below
`2 ^ (binary + 1)`, and `0.30103` is just above the decimal logarithm of two.
-/
def coarsestUnit (size : Magnitude) : Int :=
  (Nat.log2 size.significand + size.exponent) * 30103 / 100000 + 2

/-- The decimal with the fewest digits that reads back as the positive double `x`. -/
def shortest (tie : Tie) (x : Float) : Decimal :=
  let size := magnitude x
  let coarsest := coarsestUnit size
  let found :=
    (List.range 20).findSome? fun (finer : Nat) => onGrid? tie x (coarsest - finer)
  found.getD (exact size)

end Decimal

end LayerPlayback
