namespace LayerPlayback.Binary64

/-!
# Exact readings of binary64 numbers

A finite double is a sign and a magnitude `significand · 2 ^ exponent`.  This
module reads those parts off the bits and states, in integers, the few
operations that arithmetic alone does not give: rounding to an integer, the
total order of bit patterns, extremes that skip NaN, and integer powers.

Addition, subtraction, multiplication, division, and square roots stay with the
operations of `Float`, in the order in which the other modules write them.
-/

/-- Positive infinity. -/
def infinity : Float :=
  1.0 / 0.0

/-- The greatest finite double. -/
def greatestFinite : Float :=
  Float.ofBits 0x7FEFFFFFFFFFFFFF

/-- The least finite double. -/
def leastFinite : Float :=
  -greatestFinite

/-- The exact magnitude `significand * 2 ^ exponent` of a finite double. -/
structure Magnitude where
  significand : Nat
  exponent : Int
  deriving Repr, DecidableEq

/-- The bits of a double as a natural number below `2 ^ 64`. -/
def bits (x : Float) : Nat :=
  x.toBits.toNat

/-- Whether the sign bit is set, also on zeros and infinities. -/
def isNegative (x : Float) : Bool :=
  Nat.pow 2 63 ≤ bits x

/-- The biased exponent field. -/
def exponentField (x : Float) : Nat :=
  bits x / Nat.pow 2 52 % Nat.pow 2 11

/-- The trailing significand field. -/
def fractionField (x : Float) : Nat :=
  bits x % Nat.pow 2 52

/-- The magnitude of a finite double; subnormals share the least exponent. -/
def magnitude (x : Float) : Magnitude :=
  if exponentField x = 0 then
    ⟨fractionField x, -1074⟩
  else
    ⟨Nat.pow 2 52 + fractionField x, exponentField x - 1075⟩

/-- The integer nearest to a magnitude, with halves rounded up. -/
def Magnitude.rounded (size : Magnitude) : Nat :=
  match size.exponent with
  | .ofNat up => size.significand * Nat.pow 2 up
  | .negSucc down => (size.significand + Nat.pow 2 down) / Nat.pow 2 (down + 1)

/-- The greatest signed 64-bit integer. -/
def greatestInt64 : Int :=
  Nat.pow 2 63 - 1

/-- The least signed 64-bit integer. -/
def leastInt64 : Int :=
  -Nat.pow 2 63

/--
The nearest signed 64-bit integer, with halves rounded away from zero.  Values
beyond the range give its nearest end, and NaN gives zero.
-/
def nearestInt64 (x : Float) : Int :=
  if x.isNaN then
    0
  else if isNegative x then
    if x.isFinite then max leastInt64 (-(magnitude x).rounded) else leastInt64
  else
    if x.isFinite then min greatestInt64 (magnitude x).rounded else greatestInt64

/-- The whole units in a double: zero below one and on NaN, capped at `2 ^ 64 - 1`. -/
def wholeUnits (x : Float) : Nat :=
  x.toUInt64.toNat

/--
A key whose integer order is the total order of bit patterns: negative before
positive, and `-0.0` before `0.0`.
-/
def orderKey (x : Float) : Int :=
  if isNegative x then
    Nat.pow 2 63 - 1 - bits x
  else
    bits x

/-- The smaller of two doubles; a NaN gives way, and of equals the first is kept. -/
def smaller (first second : Float) : Float :=
  if first.isNaN then
    second
  else if second < first then
    second
  else
    first

/-- The larger of two doubles; a NaN gives way, and of equals the first is kept. -/
def larger (first second : Float) : Float :=
  if first.isNaN then
    second
  else if first < second then
    second
  else
    first

/--
`start * base ^ exponent` by repeated squaring, from the lowest binary digit of
the exponent upwards; the order fixes how the products round.
-/
def powerFrom (start base : Float) (exponent : Nat) : Float :=
  if exponent = 0 then
    start
  else
    powerFrom
      (if exponent % 2 = 1 then start * base else start)
      (base * base)
      (exponent / 2)
termination_by exponent

/-- An integer power of a double; a negative exponent gives a reciprocal. -/
def power (base : Float) : Int → Float
  | .ofNat exponent => powerFrom 1.0 base exponent
  | .negSucc exponent => 1.0 / powerFrom 1.0 base (exponent + 1)

/-- The sum of doubles from left to right; no terms add up to `-0.0`. -/
def sum (terms : List Float) : Float :=
  terms.foldl (· + ·) (-0.0)

end LayerPlayback.Binary64
