import LayerPlayback.Model

namespace LayerPlayback

/-!
# Layer steps

The nominal layer step of a model is the most frequent height difference between
neighbours, once the layer heights are sorted and differences are rounded to a
number of decimal digits.  Of equally frequent steps the first one seen counts,
from low heights to high ones.
-/

/-- Counts of rounded height differences. -/
structure StepHistogram where
  /-- How many units a height of one has. -/
  scale : Float
  /-- Each difference in units with its count, in the order first seen. -/
  buckets : List (Nat × Nat)
  deriving Repr

namespace StepHistogram

/-- Count one more occurrence of a difference. -/
def count (difference : Nat) : List (Nat × Nat) → List (Nat × Nat)
  | [] => [(difference, 1)]
  | (known, occurrences) :: rest =>
      if known = difference then
        (known, occurrences + 1) :: rest
      else
        (known, occurrences) :: count difference rest

/-- The finite heights in ascending order, `-0.0` before `0.0`. -/
def sortedHeights (heights : List Float) : List Float :=
  (heights.filter Float.isFinite).mergeSort fun first second =>
    Binary64.orderKey first ≤ Binary64.orderKey second

/-- A height difference in units, a half rounded up; zero unless it is positive. -/
def units (scale below above : Float) : Nat :=
  (Binary64.nearestInt64 ((above - below) * scale)).toNat

/-- The positive differences between neighbouring heights, in units. -/
def differences (scale : Float) (heights : List Float) : List Nat :=
  let sorted := sortedHeights heights
  (List.zipWith (units scale) sorted sorted.tail).filter fun difference => 0 < difference

/-- How many units a height of one has at a number of decimal digits. -/
def scaleOf (precisionDigits : UInt32) : Float :=
  Binary64.power 10.0 precisionDigits.toInt32.toInt

/-- The histogram of some heights. -/
def ofHeights (precisionDigits : UInt32) (heights : List Float) : StepHistogram :=
  let scale := scaleOf precisionDigits
  { scale := scale
    buckets := (differences scale heights).foldl (fun buckets difference =>
      count difference buckets) [] }

/-- The histogram of the layer heights. -/
def ofLayers (precisionDigits : UInt32) (layers : List Layer) : StepHistogram :=
  ofHeights precisionDigits (layers.map Layer.z)

/-- The height difference of a number of units. -/
def stepOf (histogram : StepHistogram) (units : Nat) : Float :=
  Float.ofNat units / histogram.scale

/-- The steps with their counts, in the order first seen. -/
def steps (histogram : StepHistogram) : List (Float × Nat) :=
  histogram.buckets.map fun (units, occurrences) => (histogram.stepOf units, occurrences)

/-- Whether no difference was counted. -/
def isEmpty (histogram : StepHistogram) : Bool :=
  histogram.buckets.isEmpty

/-- The more frequent of two buckets, the first one when they are equal. -/
def moreFrequent (best : Option (Nat × Nat)) (bucket : Nat × Nat) : Option (Nat × Nat) :=
  match best with
  | some held => if held.2 < bucket.2 then some bucket else some held
  | none => some bucket

/-- The most frequent bucket. -/
def modalBucket? (histogram : StepHistogram) : Option (Nat × Nat) :=
  histogram.buckets.foldl moreFrequent none

/-- The most frequent step. -/
def modalStep? (histogram : StepHistogram) : Option Float :=
  histogram.modalBucket?.map fun bucket => histogram.stepOf bucket.1

/-- The most frequent step, or another one when there is none. -/
def stepOr (histogram : StepHistogram) (fallback : Float) : Float :=
  histogram.modalStep?.getD fallback

end StepHistogram

/-- How the nominal layer step is found. -/
structure StepInference where
  /-- The decimal digits that are kept of a height difference. -/
  precisionDigits : UInt32 := 2
  /-- The step of a model whose layers never rise. -/
  fallbackStep : Float := 0.2
  deriving Repr, BEq

namespace StepInference

/-- The nominal step of some layers. -/
def infer (inference : StepInference) (layers : List Layer) : Float :=
  (StepHistogram.ofLayers inference.precisionDigits layers).stepOr inference.fallbackStep

end StepInference

end LayerPlayback
