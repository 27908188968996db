namespace LayerPlayback

/-!
# Tracked axes

A machine has four tracked axes: three that move the nozzle in space, and the
extruder axis, which feeds material.
-/

/-- A machine axis that is tracked. -/
inductive Axis where
  | x
  | y
  | z
  | e
  deriving Repr, DecidableEq

namespace Axis

/-- The tracked axes in canonical order. -/
def all : List Axis :=
  [.x, .y, .z, .e]

/-- The word letter that names an axis. -/
def letter : Axis → Char
  | .x => 'X'
  | .y => 'Y'
  | .z => 'Z'
  | .e => 'E'

/-- Whether an axis moves the nozzle in space rather than feeding material. -/
def isSpatial : Axis → Bool
  | .e => false
  | _ => true

/-- The canonical order leaves no axis out. -/
theorem mem_all (axis : Axis) : axis ∈ all := by
  cases axis <;> simp [all]

end Axis

end LayerPlayback
