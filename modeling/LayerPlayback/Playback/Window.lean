import LayerPlayback.Number.Binary64

namespace LayerPlayback

/-!
# Layer windows

A window has a lower and an upper bound that never cross.  A bound that is moved
past the other one takes it along.
-/

/-- How the bounds of a window address layers. -/
inductive CursorMode where
  /-- Bounds are layer indices in build order. -/
  | layerIndex
  /-- Bounds are heights. -/
  | height
  deriving Repr, DecidableEq

namespace CursorMode

/-- The word for a mode. -/
def label : CursorMode → String
  | .layerIndex => "layer_index"
  | .height => "height"

end CursorMode

/-- A lower and an upper bound. -/
structure LayerWindow where
  lower : Float
  upper : Float
  deriving Repr, BEq

namespace LayerWindow

/-- A window between two bounds; a pair in the wrong order closes at the lower bound. -/
def between (lower upper : Float) : LayerWindow :=
  ⟨lower, Binary64.larger upper lower⟩

/-- Move the lower bound. -/
def setLower (window : LayerWindow) (value : Float) : LayerWindow :=
  ⟨value, if window.upper < value then value else window.upper⟩

/-- Move the upper bound. -/
def setUpper (window : LayerWindow) (value : Float) : LayerWindow :=
  ⟨if value < window.lower then value else window.lower, value⟩

/-- Whether a key lies between the bounds. -/
def contains (window : LayerWindow) (key : Float) : Bool :=
  window.lower ≤ key && key ≤ window.upper

/-- Whether a key lies between the bounds, widened by a tolerance on both ends. -/
def containsWithin (window : LayerWindow) (key tolerance : Float) : Bool :=
  window.lower - tolerance ≤ key && key ≤ window.upper + tolerance

end LayerWindow

end LayerPlayback
