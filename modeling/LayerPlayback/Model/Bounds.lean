import LayerPlayback.Model

namespace LayerPlayback

/-!
# Bounding boxes

A box grows with every point that is added.  It starts inside out, at the ends
of the finite range, so the first finite point sets all six sides.
-/

/-- An axis-aligned box. -/
structure Bounds where
  minX : Float := Binary64.greatestFinite
  maxX : Float := Binary64.leastFinite
  minY : Float := Binary64.greatestFinite
  maxY : Float := Binary64.leastFinite
  minZ : Float := Binary64.greatestFinite
  maxZ : Float := Binary64.leastFinite
  deriving Repr, BEq

namespace Bounds

/-- The box without points. -/
def empty : Bounds := {}

/-- The box that also holds a point; coordinates that are NaN are passed over. -/
def add (bounds : Bounds) (point : Point) : Bounds :=
  { minX := Binary64.smaller bounds.minX point.x
    maxX := Binary64.larger bounds.maxX point.x
    minY := Binary64.smaller bounds.minY point.y
    maxY := Binary64.larger bounds.maxY point.y
    minZ := Binary64.smaller bounds.minZ point.z
    maxZ := Binary64.larger bounds.maxZ point.z }

/-- The box of some points. -/
def ofPoints (points : List Point) : Bounds :=
  points.foldl add empty

/-- Whether all sides are finite and none is inside out; a flat box is valid. -/
def isValid (bounds : Bounds) : Bool :=
  bounds.minX.isFinite && bounds.maxX.isFinite
    && bounds.minY.isFinite && bounds.maxY.isFinite
    && bounds.minZ.isFinite && bounds.maxZ.isFinite
    && bounds.minX ≤ bounds.maxX
    && bounds.minY ≤ bounds.maxY
    && bounds.minZ ≤ bounds.maxZ

/-- The extent along the x axis, zero for an invalid box. -/
def width (bounds : Bounds) : Float :=
  if bounds.isValid then bounds.maxX - bounds.minX else 0.0

/-- The extent along the y axis, zero for an invalid box. -/
def depth (bounds : Bounds) : Float :=
  if bounds.isValid then bounds.maxY - bounds.minY else 0.0

/-- The extent along the z axis, zero for an invalid box. -/
def height (bounds : Bounds) : Float :=
  if bounds.isValid then bounds.maxZ - bounds.minZ else 0.0

/-- The middle of a valid box. -/
def center? (bounds : Bounds) : Option Point :=
  if bounds.isValid then
    some
      { x := (bounds.minX + bounds.maxX) / 2.0
        y := (bounds.minY + bounds.maxY) / 2.0
        z := (bounds.minZ + bounds.maxZ) / 2.0 }
  else
    none

end Bounds

/-- The ends of all segments, each start before its finish. -/
def Model.endpoints (model : Model) : List Point :=
  model.segments.flatMap fun segment => [segment.start, segment.finish]

/-- The box of all segment ends. -/
def Model.bounds (model : Model) : Bounds :=
  .ofPoints model.endpoints

end LayerPlayback
