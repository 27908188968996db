import LayerPlayback.Axis
import LayerPlayback.Number.Text

namespace LayerPlayback

/-!
# Points and positions

A `Point` lies in space, a `Position` also has an extruder coordinate, and a
`PartialPosition` gives values to some of the axes.  An axis without a value is
different from an axis at zero.

Points and positions are compared with `==`, coordinate by coordinate, as
doubles compare: zeros of both signs are equal, and NaN equals nothing.
-/

/-- A point in space. -/
structure Point where
  x : Float := 0.0
  y : Float := 0.0
  z : Float := 0.0
  deriving Repr, BEq

namespace Point

/-- The Euclidean distance between two points. -/
def distance (start finish : Point) : Float :=
  let dx := finish.x - start.x
  let dy := finish.y - start.y
  let dz := finish.z - start.z
  (dx * dx + dy * dy + dz * dz).sqrt

end Point

/-- One coordinate for every tracked axis. -/
structure Position where
  x : Float := 0.0
  y : Float := 0.0
  z : Float := 0.0
  e : Float := 0.0
  deriving Repr, BEq

namespace Position

/-- The position at zero on every axis. -/
def origin : Position := {}

/-- The coordinate on one axis. -/
def get (position : Position) : Axis → Float
  | .x => position.x
  | .y => position.y
  | .z => position.z
  | .e => position.e

/-- The position with another coordinate on one axis. -/
def set (position : Position) (axis : Axis) (value : Float) : Position :=
  match axis with
  | .x => { position with x := value }
  | .y => { position with y := value }
  | .z => { position with z := value }
  | .e => { position with e := value }

/-- Where a position lies in space. -/
def point (position : Position) : Point :=
  ⟨position.x, position.y, position.z⟩

/-- The coordinates with three decimal places each. -/
def display (position : Position) : String :=
  " ".intercalate
    (Axis.all.map fun axis =>
      s!"{axis.letter}:" ++ NumberText.fixed 3 (position.get axis))

@[simp] theorem get_set_same (position : Position) (axis : Axis) (value : Float) :
    (position.set axis value).get axis = value := by
  cases axis <;> rfl

theorem get_set_other
    (position : Position)
    {axis other : Axis}
    (value : Float)
    (different : other ≠ axis) :
    (position.set axis value).get other = position.get other := by
  cases axis <;> cases other <;> simp_all [get, set]

end Position

/-- Values for some of the tracked axes. -/
structure PartialPosition where
  x? : Option Float := none
  y? : Option Float := none
  z? : Option Float := none
  e? : Option Float := none
  deriving Repr, BEq

namespace PartialPosition

/-- A partial position from the value of each axis. -/
def ofFunction (value? : Axis → Option Float) : PartialPosition :=
  ⟨value? .x, value? .y, value? .z, value? .e⟩

/-- The value that is given for an axis. -/
def get? (named : PartialPosition) : Axis → Option Float
  | .x => named.x?
  | .y => named.y?
  | .z => named.z?
  | .e => named.e?

/-- The partial position that also gives a value to one axis. -/
def naming (named : PartialPosition) (axis : Axis) (value : Float) : PartialPosition :=
  match axis with
  | .x => { named with x? := some value }
  | .y => { named with y? := some value }
  | .z => { named with z? := some value }
  | .e => { named with e? := some value }

/-- The named axes and their values, in canonical order. -/
def entries (named : PartialPosition) : List (Axis × Float) :=
  Axis.all.filterMap fun axis => (named.get? axis).map fun value => (axis, value)

/-- Whether no axis is named. -/
def isEmpty (named : PartialPosition) : Bool :=
  Axis.all.all fun axis => (named.get? axis).isNone

/-- Whether an axis other than the extruder axis is named. -/
def namesSpatial (named : PartialPosition) : Bool :=
  Axis.all.any fun axis => axis.isSpatial && (named.get? axis).isSome

/-- The same extruder value, and no other axis. -/
def extruderOnly (named : PartialPosition) : PartialPosition :=
  { e? := named.e? }

/-- A position with the named coordinates replaced. -/
def applyTo (named : PartialPosition) (position : Position) : Position :=
  ⟨named.x?.getD position.x,
   named.y?.getD position.y,
   named.z?.getD position.z,
   named.e?.getD position.e⟩

@[simp] theorem get?_ofFunction (value? : Axis → Option Float) (axis : Axis) :
    (ofFunction value?).get? axis = value? axis := by
  cases axis <;> rfl

/-- Axis by axis, a named value takes the place of the one of the position. -/
theorem get_applyTo (named : PartialPosition) (position : Position) (axis : Axis) :
    (named.applyTo position).get axis = (named.get? axis).getD (position.get axis) := by
  cases axis <;> rfl

end PartialPosition

end LayerPlayback
