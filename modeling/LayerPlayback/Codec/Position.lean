import LayerPlayback.Json.Decode
import LayerPlayback.Position

namespace LayerPlayback

/-!
# JSON forms of points and positions

Points and positions are records of their coordinates.  In a partial position an
axis without a value is null.
-/

/-- An axis is written as its letter. -/
def Axis.toJson (axis : Axis) : Json :=
  .ofChar axis.letter

/-- Read an axis. -/
def Axis.ofJson? (json : Json) : Option Axis := do
  let name ← json.unitCase?
  Axis.all.find? fun axis => axis.letter.toString = name

/-- A point in JSON. -/
def Point.toJson (point : Point) : Json :=
  .object
    [ ("x", .ofFloat point.x),
      ("y", .ofFloat point.y),
      ("z", .ofFloat point.z) ]

/-- Read a point. -/
def Point.ofJson? (json : Json) : Option Point :=
  match json.record? ["x", "y", "z"] with
  | some [x, y, z] => do
      some
        { x := ← Json.required? Json.float? x
          y := ← Json.required? Json.float? y
          z := ← Json.required? Json.float? z }
  | _ => none

/-- A position in JSON. -/
def Position.toJson (position : Position) : Json :=
  .object
    [ ("x", .ofFloat position.x),
      ("y", .ofFloat position.y),
      ("z", .ofFloat position.z),
      ("e", .ofFloat position.e) ]

/-- Read a position. -/
def Position.ofJson? (json : Json) : Option Position :=
  match json.record? ["x", "y", "z", "e"] with
  | some [x, y, z, e] => do
      some
        { x := ← Json.required? Json.float? x
          y := ← Json.required? Json.float? y
          z := ← Json.required? Json.float? z
          e := ← Json.required? Json.float? e }
  | _ => none

/-- A partial position in JSON. -/
def PartialPosition.toJson (named : PartialPosition) : Json :=
  .object
    [ ("x", .ofOption .ofFloat named.x?),
      ("y", .ofOption .ofFloat named.y?),
      ("z", .ofOption .ofFloat named.z?),
      ("e", .ofOption .ofFloat named.e?) ]

/-- Read a partial position. -/
def PartialPosition.ofJson? (json : Json) : Option PartialPosition :=
  match json.record? ["x", "y", "z", "e"] with
  | some [x, y, z, e] => do
      some
        { x? := ← Json.optional? Json.float? x
          y? := ← Json.optional? Json.float? y
          z? := ← Json.optional? Json.float? z
          e? := ← Json.optional? Json.float? e }
  | _ => none

end LayerPlayback
