import LayerPlayback.Codec.Position
import LayerPlayback.Machine

namespace LayerPlayback

/-!
# JSON forms of machines
-/

/-- A positioning mode in JSON. -/
def PositioningMode.toJson : PositioningMode → Json
  | .absolute => .string "Absolute"
  | .relative => .string "Relative"

/-- Read a positioning mode. -/
def PositioningMode.ofJson? (json : Json) : Option PositioningMode :=
  match json.unitCase? with
  | some "Absolute" => some .absolute
  | some "Relative" => some .relative
  | _ => none

/-- A machine in JSON. -/
def Machine.toJson (machine : Machine) : Json :=
  .object
    [ ("mode", machine.mode.toJson),
      ("offset", machine.offset.toJson),
      ("position", machine.position.toJson) ]

/-- Read a machine. -/
def Machine.ofJson? (json : Json) : Option Machine :=
  match json.record? ["mode", "offset", "position"] with
  | some [mode, offset, position] => do
      some
        { mode := ← Json.required? PositioningMode.ofJson? mode
          offset := ← Json.required? Position.ofJson? offset
          position := ← Json.required? Position.ofJson? position }
  | _ => none

end LayerPlayback
