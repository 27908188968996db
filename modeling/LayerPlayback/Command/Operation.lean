namespace LayerPlayback

/-!
# Operations

A command code is a family letter and a number, and the number selects the
operation.  Codes are compared by numeric value, so `G01` and `G1` are the same.
-/

/-- What a command asks the machine to do. -/
inductive Operation where
  /-- A straight move; `rapid` is informational. -/
  | linearMove (rapid : Bool)
  /-- Homing or levelling. -/
  | home
  | absoluteMode
  | relativeMode
  | setPosition
  /-- A circular move, which is recognised but not interpreted. -/
  | arc (clockwise : Bool)
  /-- Any other code, of the family or foreign to it. -/
  | unknown (inFamily : Bool)
  deriving Repr, DecidableEq

namespace Operation

/-- The operation that a number of the family selects. -/
def ofNumber : Nat → Operation
  | 0 => .linearMove true
  | 1 => .linearMove false
  | 2 => .arc true
  | 3 => .arc false
  | 28 => .home
  | 29 => .home
  | 90 => .absoluteMode
  | 91 => .relativeMode
  | 92 => .setPosition
  | _ => .unknown true

/-- The name of an operation. -/
def label : Operation → String
  | .linearMove true => "Rapid move"
  | .linearMove false => "Linear move"
  | .home => "Home"
  | .absoluteMode => "Absolute positioning"
  | .relativeMode => "Relative positioning"
  | .setPosition => "Set position"
  | .arc true => "Clockwise arc"
  | .arc false => "Counter-clockwise arc"
  | .unknown _ => "Unknown"

end Operation

end LayerPlayback
