import LayerPlayback.Position

namespace LayerPlayback

/-!
# Machine tracking

The machine keeps a positioning mode, a zero offset for each axis, and the
position at which the tool is believed to be.  Words of a move are coordinates
shifted by the offsets in absolute mode, and distances in relative mode.
-/

/-- How the words of a move are read. -/
inductive PositioningMode where
  | absolute
  | relative
  deriving Repr, DecidableEq

namespace PositioningMode

/-- The wording of a mode, with the code that selects it. -/
def label : PositioningMode → String
  | .absolute => "Absolute positioning (G90)"
  | .relative => "Incremental positioning (G91)"

end PositioningMode

/-- The positions before and after one move. -/
structure Motion where
  start : Position
  finish : Position
  deriving Repr, BEq

namespace Motion

/-- The signed change on the extruder axis. -/
def extruded (motion : Motion) : Float :=
  motion.finish.e - motion.start.e

/-- Whether the material feed strictly increased. -/
def deposits (motion : Motion) : Bool :=
  0.0 < motion.extruded

/-- Whether the move ends where it started, on every axis. -/
def staysPut (motion : Motion) : Bool :=
  motion.start == motion.finish

end Motion

/-- The tracked state of a machine. -/
structure Machine where
  mode : PositioningMode := .absolute
  offset : Position := .origin
  position : Position := .origin
  deriving Repr, BEq

namespace Machine

/-- A machine in absolute mode without offsets, at a known position. -/
def startingAt (position : Position) : Machine :=
  { position := position }

/-- The coordinate that a word of a move leads to. -/
def target (machine : Machine) (axis : Axis) (value : Float) : Float :=
  match machine.mode with
  | .absolute => value + machine.offset.get axis
  | .relative => machine.position.get axis + value

/-- Move along one axis. -/
def moveAxis (machine : Machine) (entry : Axis × Float) : Machine :=
  { machine with
    position := machine.position.set entry.1 (machine.target entry.1 entry.2) }

/-- Move along the named axes; the others keep their coordinates. -/
def move (machine : Machine) (named : PartialPosition) : Machine :=
  named.entries.foldl moveAxis machine

/-- The positions before and after a move. -/
def motion (machine : Machine) (named : PartialPosition) : Motion :=
  ⟨machine.position, (machine.move named).position⟩

/-- Read the words of later moves in a mode. -/
def setMode (machine : Machine) (mode : PositioningMode) : Machine :=
  { machine with mode := mode }

/-- Give the current coordinate of one axis a new value, without a move. -/
def setAxis (machine : Machine) (entry : Axis × Float) : Machine :=
  { machine with
    offset := machine.offset.set entry.1 (machine.position.get entry.1 - entry.2) }

/-- Give the current coordinates of the named axes new values, without a move. -/
def setPosition (machine : Machine) (named : PartialPosition) : Machine :=
  named.entries.foldl setAxis machine

/-- Clear the offsets and return to absolute mode; the position is kept. -/
def home (machine : Machine) : Machine :=
  { machine with mode := .absolute, offset := .origin }

@[simp] theorem mode_move (machine : Machine) (named : PartialPosition) :
    (machine.move named).mode = machine.mode := by
  unfold move
  induction named.entries generalizing machine with
  | nil => rfl
  | cons entry rest inductionHypothesis => exact inductionHypothesis _

/-- A move never shifts the origin of an axis; only a command that sets a position does. -/
@[simp] theorem offset_move (machine : Machine) (named : PartialPosition) :
    (machine.move named).offset = machine.offset := by
  unfold move
  induction named.entries generalizing machine with
  | nil => rfl
  | cons entry rest inductionHypothesis => exact inductionHypothesis _

/-- A named axis moves to the target of its word, and the others stay. -/
theorem get_position_move (machine : Machine) (named : PartialPosition) (axis : Axis) :
    (machine.move named).position.get axis
      = ((named.get? axis).map (machine.target axis)).getD (machine.position.get axis) := by
  obtain ⟨x?, y?, z?, e?⟩ := named
  obtain ⟨mode, offset, position⟩ := machine
  cases x? <;> cases y? <;> cases z? <;> cases e? <;> cases axis <;> cases mode <;> rfl

@[simp] theorem mode_setPosition (machine : Machine) (named : PartialPosition) :
    (machine.setPosition named).mode = machine.mode := by
  unfold setPosition
  induction named.entries generalizing machine with
  | nil => rfl
  | cons entry rest inductionHypothesis => exact inductionHypothesis _

/-- Setting a position renames where the machine is, and does not move it. -/
@[simp] theorem position_setPosition (machine : Machine) (named : PartialPosition) :
    (machine.setPosition named).position = machine.position := by
  unfold setPosition
  induction named.entries generalizing machine with
  | nil => rfl
  | cons entry rest inductionHypothesis => exact inductionHypothesis _

/-- The offset of a named axis becomes what its coordinate exceeds its word by. -/
theorem get_offset_setPosition
    (machine : Machine)
    (named : PartialPosition)
    (axis : Axis) :
    (machine.setPosition named).offset.get axis
      = ((named.get? axis).map fun value => machine.position.get axis - value).getD
          (machine.offset.get axis) := by
  obtain ⟨x?, y?, z?, e?⟩ := named
  cases x? <;> cases y? <;> cases z? <;> cases e? <;> cases axis <;> rfl

end Machine

/-- One operation on a tracked machine. -/
inductive MachineAction where
  | move (named : PartialPosition)
  | setMode (mode : PositioningMode)
  | setPosition (named : PartialPosition)
  | setAxis (axis : Axis) (value : Float)
  | home
  deriving Repr

namespace MachineAction

/-- The machine after an action. -/
def apply (machine : Machine) : MachineAction → Machine
  | .move named => machine.move named
  | .setMode mode => machine.setMode mode
  | .setPosition named => machine.setPosition named
  | .setAxis axis value => machine.setAxis (axis, value)
  | .home => machine.home

end MachineAction

end LayerPlayback
