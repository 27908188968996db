import LayerPlayback.Machine

namespace LayerPlayback

/-!
# What a machine does with its coordinates

A machine adds words to its coordinates and takes words from them, axis by axis, or
puts zeros in their place.  So what sums and differences with the words of a command
have in common is shared by all coordinates after the command.
-/

namespace PartialPosition

/-- Words by which coordinates of one property lead to coordinates of another one. -/
structure Leads (named : PartialPosition) (before after : Float → Prop) : Prop where
  unnamed : ∀ x, before x → after x
  wordPlus : ∀ axis word, named.get? axis = some word → ∀ x, before x → after (word + x)
  plusWord : ∀ axis word, named.get? axis = some word → ∀ x, before x → after (x + word)
  minusWord : ∀ axis word, named.get? axis = some word → ∀ x, before x → after (x - word)

theorem get?_of_get?_extruderOnly
    {named : PartialPosition}
    {axis : Axis}
    {word : Float}
    (given : named.extruderOnly.get? axis = some word) :
    named.get? axis = some word := by
  cases axis with
  | e => exact given
  | _ => cases given

/-- Fewer words lead nowhere else. -/
theorem Leads.extruderOnly
    {named : PartialPosition}
    {before after : Float → Prop}
    (leads : named.Leads before after) :
    named.extruderOnly.Leads before after where
  unnamed := leads.unnamed
  wordPlus axis word given := leads.wordPlus axis word (get?_of_get?_extruderOnly given)
  plusWord axis word given := leads.plusWord axis word (get?_of_get?_extruderOnly given)
  minusWord axis word given := leads.minusWord axis word (get?_of_get?_extruderOnly given)

end PartialPosition

namespace Machine

/-- All coordinates of the position and of the offset have a property. -/
structure Coordinates (holds : Float → Prop) (machine : Machine) : Prop where
  position : ∀ axis, holds (machine.position.get axis)
  offset : ∀ axis, holds (machine.offset.get axis)

namespace Coordinates

variable
  {before after : Float → Prop}
  {machine : Machine}
  (coordinates : machine.Coordinates before)

include coordinates

theorem weaken (unnamed : ∀ x, before x → after x) : machine.Coordinates after :=
  ⟨fun axis => unnamed _ (coordinates.position axis),
    fun axis => unnamed _ (coordinates.offset axis)⟩

theorem setMode (mode : PositioningMode) : (machine.setMode mode).Coordinates before :=
  ⟨coordinates.position, coordinates.offset⟩

/-- Homing puts zeros in the place of the offsets and keeps the coordinates. -/
theorem home (zero : before 0.0) : machine.home.Coordinates before where
  position := coordinates.position
  offset axis := by cases axis <;> exact zero

variable {named : PartialPosition} (leads : named.Leads before after)

include leads

/-- A word leads to a sum with the offset or with the position, as the mode says. -/
theorem target
    {axis : Axis}
    {word : Float}
    (given : named.get? axis = some word) :
    after (machine.target axis word) := by
  unfold Machine.target
  cases machine.mode with
  | absolute => exact leads.wordPlus axis word given _ (coordinates.offset axis)
  | relative => exact leads.plusWord axis word given _ (coordinates.position axis)

/-- Coordinates that are named become sums with their words; offsets stay. -/
theorem move : (machine.move named).Coordinates after where
  position axis := by
    rw [get_position_move]
    cases given : named.get? axis with
    | none => exact leads.unnamed _ (coordinates.position axis)
    | some word => exact coordinates.target leads given
  offset axis := by
    rw [offset_move]
    exact leads.unnamed _ (coordinates.offset axis)

/-- Offsets that are named become differences with their words; coordinates stay. -/
theorem setPosition : (machine.setPosition named).Coordinates after where
  position axis := by
    rw [position_setPosition]
    exact leads.unnamed _ (coordinates.position axis)
  offset axis := by
    rw [get_offset_setPosition]
    cases given : named.get? axis with
    | none => exact leads.unnamed _ (coordinates.offset axis)
    | some word => exact leads.minusWord axis word given _ (coordinates.position axis)

end Coordinates

end Machine

end LayerPlayback
