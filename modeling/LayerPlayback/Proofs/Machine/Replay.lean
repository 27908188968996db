import LayerPlayback.Command
import LayerPlayback.Proofs.Machine.Numbers
import LayerPlayback.Proofs.Model.Path

namespace LayerPlayback

/-!
# Replaying commands on a machine

A machine can be driven by commands alone, without a builder.  Its drawings are
the motions of the linear moves that name an axis and change a coordinate.  This
module proves that the drawings of a replay form a path from where the machine
started to where it ends, although many commands draw nothing.
-/

namespace PartialPosition

theorem eq_of_isEmpty {named : PartialPosition} (empty : named.isEmpty = true) :
    named = {} := by
  simp only [isEmpty, Axis.all, List.all_cons, List.all_nil, Bool.and_true,
    Bool.and_eq_true, Option.isNone_iff_eq_none] at empty
  obtain ⟨x, y, z, e⟩ := empty
  obtain ⟨x?, y?, z?, e?⟩ := named
  cases x
  cases y
  cases z
  cases e
  rfl

end PartialPosition

/-- The segment that a motion draws. -/
def Motion.segment (motion : Motion) : Segment :=
  ⟨motion.start.point, motion.finish.point, motion.deposits⟩

namespace Machine

/--
The machine after a command, as its operation says.  Without `xyzReset`, a
set-position command counts for the extruder axis only.
-/
def obey (xyzReset : Bool) (machine : Machine) (command : Command) : Machine :=
  match command.operation with
  | .linearMove _ => machine.move command.axes
  | .home => machine.home
  | .absoluteMode => machine.setMode .absolute
  | .relativeMode => machine.setMode .relative
  | .setPosition =>
      machine.setPosition (if xyzReset then command.axes else command.axes.extruderOnly)
  | .arc _ => machine
  | .unknown _ => machine

/-- The machine after commands, one after the other. -/
def follow (xyzReset : Bool) (machine : Machine) (commands : List Command) : Machine :=
  commands.foldl (obey xyzReset) machine

/-- The motion of a linear move that names an axis and changes a coordinate. -/
def drawing? (machine : Machine) (command : Command) : Option Motion :=
  match command.operation with
  | .linearMove _ =>
      if command.axes.isEmpty || (machine.motion command.axes).staysPut then
        none
      else
        some (machine.motion command.axes)
  | _ => none

/-- What the commands of a replay draw, in order. -/
def drawings (xyzReset : Bool) : Machine → List Command → List Motion
  | _, [] => []
  | machine, command :: rest =>
      (machine.drawing? command).toList
        ++ drawings xyzReset (machine.obey xyzReset command) rest

theorem follow_append
    (xyzReset : Bool)
    (machine : Machine)
    (earlier later : List Command) :
    machine.follow xyzReset (earlier ++ later) =
      (machine.follow xyzReset earlier).follow xyzReset later :=
  List.foldl_append

/-- What later commands draw depends on where the earlier ones lead. -/
theorem drawings_append
    (xyzReset : Bool)
    (machine : Machine)
    (earlier later : List Command) :
    machine.drawings xyzReset (earlier ++ later) =
      machine.drawings xyzReset earlier
        ++ (machine.follow xyzReset earlier).drawings xyzReset later := by
  induction earlier generalizing machine with
  | nil => rfl
  | cons command rest inductionHypothesis =>
      simp [drawings, follow, inductionHypothesis]

variable (xyzReset : Bool) {machine : Machine} {command : Command}

/-- A command makes of coordinates what its words make of them. -/
theorem Coordinates.obey
    {before after : Float → Prop}
    (coordinates : machine.Coordinates before)
    (leads : command.axes.Leads before after)
    (zero : before 0.0) :
    (machine.obey xyzReset command).Coordinates after := by
  unfold Machine.obey
  split
  · exact coordinates.move leads
  · exact (coordinates.home zero).weaken leads.unnamed
  · exact (coordinates.setMode _).weaken leads.unnamed
  · exact (coordinates.setMode _).weaken leads.unnamed
  · split
    · exact coordinates.setPosition leads
    · exact coordinates.setPosition leads.extruderOnly
  · exact coordinates.weaken leads.unnamed
  · exact coordinates.weaken leads.unnamed

/-- A command with finite words does not bring up NaN; this is the step of the run. -/
theorem isNumber_obey
    (number : machine.IsNumber)
    (finite : command.axes.IsFinite) :
    (machine.obey xyzReset command).IsNumber := by
  rw [isNumber_iff_coordinates] at number ⊢
  exact number.obey xyzReset finite.leads rfl

/-- Commands with finite words do not bring up NaN. -/
theorem isNumber_follow
    (number : machine.IsNumber)
    {commands : List Command}
    (finite : ∀ command ∈ commands, command.axes.IsFinite) :
    (machine.follow xyzReset commands).IsNumber :=
  List.foldlRecOn commands (obey xyzReset) number
    fun _ reached command member => isNumber_obey xyzReset reached (finite command member)

/-- What a command draws leads from the position before it to the one after it. -/
theorem ends_of_drawing?
    {motion : Motion}
    (drawn : machine.drawing? command = some motion) :
    motion.start = machine.position ∧
      motion.finish = (machine.obey xyzReset command).position := by
  unfold drawing? at drawn
  split at drawn
  · next operation =>
      split at drawn
      · cases drawn
      · cases drawn
        exact ⟨rfl, by simp only [obey, operation]; rfl⟩
  · cases drawn

/-- A command that draws nothing leaves every coordinate as it was, up to the sign of zero. -/
theorem position_obey_of_drawing?_eq_none
    (number : machine.IsNumber)
    (undrawn : machine.drawing? command = none) :
    (machine.position == (machine.obey xyzReset command).position) = true := by
  have same := Position.beq_self number.position
  unfold drawing? at undrawn
  unfold obey
  split
  · next operation =>
      simp only [operation, ite_eq_left_iff, reduceCtorEq, imp_false, not_not,
        Bool.or_eq_true] at undrawn
      rcases undrawn with empty | staysPut
      · rw [PartialPosition.eq_of_isEmpty empty]
        exact same
      · exact staysPut
  · exact same
  · exact same
  · exact same
  · rw [position_setPosition]
    exact same
  · exact same
  · exact same

/-- Both ends of everything that a replay draws are free of NaN. -/
theorem isNumber_of_mem_drawings
    (number : machine.IsNumber)
    {commands : List Command}
    (finite : ∀ command ∈ commands, command.axes.IsFinite)
    {motion : Motion}
    (drawn : motion ∈ machine.drawings xyzReset commands) :
    motion.start.IsNumber ∧ motion.finish.IsNumber := by
  induction commands generalizing machine with
  | nil => cases drawn
  | cons command rest inductionHypothesis =>
      obtain ⟨commandFinite, restFinite⟩ := List.forall_mem_cons.mp finite
      have reached : (machine.obey xyzReset command).IsNumber :=
        isNumber_obey xyzReset number commandFinite
      rcases List.mem_append.mp drawn with isFirst | inRest
      · have ends := ends_of_drawing? xyzReset (Option.mem_toList.mp isFirst)
        rw [ends.1, ends.2]
        exact ⟨number.position, reached.position⟩
      · exact inductionHypothesis reached restFinite inRest

/-- What a replay draws leads without a gap from its first position to its last one. -/
theorem path_drawings
    (number : machine.IsNumber)
    {commands : List Command}
    (finite : ∀ command ∈ commands, command.axes.IsFinite) :
    Path machine.position.point
      ((machine.drawings xyzReset commands).map Motion.segment)
      (machine.follow xyzReset commands).position.point := by
  induction commands generalizing machine with
  | nil =>
      exact .still (Position.point_beq_of_beq (Position.beq_self number.position))
  | cons command rest inductionHypothesis =>
      obtain ⟨commandFinite, restFinite⟩ := List.forall_mem_cons.mp finite
      have restPath :=
        inductionHypothesis (isNumber_obey xyzReset number commandFinite) restFinite
      unfold drawings
      cases drawn : machine.drawing? command with
      | none =>
          have unmoved := position_obey_of_drawing?_eq_none xyzReset number drawn
          exact restPath.of_beq (Position.point_beq_of_beq unmoved)
      | some motion =>
          have ends := ends_of_drawing? xyzReset drawn
          refine .along ?_ ?_
          · rw [Motion.segment, ends.1]
            exact Position.point_beq_of_beq (Position.beq_self number.position)
          · rw [Motion.segment, ends.2]
            exact restPath

end Machine

end LayerPlayback
