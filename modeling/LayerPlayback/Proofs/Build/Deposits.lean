import LayerPlayback.Proofs.Build.Numbers
import LayerPlayback.Proofs.Number.Difference

namespace LayerPlayback

/-!
# Deposits are increases of the extruder coordinate

Whether a segment deposits is decided by the difference of two extruder coordinates.
The difference is rounded, and equal infinities have none, but it is positive exactly
when the later coordinate is greater.  So in every state that a build can reach, the
segment of a linear move deposits exactly when the move raises the tracked coordinate.
-/

theorem Motion.deposits_iff (motion : Motion) :
    motion.deposits = true ↔ motion.start.e < motion.finish.e :=
  decide_eq_true_iff.trans Binary64.zero_lt_sub_iff

namespace Machine

/-- Whether a command is a linear move that names an axis and changes a coordinate. -/
structure Draws (machine : Machine) (command : Command) : Prop where
  linear : ∃ rapid, command.operation = .linearMove rapid
  named : command.axes.isEmpty = false
  moves : (machine.position == (machine.move command.axes).position) = false

variable {machine : Machine} {command : Command}

theorem isSome_drawing?_iff : (machine.drawing? command).isSome ↔ machine.Draws command := by
  unfold drawing?
  split
  · next rapid operation =>
      split
      · next undrawn =>
          refine ⟨fun isSome => (Bool.false_ne_true isSome).elim, fun draws => ?_⟩
          rcases Bool.or_eq_true_iff.mp undrawn with empty | staysPut
          · exact (Bool.false_ne_true (draws.named.symm.trans empty)).elim
          · exact (Bool.false_ne_true (draws.moves.symm.trans staysPut)).elim
      · next drawn =>
          obtain ⟨named, moves⟩ := Bool.or_eq_false_iff.mp (Bool.eq_false_iff.mpr drawn)
          exact ⟨fun _ => ⟨⟨rapid, operation⟩, named, moves⟩, fun _ => rfl⟩
  · next notLinear =>
      exact ⟨fun isSome => (Bool.false_ne_true isSome).elim,
        fun draws => (draws.linear.elim notLinear).elim⟩

/-- A replay of a single command draws what the command draws. -/
theorem drawings_toList (xyzReset : Bool) (machine : Machine) (command? : Option Command) :
    machine.drawings xyzReset command?.toList = (command?.bind machine.drawing?).toList := by
  cases command? with
  | none => rfl
  | some command => exact List.append_nil _

end Machine

namespace Builder

/-- What a step of a build that carries out a command, if there is one, does to the segments. -/
structure MarksDeposit (before : Builder) (command? : Option Command) (after : Builder) : Prop where
  /-- The segment of a linear move deposits if the extruder coordinate becomes greater. -/
  drawn :
    (∃ command ∈ command?, before.machine.Draws command) →
      ∃ segment,
        after.model.segments = before.model.segments ++ [segment] ∧
          segment.start = before.machine.position.point ∧
          segment.finish = after.machine.position.point ∧
          (segment.deposits = true ↔ before.machine.position.e < after.machine.position.e)
  /-- Nothing else adds a segment. -/
  undrawn :
    (¬ ∃ command ∈ command?, before.machine.Draws command) →
      after.model.segments = before.model.segments

theorem segments_layersWith (builder : Builder) (motions : List Motion) :
    ((builder.layersWith motions).flatMap fun layer => layer.segments.toList) =
      builder.model.segments ++ motions.map Motion.segment := by
  rw [layersWith, List.flatMap_append, Layer.segments_filledBy, Model.segments,
    toList_layers_model, List.flatMap_append, List.flatMap_singleton, List.append_assoc]

/-- A step that draws what a command draws marks a deposit as the extruder coordinate says. -/
theorem marksDeposit_of_drawing
    {before after : Builder}
    {command? : Option Command}
    (layers :
      after.layersWith [] =
        before.layersWith (command?.bind before.machine.drawing?).toList)
    (machine :
      after.machine =
        before.machine.follow before.options.allowXyzReset command?.toList) :
    before.MarksDeposit command? after := by
  -- What is drawn stands at the end of the segments, whether the open layer goes on or not.
  have segments :
      after.model.segments =
        before.model.segments ++
          (command?.bind before.machine.drawing?).toList.map Motion.segment := by
    rw [← segments_layersWith, ← layers, segments_layersWith, List.map_nil, List.append_nil]
  constructor
  · rintro ⟨command, ⟨⟩, draws⟩
    obtain ⟨motion, drawn⟩ := Option.isSome_iff_exists.mp (Machine.isSome_drawing?_iff.mpr draws)
    obtain ⟨start, finish⟩ := Machine.ends_of_drawing? before.options.allowXyzReset drawn
    have reached : motion.finish = after.machine.position := by
      rw [finish, machine]
      rfl
    rw [Option.bind_some, drawn] at segments
    refine ⟨motion.segment, segments, ?_, ?_, ?_⟩
    · rw [← start]
      rfl
    · rw [← reached]
      rfl
    · rw [← start, ← reached]
      exact motion.deposits_iff
  · intro undrawn
    have nothing : command?.bind before.machine.drawing? = none := by
      rw [Option.bind_eq_none_iff]
      intro command member
      rw [← Option.not_isSome_iff_eq_none, Machine.isSome_drawing?_iff]
      exact fun draws => undrawn ⟨command, member, draws⟩
    rw [segments, nothing]
    exact List.append_nil _

/--
In every state that lines lead to, a linear move that draws a segment marks it as a
deposit exactly when the tracked extruder coordinate becomes greater, whether the move
is applied as a command or fed as a line; nothing else draws.
-/
theorem marksDeposit_reached (options : BuildOptions) (lines : List (String × Nat)) :
    let before := (new options).feedLines lines
    (∀ command, before.MarksDeposit (some command) (before.apply command)) ∧
      ∀ line lineNumber,
        before.MarksDeposit
          (before.decoder.decode line lineNumber).command?
          (before.feedLine line lineNumber) := by
  intro before
  constructor
  · intro command
    refine marksDeposit_of_drawing ?_ (before.machine_apply command)
    rw [layersWith_apply, List.append_nil]
    rfl
  · intro line lineNumber
    refine marksDeposit_of_drawing ?_ (before.machine_addLine _)
    rw [feedLine, layersWith_addLine, List.append_nil, Machine.drawings_toList]

/-- The coordinate overflows to infinity, which is an increase once. -/
example :
    ((build {} "G91\nG1 X1 E1e308\nG1 X1 E1e308\nG1 X1 E1e308").model.segments.map
      Segment.deposits) = [true, true, false] := by
  decide +kernel

end Builder

end LayerPlayback
