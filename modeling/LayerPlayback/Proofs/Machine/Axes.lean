import Mathlib.Data.List.Forall2
import LayerPlayback.Machine

namespace LayerPlayback

/-!
# Axes do not interfere

What a machine keeps for one axis depends on its mode and on the words for that axis alone.
Two runs that look alike along an axis therefore stay alike along it, bit for bit and at
every step, whatever they do with the other axes.
-/

/-- Two machines that cannot be told apart by their mode and along one axis. -/
structure Machine.AlikeAlong (axis : Axis) (first second : Machine) : Prop where
  mode : first.mode = second.mode
  position : first.position.get axis = second.position.get axis
  offset : first.offset.get axis = second.offset.get axis

/-- Two actions of one kind that say the same about one axis, and anything about the others. -/
inductive MachineAction.AlikeAlong (axis : Axis) : MachineAction → MachineAction → Prop where
  | move
      {first second : PartialPosition}
      (word : first.get? axis = second.get? axis) :
      AlikeAlong axis (.move first) (.move second)
  | setMode (mode : PositioningMode) :
      AlikeAlong axis (.setMode mode) (.setMode mode)
  | setPosition
      {first second : PartialPosition}
      (word : first.get? axis = second.get? axis) :
      AlikeAlong axis (.setPosition first) (.setPosition second)
  | setAxis (value : Float) :
      AlikeAlong axis (.setAxis axis value) (.setAxis axis value)
  | setOther
      {firstAxis secondAxis : Axis}
      (firstOther : axis ≠ firstAxis)
      (secondOther : axis ≠ secondAxis)
      (firstValue secondValue : Float) :
      AlikeAlong axis (.setAxis firstAxis firstValue) (.setAxis secondAxis secondValue)
  | home :
      AlikeAlong axis .home .home

namespace Machine

/-- The machine at the start of a run and after each of its actions. -/
def trace (machine : Machine) (actions : List MachineAction) : List Machine :=
  actions.scanl MachineAction.apply machine

theorem trace_cons (machine : Machine) (action : MachineAction) (rest : List MachineAction) :
    machine.trace (action :: rest) = machine :: (action.apply machine).trace rest :=
  List.scanl_cons

/-- Naming one axis leaves the offsets of the others as they were. -/
theorem get_offset_setAxis_other
    (machine : Machine)
    {axis named : Axis}
    (other : axis ≠ named)
    (value : Float) :
    (machine.setAxis (named, value)).offset.get axis = machine.offset.get axis :=
  Position.get_set_other _ _ other

namespace AlikeAlong

variable {axis : Axis} {first second : Machine} (alike : first.AlikeAlong axis second)

include alike

/-- A word for the axis leads to the same coordinate. -/
theorem target (word : Float) : first.target axis word = second.target axis word := by
  simp only [Machine.target, alike.mode, alike.position, alike.offset]

/-- Moves that agree in one word lead to machines that agree along its axis. -/
theorem move
    {firstNamed secondNamed : PartialPosition}
    (word : firstNamed.get? axis = secondNamed.get? axis) :
    (first.move firstNamed).AlikeAlong axis (second.move secondNamed) where
  mode := by simp only [mode_move, alike.mode]
  offset := by simp only [offset_move, alike.offset]
  position := by
    have sameTarget : first.target axis = second.target axis := funext alike.target
    simp only [get_position_move, word, sameTarget, alike.position]

theorem setPosition
    {firstNamed secondNamed : PartialPosition}
    (word : firstNamed.get? axis = secondNamed.get? axis) :
    (first.setPosition firstNamed).AlikeAlong axis (second.setPosition secondNamed) where
  mode := by simp only [mode_setPosition, alike.mode]
  position := by simp only [position_setPosition, alike.position]
  offset := by simp only [get_offset_setPosition, word, alike.position, alike.offset]

theorem setAxis (value : Float) :
    (first.setAxis (axis, value)).AlikeAlong axis (second.setAxis (axis, value)) where
  mode := alike.mode
  position := alike.position
  offset := by simp only [Machine.setAxis, Position.get_set_same, alike.position]

/-- What is set along other axes does not matter. -/
theorem setOther
    {firstAxis secondAxis : Axis}
    (firstOther : axis ≠ firstAxis)
    (secondOther : axis ≠ secondAxis)
    (firstValue secondValue : Float) :
    (first.setAxis (firstAxis, firstValue)).AlikeAlong axis
      (second.setAxis (secondAxis, secondValue)) where
  mode := alike.mode
  position := alike.position
  offset := by
    rw [get_offset_setAxis_other _ firstOther, get_offset_setAxis_other _ secondOther,
      alike.offset]

/-- Actions that are alike along an axis keep machines alike along it. -/
theorem apply
    {firstAction secondAction : MachineAction}
    (actions : firstAction.AlikeAlong axis secondAction) :
    (firstAction.apply first).AlikeAlong axis (secondAction.apply second) := by
  cases actions with
  | move word => exact alike.move word
  | setMode mode => exact ⟨rfl, alike.position, alike.offset⟩
  | setPosition word => exact alike.setPosition word
  | setAxis value => exact alike.setAxis value
  | setOther firstOther secondOther firstValue secondValue =>
      exact alike.setOther firstOther secondOther firstValue secondValue
  | home => exact ⟨rfl, alike.position, rfl⟩

end AlikeAlong

/-- Runs that start alike along an axis and say the same about it are alike at every step. -/
theorem alikeAlong_trace
    {axis : Axis}
    {first second : Machine}
    (start : first.AlikeAlong axis second)
    {firstActions secondActions : List MachineAction}
    (actions : List.Forall₂ (MachineAction.AlikeAlong axis) firstActions secondActions) :
    List.Forall₂ (AlikeAlong axis) (first.trace firstActions) (second.trace secondActions) := by
  induction actions generalizing first second with
  | nil =>
      exact .cons start .nil
  | cons action rest inductionHypothesis =>
      rw [trace_cons, trace_cons]
      exact .cons start (inductionHypothesis (start.apply action))

/-- Words for three axes, in both modes and around a home, leave no trace on the height. -/
theorem alikeAlong_trace_height :
    let first : Machine := {}
    let second : Machine :=
      { position := { x := 5.0, e := 2.0 }, offset := { y := Binary64.infinity } }
    let firstActions : List MachineAction :=
      [ .move { x? := some 1.0, z? := some 0.2 }, .setPosition { z? := some 0.0, e? := some 7.0 },
        .setMode .relative, .setAxis .x 3.0, .move { z? := some 0.3 }, .setAxis .z 1.0, .home ]
    let secondActions : List MachineAction :=
      [ .move { y? := some 4.0, z? := some 0.2 }, .setPosition { z? := some 0.0 },
        .setMode .relative, .setAxis .e 9.0, .move { x? := some 1e308, z? := some 0.3 },
        .setAxis .z 1.0, .home ]
    (first.AlikeAlong .z second ∧
        List.Forall₂ (MachineAction.AlikeAlong .z) firstActions secondActions) ∧
      List.Forall₂ (AlikeAlong .z) (first.trace firstActions) (second.trace secondActions) := by
  intro first second firstActions secondActions
  have start : first.AlikeAlong .z second := ⟨rfl, rfl, rfl⟩
  have actions : List.Forall₂ (MachineAction.AlikeAlong .z) firstActions secondActions :=
    .cons (.move rfl) (.cons (.setPosition rfl) (.cons (.setMode .relative)
      (.cons (.setOther (by decide) (by decide) 3.0 9.0) (.cons (.move rfl)
        (.cons (.setAxis 1.0) (.cons .home .nil))))))
  exact ⟨⟨start, actions⟩, alikeAlong_trace start actions⟩

end Machine

end LayerPlayback
