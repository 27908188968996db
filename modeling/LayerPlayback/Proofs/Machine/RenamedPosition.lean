import LayerPlayback.Build
import LayerPlayback.Proofs.Command.FiniteWords
import LayerPlayback.Proofs.Number.RoundingError
import LayerPlayback.Proofs.Position

namespace LayerPlayback.Machine

/-!
# Moves to renamed positions

Giving the position new values stores differences, and an absolute move to these
values adds them again.  Both results are rounded, so the move can end beside the
position.  A coordinate is off by at most `2 ^ -52` of the distance between its old and
its new value, and it is kept if that distance is a double, as it is for whole numbers.
-/

open Binary64 (IsDouble value)

/-- The motion to the values that the position was given just before. -/
def returning (machine : Machine) (named : PartialPosition) : Motion :=
  (machine.setPosition named).motion named

/-- How close the position is to itself after it was renamed and returned to. -/
structure Returns (machine : Machine) (named : PartialPosition) : Prop where
  start : (machine.returning named).start = machine.position
  unnamed :
    ∀ axis, named.get? axis = none →
      (machine.returning named).finish.get axis = machine.position.get axis
  close :
    ∀ axis word, named.get? axis = some word →
      (machine.position.get axis - word).isFinite = true →
        |value ((machine.returning named).finish.get axis) - value (machine.position.get axis)| ≤
          |value (machine.position.get axis) - value word| / 2 ^ 52
  exact :
    ∀ axis word, named.get? axis = some word →
      IsDouble (value (machine.position.get axis) - value word) →
        ((machine.returning named).finish.get axis == machine.position.get axis) = true
  /-- With an offset that overflowed, the move leads out of the finite range. -/
  overflow :
    ∀ axis word, named.get? axis = some word →
      (machine.position.get axis - word).isFinite = false →
        ((machine.returning named).finish.get axis).isFinite = false
  stays :
    (machine.returning named).staysPut = true ↔
      ∀ axis word, named.get? axis = some word →
        ((machine.returning named).finish.get axis == machine.position.get axis) = true
  /-- No segment is drawn and no layer is opened by a motion that stays at its place. -/
  drawsNothing :
    (machine.returning named).staysPut = true →
      ∀ builder : Builder, builder.machine = machine.setPosition named →
        (builder.linearMove named).model = builder.model

theorem start_returning (machine : Machine) (named : PartialPosition) :
    (machine.returning named).start = machine.position :=
  position_setPosition machine named

section Absolute

variable {machine : Machine} {named : PartialPosition} (absolute : machine.mode = .absolute)

include absolute

/-- A named coordinate becomes the sum of its word and of what it exceeded the word by. -/
theorem get_finish_returning (axis : Axis) :
    (machine.returning named).finish.get axis =
      ((named.get? axis).map fun word => word + (machine.position.get axis - word)).getD
        (machine.position.get axis) := by
  have mode : (machine.setPosition named).mode = .absolute :=
    (mode_setPosition machine named).trans absolute
  rw [returning, motion, get_position_move, position_setPosition]
  cases given : named.get? axis with
  | none => rfl
  | some word =>
      have offset := get_offset_setPosition machine named axis
      rw [given] at offset
      simp only [Option.map_some, Option.getD_some, target, mode, offset]

theorem get_finish_returning_of_none {axis : Axis} (missing : named.get? axis = none) :
    (machine.returning named).finish.get axis = machine.position.get axis := by
  rw [get_finish_returning absolute, missing]
  rfl

/-- A named coordinate returns as a sum with a difference, and both are rounded. -/
theorem get_finish_returning_of_some
    {axis : Axis}
    {word : Float}
    (given : named.get? axis = some word) :
    (machine.returning named).finish.get axis = word + (machine.position.get axis - word) := by
  rw [get_finish_returning absolute, given]
  rfl

/-- Only a named axis can keep the motion from ending where it starts. -/
theorem staysPut_returning_iff (number : machine.position.IsNumber) :
    (machine.returning named).staysPut = true ↔
      ∀ axis word, named.get? axis = some word →
        ((machine.returning named).finish.get axis == machine.position.get axis) = true := by
  rw [Motion.staysPut, start_returning, Position.beq_eq_true_iff]
  constructor
  · exact fun same axis word _ => BEq.symm (same axis)
  · intro same axis
    cases given : named.get? axis with
    | none =>
        rw [get_finish_returning_of_none absolute given]
        exact Binary64.beq_self (number axis)
    | some word => exact BEq.symm (same axis word given)

end Absolute

/-- A move that stays put adds nothing to the model. -/
theorem model_linearMove_of_staysPut
    {builder : Builder}
    {named : PartialPosition}
    (stays : (builder.machine.motion named).staysPut = true) :
    (builder.linearMove named).model = builder.model := by
  unfold Builder.linearMove
  simp only [stays, Bool.or_true, if_true]
  rfl

/-- After a finite position was renamed, a move to its new name leads to it up to rounding. -/
theorem returns_setPosition
    {machine : Machine}
    {named : PartialPosition}
    (absolute : machine.mode = .absolute)
    (finite : ∀ axis, (machine.position.get axis).isFinite = true)
    (wordsFinite : named.IsFinite) :
    machine.Returns named where
  start := start_returning machine named
  unnamed _ := get_finish_returning_of_none absolute
  close axis word given notOverflowed := by
    rw [get_finish_returning_of_some absolute given]
    exact Binary64.abs_value_add_sub_sub_le (finite axis) (wordsFinite axis word given)
      notOverflowed
  exact axis word given isDouble := by
    rw [get_finish_returning_of_some absolute given]
    exact Binary64.add_sub_beq (finite axis) (wordsFinite axis word given) isDouble
  overflow axis word given overflowed := by
    rw [get_finish_returning_of_some absolute given]
    exact Binary64.isFinite_add_sub_of_overflow (finite axis) (wordsFinite axis word given)
      overflowed
  stays := staysPut_returning_iff absolute fun axis => Binary64.isNaN_of_isFinite (finite axis)
  drawsNothing stays _ same := model_linearMove_of_staysPut (same ▸ stays)

/-- A whole coordinate that is given another whole value is kept. -/
theorem returns_setPosition_whole :
    let machine : Machine := .startingAt { x := 0.1, y := 10.0 }
    let named : PartialPosition := { y? := some 4.0 }
    (machine.mode = .absolute ∧
        (∀ axis, (machine.position.get axis).isFinite = true) ∧ named.IsFinite) ∧
      machine.Returns named ∧ (machine.returning named).staysPut = true := by
  intro machine named
  have finite : ∀ axis, (machine.position.get axis).isFinite = true := by
    intro axis
    cases axis <;> decide +kernel
  have wordsFinite : named.IsFinite := by
    intro axis word given
    cases axis <;> cases given
    rfl
  have returns : machine.Returns named := returns_setPosition rfl finite wordsFinite
  have isTen : value (machine.position.get .y) = (10 : Int) * 2 ^ (0 : Int) := by decide +kernel
  have isFour : value 4.0 = (4 : Int) * 2 ^ (0 : Int) := by decide +kernel
  have isDouble : IsDouble (value (machine.position.get .y) - value 4.0) :=
    Binary64.isDouble_sub_of_multiples isTen isFour (by decide) (by decide) (by decide)
  refine ⟨⟨rfl, finite, wordsFinite⟩, returns, returns.stays.mpr fun axis word given => ?_⟩
  cases axis <;> cases given
  exact returns.exact .y 4.0 rfl isDouble

/-- The head is moved back from `0.4` to `0.4` and misses its place, in a layer of its own. -/
theorem staysPut_returning_lossy :
    let machine : Machine := .startingAt { z := 0.1 }
    let named : PartialPosition := { z? := some 0.4 }
    let builder : Builder := .withMachine {} (machine.setPosition named)
    (machine.mode = .absolute ∧
        (∀ axis, (machine.position.get axis).isFinite = true) ∧ named.IsFinite) ∧
      (machine.returning named).staysPut = false ∧
        (builder.linearMove named).model.segmentCount = 1 ∧
          (builder.linearMove named).model.layers.size = 2 := by
  intro machine named builder
  have finite : ∀ axis, (machine.position.get axis).isFinite = true := by
    intro axis
    cases axis <;> decide +kernel
  have wordsFinite : named.IsFinite := by
    intro axis word given
    cases axis <;> cases given
    decide +kernel
  exact ⟨⟨rfl, finite, wordsFinite⟩, by decide +kernel, by decide +kernel, by decide +kernel⟩

end LayerPlayback.Machine
