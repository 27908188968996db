import LayerPlayback.Proofs.Machine.Replay
import LayerPlayback.Proofs.Number.Range

namespace LayerPlayback

/-!
# Coordinates that do not overflow

A command changes a coordinate or an offset by at most one of its words.  So after some
commands whose words are within a unit, all coordinates are within as many units as
there were commands.
-/

open Binary64 (IsWithin)

namespace PartialPosition

/-- Every coordinate that is named is within a unit. -/
def IsWithinUnit (named : PartialPosition) : Prop :=
  ∀ axis value, named.get? axis = some value → IsWithin 1 value

/--
Adding or subtracting words within a unit leads to one unit more; counts are exact up to 2
^ 53.
-/
theorem IsWithinUnit.leads
    {named : PartialPosition}
    (words : named.IsWithinUnit)
    {count : Nat}
    (small : count + 1 ≤ 2 ^ 53) :
    named.Leads (IsWithin count) (IsWithin (count + 1)) where
  unnamed _ within := within.mono (Nat.le_succ count)
  wordPlus axis word given x within := by
    rw [Nat.add_comm] at small ⊢
    exact (words axis word given).add within small
  plusWord axis word given x within := within.add (words axis word given) small
  minusWord axis word given x within := within.sub (words axis word given) small

end PartialPosition

namespace Machine

/-- A fresh machine has zeros only. -/
theorem coordinates_fresh : Coordinates (IsWithin 0) {} := by
  have origin (axis : Axis) : IsWithin 0 (Position.origin.get axis) := by
    cases axis <;> exact Binary64.isWithin_zero
  exact ⟨origin, origin⟩

variable {machine : Machine} {count : Nat}

/-- What commands with words within a unit draw is within a unit more for each of them. -/
theorem isWithin_of_mem_drawings
    (xyzReset : Bool)
    (within : machine.Coordinates (IsWithin count))
    {commands : List Command}
    (words : ∀ command ∈ commands, command.axes.IsWithinUnit)
    (small : count + commands.length ≤ 2 ^ 53)
    {motion : Motion}
    (drawn : motion ∈ machine.drawings xyzReset commands) :
    ∀ axis,
      IsWithin (count + commands.length) (motion.start.get axis) ∧
        IsWithin (count + commands.length) (motion.finish.get axis) := by
  induction commands generalizing machine count with
  | nil => cases drawn
  | cons command rest inductionHypothesis =>
      obtain ⟨commandWords, restWords⟩ := List.forall_mem_cons.mp words
      rw [List.length_cons, ← Nat.add_assoc, Nat.add_right_comm] at small ⊢
      have reached : (machine.obey xyzReset command).Coordinates (IsWithin (count + 1)) :=
        within.obey xyzReset (commandWords.leads (by omega))
          (Binary64.isWithin_zero.mono (Nat.zero_le count))
      rcases List.mem_append.mp drawn with isFirst | inRest
      · have ends := ends_of_drawing? xyzReset (Option.mem_toList.mp isFirst)
        intro axis
        rw [ends.1, ends.2]
        exact ⟨(within.position axis).mono (by omega), (reached.position axis).mono (by omega)⟩
      · exact inductionHypothesis reached restWords small inRest

end Machine

end LayerPlayback
