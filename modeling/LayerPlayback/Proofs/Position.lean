import LayerPlayback.Position
import LayerPlayback.Proofs.Number.NaN

namespace LayerPlayback

/-!
# Equality of points and positions

Points and positions are equal when they are so on every axis, as doubles
compare.  That is symmetric and transitive, and reflexive where no coordinate is
NaN.
-/

namespace Point

/-- Points are compared coordinate by coordinate, as doubles are: zeros of both signs are equal. -/
theorem beq_eq_true_iff {first second : Point} :
    (first == second) = true ↔
      (first.x == second.x) = true ∧ (first.y == second.y) = true ∧
        (first.z == second.z) = true := by
  simp only [BEq.beq, instBEqPoint.beq, Bool.and_eq_true]

instance partialEquivBEq : PartialEquivBEq Point where
  symm equal := by
    rw [beq_eq_true_iff] at equal ⊢
    exact ⟨BEq.symm equal.1, BEq.symm equal.2.1, BEq.symm equal.2.2⟩
  trans equal next := by
    rw [beq_eq_true_iff] at equal next ⊢
    exact ⟨BEq.trans equal.1 next.1, BEq.trans equal.2.1 next.2.1,
      BEq.trans equal.2.2 next.2.2⟩

end Point

namespace Position

/-- No coordinate is NaN. -/
def IsNumber (position : Position) : Prop :=
  ∀ axis, (position.get axis).isNaN = false

theorem isNumber_origin : origin.IsNumber := by
  intro axis
  cases axis <;> decide

/-- Positions are compared axis by axis. -/
theorem beq_eq_true_iff {first second : Position} :
    (first == second) = true ↔ ∀ axis, (first.get axis == second.get axis) = true := by
  constructor
  · intro equal axis
    simp only [BEq.beq, instBEqPosition.beq, Bool.and_eq_true] at equal
    cases axis
    · exact equal.1
    · exact equal.2.1
    · exact equal.2.2.1
    · exact equal.2.2.2
  · intro equal
    simp only [BEq.beq, instBEqPosition.beq, Bool.and_eq_true]
    exact ⟨equal .x, equal .y, equal .z, equal .e⟩

/-- A position without NaN is equal to itself; doubles in general are not. -/
theorem beq_self {position : Position} (number : position.IsNumber) :
    (position == position) = true :=
  beq_eq_true_iff.mpr fun axis => Binary64.beq_self (number axis)

/-- Equal positions stand at equal points. -/
theorem point_beq_of_beq {first second : Position} (equal : (first == second) = true) :
    (first.point == second.point) = true := by
  rw [beq_eq_true_iff] at equal
  exact Point.beq_eq_true_iff.mpr ⟨equal .x, equal .y, equal .z⟩

end Position

end LayerPlayback
