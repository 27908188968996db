import LayerPlayback.Model
import LayerPlayback.Proofs.Model.Layering
import LayerPlayback.Proofs.Position

namespace LayerPlayback

/-!
# The doubles of a model

The geometry of a layer is made of doubles: its height, and the coordinates of the
ends of its segments.  A layer takes its height from a motion, so whatever holds of
the coordinates that motions reach holds of all layers that they fill, and the other
way round.  A model without NaN among its doubles equals itself.
-/

/-- The coordinates of a point. -/
def Point.doubles (point : Point) : List Float :=
  [point.x, point.y, point.z]

/-- The coordinates of both ends of a segment. -/
def Segment.doubles (segment : Segment) : List Float :=
  segment.start.doubles ++ segment.finish.doubles

/-- The height of a layer, and the coordinates of its segments. -/
def Layer.doubles (layer : Layer) : List Float :=
  layer.z :: layer.segments.toList.flatMap Segment.doubles

/-- The path width of a model, and the doubles of its layers. -/
def Model.doubles (model : Model) : List Float :=
  model.pathWidth :: model.layers.toList.flatMap Layer.doubles

/-- A point has three of the four coordinates of its position. -/
theorem Position.forall_mem_doubles_point
    {holds : Float → Prop}
    {position : Position}
    (all : ∀ axis, holds (position.get axis)) :
    ∀ x ∈ position.point.doubles, holds x := by
  simpa only [Point.doubles, List.forall_mem_cons] using
    ⟨all .x, all .y, all .z, List.forall_mem_nil _⟩

/-- The height of a layer is a coordinate of the motion that opens it. -/
theorem Motion.z_finish_mem_doubles (motion : Motion) :
    motion.finish.z ∈ motion.segment.doubles := by
  simp [Segment.doubles, Point.doubles, segment, Position.point]

namespace Layer

/-- Pushing a segment adds its coordinates to the doubles of a layer. -/
theorem doubles_push (layer : Layer) (segment : Segment) :
    (layer.push segment).doubles = layer.doubles ++ segment.doubles := by
  simp [doubles]

/-- What holds of the open layer and of the motions is what holds of the layers they fill. -/
theorem forall_mem_doubles_filledBy_iff
    (holds : Float → Prop)
    (layer : Layer)
    (motions : List Motion) :
    (∀ filled ∈ layer.filledBy motions, ∀ x ∈ filled.doubles, holds x) ↔
      (∀ x ∈ layer.doubles, holds x) ∧
        ∀ motion ∈ motions, ∀ x ∈ motion.segment.doubles, holds x := by
  induction motions generalizing layer with
  | nil => simp [filledBy]
  | cons motion rest inductionHypothesis =>
      -- A new layer has no double but the height and the coordinates of its motion.
      have opened :
          (∀ x ∈ (push { z := motion.finish.z } motion.segment).doubles, holds x) ↔
            ∀ x ∈ motion.segment.doubles, holds x := by
        rw [doubles_push]
        constructor
        · intro all x member
          exact all x (List.mem_append_right _ member)
        · intro all x member
          rcases List.mem_append.mp member with isHeight | inSegment
          · obtain rfl : x = motion.finish.z := by simpa [doubles] using isHeight
            exact all _ (motion.z_finish_mem_doubles)
          · exact all x inSegment
      unfold filledBy
      split
      · rw [inductionHypothesis, doubles_push, List.forall_mem_append, List.forall_mem_cons,
          and_assoc]
      · rw [List.forall_mem_cons, inductionHypothesis, opened, List.forall_mem_cons]

end Layer

/-! ## Equality of what holds no NaN -/

/-- An array equals itself when its elements do. -/
theorem array_beq_self
    {α : Type}
    [BEq α]
    {items : Array α}
    (equal : ∀ item ∈ items.toList, (item == item) = true) :
    (items == items) = true := by
  rw [Array.beq_eq_decide, dif_pos rfl, decide_eq_true_eq]
  intro index inRange
  exact equal items[index] (Array.mem_toList_iff.mpr (Array.getElem_mem inRange))

theorem Point.beq_self
    {point : Point}
    (number : ∀ x ∈ point.doubles, x.isNaN = false) :
    (point == point) = true := by
  simp only [doubles, List.forall_mem_cons] at number
  exact beq_eq_true_iff.mpr
    ⟨Binary64.beq_self number.1, Binary64.beq_self number.2.1, Binary64.beq_self number.2.2.1⟩

theorem Segment.beq_self
    {segment : Segment}
    (number : ∀ x ∈ segment.doubles, x.isNaN = false) :
    (segment == segment) = true := by
  obtain ⟨start, finish⟩ := List.forall_mem_append.mp number
  change (segment.start == segment.start &&
    (segment.finish == segment.finish && segment.deposits == segment.deposits)) = true
  rw [Point.beq_self start, Point.beq_self finish, BEq.rfl]
  rfl

theorem Layer.beq_self
    {layer : Layer}
    (number : ∀ x ∈ layer.doubles, x.isNaN = false) :
    (layer == layer) = true := by
  obtain ⟨height, coordinates⟩ := List.forall_mem_cons.mp number
  have segments :=
    array_beq_self fun segment member => Segment.beq_self fun x inSegment =>
      coordinates x (List.mem_flatMap.mpr ⟨segment, member, inSegment⟩)
  change (layer.z == layer.z &&
    (layer.segments == layer.segments && layer.moves == layer.moves)) = true
  rw [Binary64.beq_self height, segments, BEq.rfl]
  rfl

/--
A model without NaN is equal to itself, which makes its equality a check of what is read
back.
-/
theorem Model.beq_self
    {model : Model}
    (number : ∀ x ∈ model.doubles, x.isNaN = false) :
    (model == model) = true := by
  obtain ⟨width, geometry⟩ := List.forall_mem_cons.mp number
  have layers :=
    array_beq_self fun layer member => Layer.beq_self fun x inLayer =>
      geometry x (List.mem_flatMap.mpr ⟨layer, member, inLayer⟩)
  change (model.layers == model.layers && model.pathWidth == model.pathWidth) = true
  rw [layers, Binary64.beq_self width]
  rfl

end LayerPlayback
