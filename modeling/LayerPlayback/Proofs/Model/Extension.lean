import LayerPlayback.Model
import LayerPlayback.Proofs.Model.Layering

namespace LayerPlayback

/-!
# Models only grow at their end

Motions that are drawn later leave the layers before the open one as they are.  In the
open layer they add segments behind those that it has, and of its moves none but the
last can become longer.
-/

/-- How a layer goes on: behind its segments come others, and none but its last move grows. -/
structure Layer.Extends (earlier later : Layer) : Prop where
  z : later.z = earlier.z
  segments : earlier.segments.toList <+: later.segments.toList
  moves :
    ∀ kept last, earlier.moves.toList = kept ++ [last] →
      ∃ segmentCount more,
        last.segmentCount ≤ segmentCount ∧
          later.moves.toList = kept ++ { last with segmentCount := segmentCount } :: more

/-- How a model goes on: only its last layer grows, and others come behind that one. -/
structure Model.Extends (earlier later : Model) : Prop where
  pathWidth : later.pathWidth = earlier.pathWidth
  layers :
    ∃ closed last extended more,
      earlier.layers.toList = closed ++ [last] ∧
        later.layers.toList = closed ++ extended :: more ∧ last.Extends extended

namespace Layer

theorem Extends.refl (layer : Layer) : layer.Extends layer where
  z := rfl
  segments := List.prefix_refl _
  moves _ last shape := ⟨last.segmentCount, [], Nat.le_refl _, shape⟩

theorem Extends.trans
    {first second third : Layer}
    (earlier : first.Extends second)
    (later : second.Extends third) :
    first.Extends third where
  z := later.z.trans earlier.z
  segments := earlier.segments.trans later.segments
  moves kept last shape := by
    obtain ⟨segmentCount, more, grown, goesOn⟩ := earlier.moves kept last shape
    rcases List.eq_nil_or_concat more with rfl | ⟨between, lastOfMore, rfl⟩
    · -- The last move is still the last one, so it may grow further.
      obtain ⟨finalCount, rest, grownMore, shapeOfThird⟩ := later.moves _ _ goesOn
      exact ⟨finalCount, rest, Nat.le_trans grown grownMore, shapeOfThird⟩
    · rw [List.concat_eq_append, ← List.cons_append, ← List.append_assoc] at goesOn
      obtain ⟨_, rest, _, shapeOfThird⟩ := later.moves _ _ goesOn
      rw [List.append_assoc, List.cons_append] at shapeOfThird
      exact ⟨segmentCount, _, grown, shapeOfThird⟩

theorem extends_push (layer : Layer) (segment : Segment) : layer.Extends (layer.push segment) where
  z := rfl
  segments := ⟨[segment], (layer.toList_segments_push segment).symm⟩
  moves kept last shape := by
    have isLast : layer.moves.back? = some last := by
      rw [← Array.getLast?_toList, shape, List.getLast?_concat]
    unfold push extendMoves
    rw [isLast]
    dsimp only
    split
    · refine ⟨last.segmentCount + 1, [], Nat.le_succ _, ?_⟩
      rw [Array.toList_push, Array.toList_pop, shape, List.dropLast_concat]
      rfl
    · refine ⟨last.segmentCount, [⟨segment.kind, layer.segments.size, 1⟩], Nat.le_refl _, ?_⟩
      rw [Array.toList_push, shape, List.append_assoc]
      rfl

/-- The open layer goes on as the first of the layers that motions fill from it on. -/
theorem exists_extends_filledBy (layer : Layer) (motions : List Motion) :
    ∃ extended more, layer.filledBy motions = extended :: more ∧ layer.Extends extended := by
  induction motions generalizing layer with
  | nil => exact ⟨layer, [], rfl, .refl layer⟩
  | cons motion rest inductionHypothesis =>
      unfold filledBy
      split
      · obtain ⟨extended, more, shape, goesOn⟩ := inductionHypothesis (layer.push motion.segment)
        exact ⟨extended, more, shape, (layer.extends_push motion.segment).trans goesOn⟩
      · exact ⟨layer, _, rfl, .refl layer⟩

/-- Later motions fill layers from the last one on that earlier motions filled. -/
theorem exists_filledBy_append (layer : Layer) (earlier : List Motion) :
    ∃ closed last,
      layer.filledBy earlier = closed ++ [last] ∧
        ∀ later, layer.filledBy (earlier ++ later) = closed ++ last.filledBy later := by
  induction earlier generalizing layer with
  | nil => exact ⟨[], layer, rfl, fun _ => rfl⟩
  | cons motion rest inductionHypothesis =>
      simp only [List.cons_append, filledBy]
      split
      · exact inductionHypothesis _
      · obtain ⟨closed, last, filled, goesOn⟩ :=
          inductionHypothesis (push { z := motion.finish.z } motion.segment)
        refine ⟨layer :: closed, last, ?_, fun later => ?_⟩
        · rw [filled, List.cons_append]
        · rw [goesOn, List.cons_append]

end Layer

/-- A model of drawn motions goes on as the model of the same motions with more behind them. -/
theorem Model.extends_filledBy_append
    (layer : Layer)
    (earlier later : List Motion)
    (pathWidth : Float) :
    Model.Extends ⟨(layer.filledBy earlier).toArray, pathWidth⟩
      ⟨(layer.filledBy (earlier ++ later)).toArray, pathWidth⟩ where
  pathWidth := rfl
  layers := by
    obtain ⟨closed, last, filled, goesOn⟩ := layer.exists_filledBy_append earlier
    obtain ⟨extended, more, shape, lastGoesOn⟩ := last.exists_extends_filledBy later
    exact ⟨closed, last, extended, more, filled, by rw [goesOn, shape], lastGoesOn⟩

end LayerPlayback
