import LayerPlayback.Proofs.Machine.Replay
import LayerPlayback.Proofs.Model.Runs

namespace LayerPlayback

/-!
# Layers group motions by height

Motions fill layers one after the other: a motion goes to the open layer when it
ends at that layer's height, and opens a layer of its own otherwise.  Comparing
with the layer's height cuts the motions exactly where comparing each with the
motion before it does, because equal heights stay equal along a layer.
-/

/--
Motions cut before each one that ends at another height than the motion before
it.  The first motion is compared with a given height; the first run is empty
when that motion ends elsewhere.
-/
def Motion.levelRuns (height : Float) : List Motion → List (List Motion)
  | [] => [[]]
  | motion :: rest =>
      let runs := (levelRuns motion.finish.z rest).modifyHead (motion :: ·)
      if motion.finish.z == height then runs else [] :: runs

namespace Layer

/-- The layers that motions fill from an open layer on. -/
def filledBy (layer : Layer) : List Motion → List Layer
  | [] => [layer]
  | motion :: rest =>
      if layer.z == motion.finish.z then
        (layer.push motion.segment).filledBy rest
      else
        layer :: (push { z := motion.finish.z } motion.segment).filledBy rest

/-- Motions are entered in order: those of the layers together are all of them. -/
theorem segments_filledBy (layer : Layer) (motions : List Motion) :
    ((layer.filledBy motions).flatMap fun filled => filled.segments.toList) =
      layer.segments.toList ++ motions.map Motion.segment := by
  induction motions generalizing layer with
  | nil => simp [filledBy]
  | cons motion rest inductionHypothesis =>
      unfold filledBy
      split
      · simp [inductionHypothesis]
      · simp [inductionHypothesis]

/-- The open layer comes first, still at its height. -/
theorem filledBy_eq_cons (layer : Layer) (motions : List Motion) :
    ∃ first rest, layer.filledBy motions = first :: rest ∧ first.z = layer.z := by
  induction motions generalizing layer with
  | nil => exact ⟨layer, [], rfl, rfl⟩
  | cons motion rest inductionHypothesis =>
      unfold filledBy
      split
      · exact inductionHypothesis _
      · exact ⟨layer, _, rfl, rfl⟩

theorem z_foldl_push (layer : Layer) (segments : List Segment) :
    (segments.foldl push layer).z = layer.z := by
  induction segments generalizing layer with
  | nil => rfl
  | cons first rest inductionHypothesis => exact inductionHypothesis (layer.push first)

/--
From open layers at equal heights, motions add the same segments to both and fill the
same layers after them.
-/
theorem exists_filledBy_of_level
    {first second : Layer}
    (level : (first.z == second.z) = true)
    (motions : List Motion) :
    ∃ (added : List Segment) (more : List Layer),
      first.filledBy motions = added.foldl push first :: more ∧
        second.filledBy motions = added.foldl push second :: more := by
  induction motions generalizing first second with
  | nil => exact ⟨[], [], rfl, rfl⟩
  | cons motion rest inductionHypothesis =>
      have sameTest : (first.z == motion.finish.z) = (second.z == motion.finish.z) :=
        BEq.congr_left level
      have pushedLevel :
          ((first.push motion.segment).z == (second.push motion.segment).z) = true :=
        level
      unfold filledBy
      rw [sameTest]
      split
      · obtain ⟨added, more, filledFirst, filledSecond⟩ := inductionHypothesis pushedLevel
        exact ⟨motion.segment :: added, more, filledFirst, filledSecond⟩
      · exact ⟨[], _, rfl, rfl⟩

/--
What holds of the open layer and of layers with one segment at their height, and
is kept when a segment is added at the height, holds of all layers.
-/
theorem forall_mem_filledBy
    (holds : Layer → Prop)
    {layer : Layer}
    {motions : List Motion}
    (start : holds layer)
    (opened : ∀ motion ∈ motions, holds (push { z := motion.finish.z } motion.segment))
    (pushed : ∀ (layer : Layer) (motion : Motion),
      holds layer →
      (layer.z == motion.finish.z) = true →
      holds (layer.push motion.segment)) :
    ∀ filled ∈ layer.filledBy motions, holds filled := by
  induction motions generalizing layer with
  | nil => simpa [filledBy] using start
  | cons motion rest inductionHypothesis =>
      obtain ⟨openedFirst, openedRest⟩ := List.forall_mem_cons.mp opened
      unfold filledBy
      split
      · next same => exact inductionHypothesis (pushed layer motion start same) openedRest
      · exact List.forall_mem_cons.mpr ⟨start, inductionHypothesis openedFirst openedRest⟩

/-- Only the first layer can be empty, as any other one is opened by a motion. -/
theorem isEmpty_of_mem_tail_filledBy
    {layer later : Layer}
    {motions : List Motion}
    (member : later ∈ (layer.filledBy motions).tail) :
    later.isEmpty = false := by
  have isEmpty_push (layer : Layer) (segment : Segment) :
      (layer.push segment).isEmpty = false := by
    simp [isEmpty, push]
  induction motions generalizing layer with
  | nil => simp [filledBy] at member
  | cons motion rest inductionHypothesis =>
      unfold filledBy at member
      split at member
      · exact inductionHypothesis member
      · exact forall_mem_filledBy (fun filled => filled.isEmpty = false)
          (isEmpty_push _ _) (fun _ _ => isEmpty_push _ _)
          (fun _ _ _ _ => isEmpty_push _ _) later member

/-- A new layer is opened exactly when the height changes. -/
theorem isChain_filledBy (layer : Layer) (motions : List Motion) :
    (layer.filledBy motions).IsChain fun below above => (below.z == above.z) = false := by
  induction motions generalizing layer with
  | nil => exact .singleton _
  | cons motion rest inductionHypothesis =>
      unfold filledBy
      split
      · exact inductionHypothesis _
      · next other =>
          refine List.isChain_cons.mpr ⟨fun above isHead => ?_, inductionHypothesis _⟩
          obtain ⟨first, later, shape, height⟩ :=
            filledBy_eq_cons (push { z := motion.finish.z } motion.segment) rest
          rw [shape, List.head?_cons, Option.mem_some_iff] at isHead
          rw [← isHead, height]
          exact Bool.eq_false_iff.mpr other

/--
The segments of the layers are those of the motions, cut where a motion ends at
another height than the motion before it.
-/
theorem map_segments_filledBy
    (layer : Layer)
    (height : Float)
    (motions : List Motion)
    (level : (layer.z == height) = true)
    (numbers : ∀ motion ∈ motions, motion.finish.IsNumber) :
    (layer.filledBy motions).map (fun filled => filled.segments.toList) =
      ((Motion.levelRuns height motions).map (List.map Motion.segment)).modifyHead
        (layer.segments.toList ++ ·) := by
  induction motions generalizing layer height with
  | nil => simp [filledBy, Motion.levelRuns]
  | cons motion rest inductionHypothesis =>
      obtain ⟨number, restNumbers⟩ := List.forall_mem_cons.mp numbers
      have atItself : (motion.finish.z == motion.finish.z) = true :=
        Binary64.beq_self (number .z)
      -- The open layer and the motion before this one are at equal heights.
      have sameTest : (layer.z == motion.finish.z) = (motion.finish.z == height) :=
        (BEq.congr_left level).trans BEq.comm
      unfold filledBy Motion.levelRuns
      simp only [sameTest]
      split
      · next same =>
          have pushed :=
            inductionHypothesis (layer.push motion.segment) motion.finish.z
              (sameTest.trans same) restNumbers
          rw [pushed]
          cases Motion.levelRuns motion.finish.z rest <;> simp
      · have opened :=
          inductionHypothesis (push { z := motion.finish.z } motion.segment)
            motion.finish.z atItself restNumbers
        rw [List.map_cons, opened]
        cases Motion.levelRuns motion.finish.z rest <;> simp

end Layer

end LayerPlayback
