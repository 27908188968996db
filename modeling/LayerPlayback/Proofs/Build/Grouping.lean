import LayerPlayback.Proofs.Build.Replay
import LayerPlayback.Proofs.Model.Runs

namespace LayerPlayback

/-!
# A build groups what it draws

The one pass of a build gives what a declarative grouping of the drawn motions
gives: layers are cut where the height changes, and moves are maximal runs of
one kind.
-/

namespace Layer

/-- A layer whose segments all end at its height. -/
def IsLevel (layer : Layer) : Prop :=
  ∀ segment ∈ layer.segments.toList, (segment.finish.z == layer.z) = true

/-- A layer stays level with a segment that ends at its height. -/
theorem IsLevel.push
    {layer : Layer}
    {segment : Segment}
    (level : layer.IsLevel)
    (same : (segment.finish.z == layer.z) = true) :
    (layer.push segment).IsLevel := by
  intro other member
  rw [toList_segments_push] at member
  rcases List.mem_append.mp member with earlier | isLast
  · exact level other earlier
  · rw [List.mem_singleton.mp isLast]
    exact same

end Layer

/--
Layers that hold the segments of motions, cut exactly where a motion ends at
another height than the one before it, whether or not an earlier layer had that
height.
-/
structure Layering (layers : List Layer) (motions : List Motion) : Prop where
  /-- All segments in order are those of the motions. -/
  segments :
    (layers.flatMap fun layer => layer.segments.toList) = motions.map Motion.segment
  /-- The cuts are at the changes of height, the first height being zero. -/
  cuts :
    (layers.map fun layer => layer.segments.toList) =
      (Motion.levelRuns 0.0 motions).map (List.map Motion.segment)
  /-- The first layer is at height zero, and no other layer is empty. -/
  anchored :
    ∃ first rest,
      layers = first :: rest ∧
        first.z = 0.0 ∧ ∀ layer ∈ rest, layer.isEmpty = false
  /-- All segments of a layer end at its height. -/
  level : ∀ layer ∈ layers, layer.IsLevel
  /-- Neighbouring layers are at different heights. -/
  adjacent :
    layers.IsChain fun below above => (below.z == above.z) = false
  /-- The moves of a layer are its maximal runs of segments of one kind. -/
  runs :
    ∀ layer ∈ layers, layer.moves.toList = Layer.runMoves layer.segments.toList

/-- Every layer of a build was filled segment by segment. -/
theorem filled_of_mem_build
    {options : BuildOptions}
    {text : String}
    {layer : Layer}
    (member : layer ∈ (build options text).model.layers) :
    layer.Filled := by
  rw [← Array.mem_toList_iff, layers_build] at member
  exact Layer.forall_mem_filledBy Layer.Filled (.new 0.0)
    (fun motion _ => .push (.new motion.finish.z) motion.segment)
    (fun _ motion filled _ => .push filled motion.segment) layer member

theorem isNumber_finish_of_mem_drawnMotions
    {options : BuildOptions}
    {text : String}
    {motion : Motion}
    (member : motion ∈ drawnMotions options text) :
    motion.finish.IsNumber :=
  (Machine.isNumber_of_mem_drawings options.allowXyzReset Machine.isNumber_fresh
    (fun _ decoded => Decoder.isFinite_axes_of_mem_commands decoded) member).2

/-- All segments of a layer end at its height. -/
theorem isLevel_of_mem_build
    {options : BuildOptions}
    {text : String}
    {layer : Layer}
    (member : layer ∈ (build options text).model.layers) :
    layer.IsLevel := by
  have isLevel_empty (z : Float) : Layer.IsLevel { z := z } := by
    intro segment inEmpty
    cases inEmpty
  rw [← Array.mem_toList_iff, layers_build] at member
  refine Layer.forall_mem_filledBy Layer.IsLevel (isLevel_empty 0.0) ?_ ?_ layer member
  · intro motion drawn
    have number := isNumber_finish_of_mem_drawnMotions drawn
    exact (isLevel_empty motion.finish.z).push (Binary64.beq_self (number .z))
  · intro layer motion level same
    exact level.push (BEq.symm same)

/-- The height of a layer is where a motion ended, which is a number, or the initial zero. -/
theorem isNaN_z_of_mem_build
    {options : BuildOptions}
    {text : String}
    {layer : Layer}
    (member : layer ∈ (build options text).model.layers) :
    layer.z.isNaN = false := by
  rw [← Array.mem_toList_iff, layers_build] at member
  exact Layer.forall_mem_filledBy (fun layer => layer.z.isNaN = false) rfl
    (fun _ drawn => isNumber_finish_of_mem_drawnMotions drawn .z)
    (fun _ _ number _ => number) layer member

/-- The layers of a build are the grouping of what its commands draw. -/
theorem layering_build (options : BuildOptions) (text : String) :
    Layering (build options text).model.layers.toList (drawnMotions options text) where
  segments := segments_build options text
  cuts := by
    have startLevel : ((0.0 : Float) == 0.0) = true := rfl
    have cut :=
      Layer.map_segments_filledBy { z := 0.0 } 0.0 (drawnMotions options text) startLevel
        fun motion drawn => isNumber_finish_of_mem_drawnMotions drawn
    rw [layers_build, cut]
    cases Motion.levelRuns 0.0 (drawnMotions options text) <;> rfl
  anchored := by
    obtain ⟨first, rest, shape, height⟩ :=
      Layer.filledBy_eq_cons { z := 0.0 } (drawnMotions options text)
    refine ⟨first, rest, (layers_build options text).trans shape, height, ?_⟩
    intro layer member
    apply Layer.isEmpty_of_mem_tail_filledBy
    rw [shape]
    exact member
  level layer member := isLevel_of_mem_build (Array.mem_toList_iff.mp member)
  adjacent := by
    rw [layers_build]
    exact Layer.isChain_filledBy _ _
  runs layer member := (filled_of_mem_build (Array.mem_toList_iff.mp member)).moves_eq_runMoves

end LayerPlayback
