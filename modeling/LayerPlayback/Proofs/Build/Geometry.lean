import LayerPlayback.Proofs.Build.Grouping
import LayerPlayback.Proofs.Model.Bounds
import LayerPlayback.Proofs.Model.Covering
import LayerPlayback.Proofs.Model.Polylines

namespace LayerPlayback

/-!
# What is derived from the segments of a build

The segments of a build form one path from the origin through all layers, and each layer
holds those that end at its height.  Polylines, which leave out starts, therefore keep
everything, and the ends of the segments have the heights of the layers: a segment starts
at the origin, where the first layer is, or at the height where another one ends.
-/

variable (options : BuildOptions) (text : String)

/-- The segments of a build lead without a gap from the origin to its final position. -/
theorem path_build :
    Path Position.origin.point (build options text).model.segments
      (build options text).finalPosition.point := by
  rw [segments_build, finalPosition_build]
  exact Machine.path_drawings options.allowXyzReset Machine.isNumber_fresh
    fun _ member => Decoder.isFinite_axes_of_mem_commands member

/--
The polylines of a build are its moves, layer by layer, and all of its segments can be
read off their vertices in order.
-/
theorem batchedInto_build :
    (build options text).model.BatchedInto (Polyline.ofModel (build options text).model) :=
  Model.batchedInto_ofModel (fun _ member => filled_of_mem_build member) (path_build options text)

/-! ## The heights of segments and of layers -/

variable {options : BuildOptions} {text : String}

/-- The first layer of a build is at height zero. -/
theorem exists_ground_build : ∃ layer ∈ (build options text).model.layers, layer.z = 0.0 := by
  obtain ⟨first, rest, shape, height⟩ :=
    Layer.filledBy_eq_cons { z := 0.0 } (drawnMotions options text)
  refine ⟨first, ?_, height⟩
  rw [← Array.mem_toList_iff, layers_build, shape]
  exact List.mem_cons_self

/-- A layer without segments can only be the first one, at height zero. -/
theorem ground_or_drawn_of_mem_build
    {layer : Layer}
    (member : layer ∈ (build options text).model.layers) :
    layer.z = 0.0 ∨ layer.segments.toList ≠ [] := by
  have drawn_push (layer : Layer) (segment : Segment) :
      (layer.push segment).segments.toList ≠ [] := by
    simp
  rw [← Array.mem_toList_iff, layers_build] at member
  exact Layer.forall_mem_filledBy (fun layer => layer.z = 0.0 ∨ layer.segments.toList ≠ [])
    (.inl rfl) (fun _ _ => .inr (drawn_push _ _)) (fun _ _ _ _ => .inr (drawn_push _ _))
    layer member

/-- Each segment ends at the height of a layer. -/
theorem exists_layer_of_finish
    {segment : Segment}
    (member : segment ∈ (build options text).model.segments) :
    ∃ layer ∈ (build options text).model.layers, (segment.finish.z == layer.z) = true := by
  obtain ⟨layer, isLayer, inLayer⟩ := List.mem_flatMap.mp member
  have isLayer := Array.mem_toList_iff.mp isLayer
  exact ⟨layer, isLayer, isLevel_of_mem_build isLayer segment inLayer⟩

/-- Each segment starts at the height of a layer. -/
theorem exists_layer_of_start
    {segment : Segment}
    (member : segment ∈ (build options text).model.segments) :
    ∃ layer ∈ (build options text).model.layers, (segment.start.z == layer.z) = true := by
  rcases (path_build options text).start_or_finish segment member with
    fromOrigin | ⟨earlier, earlierMember, meets⟩
  · obtain ⟨ground, isLayer, height⟩ := @exists_ground_build options text
    refine ⟨ground, isLayer, ?_⟩
    rw [height]
    exact BEq.symm (Point.beq_eq_true_iff.mp fromOrigin).2.2
  · obtain ⟨layer, isLayer, level⟩ := exists_layer_of_finish earlierMember
    have sameHeight := (Point.beq_eq_true_iff.mp meets).2.2
    exact ⟨layer, isLayer, BEq.trans (BEq.symm sameHeight) level⟩

/-- Each end of a segment is at the height of a layer. -/
theorem exists_layer_of_endpoint
    {point : Point}
    (member : point ∈ (build options text).model.endpoints) :
    ∃ layer ∈ (build options text).model.layers, (point.z == layer.z) = true := by
  obtain ⟨segment, isSegment, rfl | rfl⟩ := Model.mem_endpoints.mp member
  · exact exists_layer_of_start isSegment
  · exact exists_layer_of_finish isSegment

/--
Once something is drawn, each layer is at the height of an end: of one of its own
segments, or of the origin, where the first segment starts.
-/
theorem exists_endpoint_of_layer
    (drawn : (build options text).model.segments ≠ [])
    {layer : Layer}
    (member : layer ∈ (build options text).model.layers) :
    ∃ point ∈ (build options text).model.endpoints, (point.z == layer.z) = true := by
  rcases ground_or_drawn_of_mem_build member with ground | holds
  · obtain ⟨first, rest, shape⟩ := List.exists_cons_of_ne_nil drawn
    have isFirst : first ∈ (build options text).model.segments.head? := by
      rw [shape]
      rfl
    have fromOrigin := (path_build options text).start_head? first isFirst
    refine ⟨first.start,
      Model.mem_endpoints.mpr ⟨first, List.mem_of_head? isFirst, .inl rfl⟩, ?_⟩
    rw [ground]
    exact BEq.symm (Point.beq_eq_true_iff.mp fromOrigin).2.2
  · obtain ⟨segment, inLayer⟩ := List.exists_mem_of_ne_nil _ holds
    have isSegment : segment ∈ (build options text).model.segments :=
      List.mem_flatMap.mpr ⟨layer, Array.mem_toList_iff.mpr member, inLayer⟩
    exact ⟨segment.finish, Model.mem_endpoints.mpr ⟨segment, isSegment, .inr rfl⟩,
      isLevel_of_mem_build member segment inLayer⟩

theorem sameNumbers_heights_build
    (drawn : (build options text).model.segments ≠ []) :
    Binary64.SameNumbers ((build options text).model.endpoints.map Point.z)
      ((build options text).model.layers.toList.map Layer.z) where
  left := by
    intro height isEnd
    obtain ⟨point, isEndpoint, rfl⟩ := List.mem_map.mp isEnd
    obtain ⟨layer, isLayer, level⟩ := exists_layer_of_endpoint isEndpoint
    exact ⟨layer.z, List.mem_map_of_mem (Array.mem_toList_iff.mpr isLayer), level⟩
  right := by
    intro height isHeight
    obtain ⟨layer, isLayer, rfl⟩ := List.mem_map.mp isHeight
    obtain ⟨point, isEndpoint, level⟩ :=
      exists_endpoint_of_layer drawn (Array.mem_toList_iff.mp isLayer)
    exact ⟨point.z, List.mem_map_of_mem isEndpoint, level⟩

/--
When a build draws a segment, the box of its segment ends is exactly as high as the range
of its layer heights.
-/
theorem boxHeights_build
    (options : BuildOptions)
    (text : String)
    (drawn : 0 < (build options text).model.segmentCount) :
    let model := (build options text).model
    (model.bounds.minZ == model.heightRange.1) = true ∧
      (model.bounds.maxZ == model.heightRange.2) = true := by
  rw [Model.segmentCount_eq_length] at drawn
  exact Model.bounds_beq_heightRange
    (sameNumbers_heights_build (List.ne_nil_of_length_pos drawn)) exists_ground_build

/-- The heights agree from an overflow below zero up to a height above it. -/
theorem boxHeights_build_overflowing :
    let model := (build {} "G91\nG1 Z-1e308\nG1 Z-1e308\nG90\nG1 X1 Z5").model
    0 < model.segmentCount ∧
      (model.bounds.minZ == model.heightRange.1) = true ∧
      (model.bounds.maxZ == model.heightRange.2) = true ∧
      model.heightRange = (-Binary64.infinity, 5.0) := by
  intro model
  have drawn : 0 < model.segmentCount := by decide +kernel
  obtain ⟨lowest, highest⟩ := boxHeights_build {} _ drawn
  exact ⟨drawn, lowest, highest, by decide +kernel⟩

end LayerPlayback
