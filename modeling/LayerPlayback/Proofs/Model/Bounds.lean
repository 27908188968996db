import LayerPlayback.Model.Bounds
import LayerPlayback.Proofs.Number.Extremes

namespace LayerPlayback

/-!
# Boxes and height ranges are extremes

Each side of a box is picked from one coordinate of its points, and the height range of a
model from the heights of its layers.  Where segments reach the heights of the layers and
no others, the box of a model is as high as its height range.
-/

/-- The box of more points picks each side from their coordinates. -/
theorem Bounds.foldl_add (bounds : Bounds) (points : List Point) :
    points.foldl add bounds =
      { minX := (points.map Point.x).foldl Binary64.smaller bounds.minX
        maxX := (points.map Point.x).foldl Binary64.larger bounds.maxX
        minY := (points.map Point.y).foldl Binary64.smaller bounds.minY
        maxY := (points.map Point.y).foldl Binary64.larger bounds.maxY
        minZ := (points.map Point.z).foldl Binary64.smaller bounds.minZ
        maxZ := (points.map Point.z).foldl Binary64.larger bounds.maxZ } := by
  induction points generalizing bounds with
  | nil => rfl
  | cons first rest inductionHypothesis => exact inductionHypothesis (bounds.add first)

namespace Model

theorem mem_endpoints {model : Model} {point : Point} :
    point ∈ model.endpoints ↔
      ∃ segment ∈ model.segments, point = segment.start ∨ point = segment.finish := by
  simp [endpoints]

/-- The height range picks its ends from the heights of the layers. -/
theorem heightRange_eq (model : Model) :
    model.heightRange =
      ((model.layers.toList.map Layer.z).foldl Binary64.smaller Binary64.infinity,
        (model.layers.toList.map Layer.z).foldl Binary64.larger (-Binary64.infinity)) := by
  unfold heightRange
  generalize (-Binary64.infinity) = highest
  generalize Binary64.infinity = lowest
  induction model.layers.toList generalizing lowest highest with
  | nil => rfl
  | cons first rest inductionHypothesis => exact inductionHypothesis _ _

/-- The box is as high as the height range when segments end at the heights of the layers. -/
theorem bounds_beq_heightRange
    {model : Model}
    (same :
      Binary64.SameNumbers (model.endpoints.map Point.z) (model.layers.toList.map Layer.z))
    (ground : ∃ layer ∈ model.layers, layer.z = 0.0) :
    (model.bounds.minZ == model.heightRange.1) = true ∧
      (model.bounds.maxZ == model.heightRange.2) = true := by
  obtain ⟨layer, member, atGround⟩ := ground
  have isHeight : (0.0 : Float) ∈ model.layers.toList.map Layer.z :=
    List.mem_map.mpr ⟨layer, Array.mem_toList_iff.mpr member, atGround⟩
  obtain ⟨x, isEnd, equal⟩ := same.right 0.0 isHeight
  rw [bounds, Bounds.ofPoints, Bounds.foldl_add, heightRange_eq]
  constructor
  · have reached : x ≤ Binary64.greatestFinite :=
      Binary64.le_trans (Binary64.le_of_beq equal) (by decide)
    exact same.foldl_smaller_beq rfl rfl ⟨x, isEnd, reached⟩ ⟨0.0, isHeight, by decide⟩
  · have reached : Binary64.leastFinite ≤ x :=
      Binary64.le_trans (by decide) (Binary64.le_of_beq (BEq.symm equal))
    exact same.foldl_larger_beq rfl rfl ⟨x, isEnd, reached⟩ ⟨0.0, isHeight, by decide⟩

end Model

end LayerPlayback
