import LayerPlayback.Model
import LayerPlayback.Proofs.Number.Value

namespace LayerPlayback

/-!
# The height range bounds the layers

The range of heights starts out empty, from infinity to its opposite, and widens
layer by layer.  Its ends are numbers for any model, and heights that are numbers
lie between them.
-/

namespace Model

/-- The range widens only, and takes in every height that is a number; NaN leaves it as it is. -/
theorem foldl_range
    (layers : List Layer)
    {lowest highest : Float}
    (lowestNumber : lowest.isNaN = false)
    (highestNumber : highest.isNaN = false) :
    let range := layers.foldl
      (fun (lowest, highest) layer =>
        (Binary64.smaller lowest layer.z, Binary64.larger highest layer.z))
      (lowest, highest)
    range.1 ≤ lowest ∧ highest ≤ range.2 ∧
      ∀ layer ∈ layers, layer.z.isNaN = false → range.1 ≤ layer.z ∧ layer.z ≤ range.2 := by
  induction layers generalizing lowest highest with
  | nil =>
      exact ⟨Binary64.le_refl_of_number lowestNumber, Binary64.le_refl_of_number highestNumber,
        List.forall_mem_nil _⟩
  | cons first rest inductionHypothesis =>
      have widerBelow : Binary64.smaller lowest first.z ≤ lowest :=
        Binary64.smaller_le_left lowestNumber
      have widerAbove : highest ≤ Binary64.larger highest first.z :=
        Binary64.left_le_larger highestNumber
      obtain ⟨below, above, others⟩ :=
        inductionHypothesis (Binary64.le_iff.mp widerBelow).1 (Binary64.le_iff.mp widerAbove).2.1
      refine ⟨Binary64.le_trans below widerBelow, Binary64.le_trans widerAbove above, ?_⟩
      refine List.forall_mem_cons.mpr ⟨?_, others⟩
      intro number
      exact ⟨Binary64.le_trans below (Binary64.smaller_le_right lowestNumber number),
        Binary64.le_trans (Binary64.right_le_larger highestNumber number) above⟩

/-- Both ends are numbers, whatever the heights are. -/
theorem isNaN_heightRange (model : Model) :
    model.heightRange.1.isNaN = false ∧ model.heightRange.2.isNaN = false := by
  obtain ⟨below, above, _⟩ :=
    @foldl_range model.layers.toList Binary64.infinity (-Binary64.infinity) rfl rfl
  exact ⟨(Binary64.le_iff.mp below).1, (Binary64.le_iff.mp above).2.1⟩

/-- Each height that is a number lies within the range of its model. -/
theorem height_in_heightRange
    {model : Model}
    {layer : Layer}
    (member : layer ∈ model.layers.toList)
    (number : layer.z.isNaN = false) :
    model.heightRange.1 ≤ layer.z ∧ layer.z ≤ model.heightRange.2 :=
  (@foldl_range model.layers.toList Binary64.infinity (-Binary64.infinity) rfl rfl).2.2
    layer member number

end Model

end LayerPlayback
