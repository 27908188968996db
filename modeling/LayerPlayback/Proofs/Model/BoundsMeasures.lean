import LayerPlayback.Proofs.Model.TightBounds

namespace LayerPlayback

/-!
# The measures of a box

A box of finite points has a middle and extents, and no extent is negative.  They are the
rounded sums and differences of its sides.  So a middle lies between its sides as long as
the sum of the two is finite, and an extent is finite as long as the difference is.  Sides
near the ends of the finite range can overflow, those of one single point too.
-/

open Binary64 (value overflowValue)

/-- What two sides say about the middle and the extent that are computed from them. -/
structure Bounds.MeasuresSides (low high middle extent : Float) : Prop where
  extent_nonneg : 0.0 ≤ extent
  extent_isFinite_iff : extent.isFinite = true ↔ value high - value low < overflowValue
  middle_isFinite_iff : middle.isFinite = true ↔ |value low + value high| < overflowValue
  middle_inside : middle.isFinite = true → low ≤ middle ∧ middle ≤ high

namespace Bounds

theorem measuresSides
    {low high : Float}
    (lowFinite : low.isFinite = true)
    (highFinite : high.isFinite = true)
    (ordered : low ≤ high) :
    MeasuresSides low high ((low + high) / 2.0) (high - low) := by
  have difference : 0 ≤ value high - value low := sub_nonneg.mpr (Binary64.le_iff.mp ordered).2.2
  have rounds := Binary64.rounds_sub highFinite lowFinite
  have middle := Binary64.isFinite_middle_iff lowFinite highFinite
  exact {
    extent_nonneg := Binary64.le_iff.mpr ⟨Binary64.isNaN_zero, rounds.number,
      rounds.atLeast 0.0 Binary64.isNaN_zero difference⟩
    extent_isFinite_iff := by
      rw [Binary64.isFinite_sub_iff highFinite lowFinite, abs_of_nonneg difference]
    middle_isFinite_iff := middle
    middle_inside := fun finite =>
      Binary64.middle_between lowFinite highFinite ordered (middle.mp finite)
  }

/-- Of finite points, the box has a middle, and the sides say where it and the extents lie. -/
theorem measuresSides_ofPoints
    {points : List Point}
    (nonempty : points ≠ [])
    (finite : ∀ point ∈ points, point.IsFinite) :
    ∃ center : Point,
      (ofPoints points).center? = some center ∧
        MeasuresSides (ofPoints points).minX (ofPoints points).maxX center.x
          (ofPoints points).width ∧
        MeasuresSides (ofPoints points).minY (ofPoints points).maxY center.y
          (ofPoints points).depth ∧
        MeasuresSides (ofPoints points).minZ (ofPoints points).maxZ center.z
          (ofPoints points).height := by
  have tight := isTight_ofPoints nonempty finite
  generalize ofPoints points = bounds at tight ⊢
  obtain ⟨finiteX, finiteY, finiteZ⟩ := Point.isFinite_of_mem_map finite
  obtain ⟨orderedX, orderedY, orderedZ⟩ := tight.ordered
  have valid := tight.isValid finite
  rw [center?, width, depth, height, if_pos valid, if_pos valid, if_pos valid, if_pos valid]
  exact ⟨_, rfl,
    measuresSides (finiteX _ tight.minX.attained) (finiteX _ tight.maxX.attained) orderedX,
    measuresSides (finiteY _ tight.minY.attained) (finiteY _ tight.maxY.attained) orderedY,
    measuresSides (finiteZ _ tight.minZ.attained) (finiteZ _ tight.maxZ.attained) orderedZ⟩

/-- The ends of the finite range have their middle between them, but no finite distance. -/
theorem measuresSides_ofPoints_farthest :
    let points : List Point :=
      [⟨Binary64.greatestFinite, 0.1, -0.0⟩, ⟨Binary64.leastFinite, 0.3, 1.5⟩]
    points ≠ [] ∧
      (∀ point ∈ points, point.IsFinite) ∧
        ∃ center : Point,
          (ofPoints points).center? = some center ∧
            ((ofPoints points).minX ≤ center.x ∧ center.x ≤ (ofPoints points).maxX) ∧
              (0.0 ≤ (ofPoints points).width ∧ (ofPoints points).width.isFinite = false) := by
  intro points
  have nonempty : points ≠ [] := List.cons_ne_nil _ _
  have finite : ∀ point ∈ points, point.IsFinite :=
    List.forall_mem_cons.mpr ⟨⟨by decide, by decide, by decide⟩,
      List.forall_mem_singleton.mpr ⟨by decide, by decide, by decide⟩⟩
  obtain ⟨center, isCenter, sides, _⟩ := measuresSides_ofPoints nonempty finite
  have middleFinite : ((ofPoints points).center?.map fun middle => middle.x.isFinite) = some true :=
    by decide +kernel
  rw [isCenter] at middleFinite
  exact ⟨nonempty, finite, center, isCenter, sides.middle_inside (Option.some.inj middleFinite),
    sides.extent_nonneg, by decide +kernel⟩

/-- The middle of one far point is infinite: it lies outside of the box. -/
theorem center?_ofPoints_overflowing :
    let far : Point := ⟨Binary64.greatestFinite, 0.0, 0.0⟩
    far.IsFinite ∧
      ∃ center : Point,
        (ofPoints [far]).center? = some center ∧
          center.x.isFinite = false ∧ ¬ center.x ≤ (ofPoints [far]).maxX :=
  ⟨⟨by decide, by decide, by decide⟩, _, rfl, by decide +kernel, by decide +kernel⟩

end Bounds

end LayerPlayback
