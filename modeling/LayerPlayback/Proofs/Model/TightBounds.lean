import LayerPlayback.Proofs.Model.Bounds
import LayerPlayback.Proofs.Number.Overflow

namespace LayerPlayback

/-!
# The box of some points is tight

A box starts out from sides that no finite coordinate lies beyond, so it is the first point
that decides, even one at the ends of the finite range.  Each side is then a coordinate of
some point and passes none of the others.  There is one such box for a set of points, up to
the sign of zeros: neither their order nor their repetition counts.
-/

namespace Binary64

/-- A double that is one of some numbers and above none of them. -/
structure IsLeastOf (least : Float) (numbers : List Float) : Prop where
  attained : least ∈ numbers
  atMost : ∀ x ∈ numbers, least ≤ x

/-- A double that is one of some numbers and below none of them. -/
structure IsGreatestOf (greatest : Float) (numbers : List Float) : Prop where
  attained : greatest ∈ numbers
  atLeast : ∀ x ∈ numbers, x ≤ greatest

/-- Doubles that bound each other are equal. -/
theorem beq_of_le_of_le {x y : Float} (below : x ≤ y) (above : y ≤ x) : (x == y) = true := by
  obtain ⟨xNumber, yNumber, xBelow⟩ := le_iff.mp below
  exact beq_iff.mpr ⟨xNumber, yNumber, le_antisymm xBelow (le_iff.mp above).2.2⟩

section SameMembers

variable {x y : Float} {first second : List Float} (same : ∀ z, z ∈ first ↔ z ∈ second)

include same

/-- A least number is determined up to equality. -/
theorem IsLeastOf.beq (isFirst : IsLeastOf x first) (isSecond : IsLeastOf y second) :
    (x == y) = true :=
  beq_of_le_of_le (isFirst.atMost y ((same y).mpr isSecond.attained))
    (isSecond.atMost x ((same x).mp isFirst.attained))

theorem IsGreatestOf.beq (isFirst : IsGreatestOf x first) (isSecond : IsGreatestOf y second) :
    (x == y) = true :=
  beq_of_le_of_le (isSecond.atLeast x ((same x).mp isFirst.attained))
    (isFirst.atLeast y ((same y).mpr isSecond.attained))

end SameMembers

/-- Picking one of two again and again ends with one of all. -/
theorem foldl_mem_cons
    {pick : Float → Float → Float}
    (picks : ∀ first second, pick first second = first ∨ pick first second = second)
    (start : Float)
    (numbers : List Float) :
    numbers.foldl pick start ∈ start :: numbers := by
  refine List.foldlRecOn numbers pick List.mem_cons_self fun picked isOne next member => ?_
  rcases picks picked next with same | same <;> rw [same]
  · exact isOne
  · exact List.mem_cons_of_mem _ member

/-- What has a value of the list is in the list, also when it is the start that was picked. -/
theorem foldl_mem_of_value_mem
    {pick : Float → Float → Float}
    (picks : ∀ first second, pick first second = first ∨ pick first second = second)
    {start : Float}
    {numbers : List Float}
    (startNumber : start.isNaN = false)
    (nonzero : value start ≠ 0)
    (areNumbers : ∀ x ∈ numbers, x.isNaN = false)
    (attained : value (numbers.foldl pick start) ∈ values numbers) :
    numbers.foldl pick start ∈ numbers := by
  rcases List.mem_cons.mp (foldl_mem_cons picks start numbers) with isStart | member
  · obtain ⟨x, member, same⟩ := List.mem_map.mp attained
    rw [isStart] at same ⊢
    have equal : (start == x) = true := beq_iff.mpr ⟨startNumber, areNumbers x member, same.symm⟩
    rwa [eq_of_beq equal nonzero]
  · exact member

/-- The smaller one is one of the two, so a minimum of finite numbers is attained. -/
theorem smaller_eq_or (first second : Float) :
    smaller first second = first ∨ smaller first second = second := by
  unfold smaller
  split
  · exact .inr rfl
  · split
    · exact .inr rfl
    · exact .inl rfl

theorem larger_eq_or (first second : Float) :
    larger first second = first ∨ larger first second = second := by
  unfold larger
  split
  · exact .inr rfl
  · split
    · exact .inr rfl
    · exact .inl rfl

theorem value_greatestFinite_ne_zero : value greatestFinite ≠ 0 := by
  rw [value_greatestFinite]
  exact (scaled_pos (by norm_num) 971).ne'

section Finite

variable {numbers : List Float} (nonempty : numbers ≠ [])
  (finite : ∀ x ∈ numbers, x.isFinite = true)

include nonempty finite

/-- From the greatest double on, the least of finite numbers is found. -/
theorem isLeastOf_foldl_smaller : IsLeastOf (numbers.foldl smaller greatestFinite) numbers := by
  have startNumber := isNaN_of_isFinite isFinite_greatestFinite
  have areNumbers := fun x member => isNaN_of_isFinite (finite x member)
  obtain ⟨first, member⟩ := List.exists_mem_of_ne_nil numbers nonempty
  obtain ⟨number, attained, lower⟩ :=
    isLeast_foldl_smaller startNumber areNumbers
      ⟨first, member, le_greatestFinite (finite first member)⟩
  refine ⟨foldl_mem_of_value_mem smaller_eq_or startNumber value_greatestFinite_ne_zero areNumbers
    attained, fun x isOne => ?_⟩
  exact le_iff.mpr ⟨number, areNumbers x isOne, lower (List.mem_map_of_mem isOne)⟩

/-- From the least double on, the greatest of finite numbers is found. -/
theorem isGreatestOf_foldl_larger : IsGreatestOf (numbers.foldl larger leastFinite) numbers := by
  have greatestNumber := isNaN_of_isFinite isFinite_greatestFinite
  have startNumber : leastFinite.isNaN = false := isNaN_neg greatestNumber
  have startNonzero : value leastFinite ≠ 0 := by
    rw [leastFinite, value_neg greatestNumber]
    exact neg_ne_zero.mpr value_greatestFinite_ne_zero
  have areNumbers := fun x member => isNaN_of_isFinite (finite x member)
  obtain ⟨first, member⟩ := List.exists_mem_of_ne_nil numbers nonempty
  obtain ⟨number, attained, upper⟩ :=
    isGreatest_foldl_larger startNumber areNumbers
      ⟨first, member, leastFinite_le (finite first member)⟩
  refine ⟨foldl_mem_of_value_mem larger_eq_or startNumber startNonzero areNumbers attained,
    fun x isOne => ?_⟩
  exact le_iff.mpr ⟨areNumbers x isOne, number, upper (List.mem_map_of_mem isOne)⟩

end Finite

end Binary64

/-- A point with finite coordinates. -/
structure Point.IsFinite (point : Point) : Prop where
  x : point.x.isFinite = true
  y : point.y.isFinite = true
  z : point.z.isFinite = true

/-- Along each axis, the coordinates of finite points are finite. -/
theorem Point.isFinite_of_mem_map
    {points : List Point}
    (finite : ∀ point ∈ points, point.IsFinite) :
    (∀ x ∈ points.map Point.x, x.isFinite = true) ∧
      (∀ y ∈ points.map Point.y, y.isFinite = true) ∧
        ∀ z ∈ points.map Point.z, z.isFinite = true :=
  ⟨List.forall_mem_map.mpr fun point member => (finite point member).x,
    List.forall_mem_map.mpr fun point member => (finite point member).y,
    List.forall_mem_map.mpr fun point member => (finite point member).z⟩

namespace Bounds

/-- Every side of a box is a coordinate of a point that it holds, and it holds all points. -/
structure IsTight (bounds : Bounds) (points : List Point) : Prop where
  minX : Binary64.IsLeastOf bounds.minX (points.map Point.x)
  maxX : Binary64.IsGreatestOf bounds.maxX (points.map Point.x)
  minY : Binary64.IsLeastOf bounds.minY (points.map Point.y)
  maxY : Binary64.IsGreatestOf bounds.maxY (points.map Point.y)
  minZ : Binary64.IsLeastOf bounds.minZ (points.map Point.z)
  maxZ : Binary64.IsGreatestOf bounds.maxZ (points.map Point.z)

/-- Each bound of a box is a coordinate of one of its points, and none of them is beyond it. -/
theorem isTight_ofPoints
    {points : List Point}
    (nonempty : points ≠ [])
    (finite : ∀ point ∈ points, point.IsFinite) :
    (ofPoints points).IsTight points := by
  have someNumber (coordinate : Point → Float) : points.map coordinate ≠ [] :=
    List.map_eq_nil_iff.not.mpr nonempty
  obtain ⟨finiteX, finiteY, finiteZ⟩ := Point.isFinite_of_mem_map finite
  rw [ofPoints, foldl_add]
  exact {
    minX := Binary64.isLeastOf_foldl_smaller (someNumber Point.x) finiteX
    maxX := Binary64.isGreatestOf_foldl_larger (someNumber Point.x) finiteX
    minY := Binary64.isLeastOf_foldl_smaller (someNumber Point.y) finiteY
    maxY := Binary64.isGreatestOf_foldl_larger (someNumber Point.y) finiteY
    minZ := Binary64.isLeastOf_foldl_smaller (someNumber Point.z) finiteZ
    maxZ := Binary64.isGreatestOf_foldl_larger (someNumber Point.z) finiteZ
  }

namespace IsTight

variable {bounds other : Bounds} {points others : List Point} (tight : bounds.IsTight points)

include tight

/-- The lower sides lie at or below the upper ones. -/
theorem ordered :
    bounds.minX ≤ bounds.maxX ∧ bounds.minY ≤ bounds.maxY ∧ bounds.minZ ≤ bounds.maxZ :=
  ⟨tight.minX.atMost _ tight.maxX.attained, tight.minY.atMost _ tight.maxY.attained,
    tight.minZ.atMost _ tight.maxZ.attained⟩

/-- A box of finite points is valid once there is a point. -/
theorem isValid (finite : ∀ point ∈ points, point.IsFinite) : bounds.isValid = true := by
  obtain ⟨finiteX, finiteY, finiteZ⟩ := Point.isFinite_of_mem_map finite
  obtain ⟨orderedX, orderedY, orderedZ⟩ := tight.ordered
  simp only [Bounds.isValid, Bool.and_eq_true, decide_eq_true_eq]
  exact ⟨⟨⟨⟨⟨⟨⟨⟨finiteX _ tight.minX.attained, finiteX _ tight.maxX.attained⟩,
    finiteY _ tight.minY.attained⟩, finiteY _ tight.maxY.attained⟩,
    finiteZ _ tight.minZ.attained⟩, finiteZ _ tight.maxZ.attained⟩,
    orderedX⟩, orderedY⟩, orderedZ⟩

/-- Points have one tight box, and their order and repetition do not count. -/
theorem beq
    (otherTight : other.IsTight others)
    (same : ∀ point, point ∈ points ↔ point ∈ others) :
    (bounds == other) = true := by
  have sameNumbers (coordinate : Point → Float) :
      ∀ z, z ∈ points.map coordinate ↔ z ∈ others.map coordinate := by
    simp [List.mem_map, same]
  simp only [BEq.beq, instBEqBounds.beq, Bool.and_eq_true]
  exact ⟨tight.minX.beq (sameNumbers Point.x) otherTight.minX,
    tight.maxX.beq (sameNumbers Point.x) otherTight.maxX,
    tight.minY.beq (sameNumbers Point.y) otherTight.minY,
    tight.maxY.beq (sameNumbers Point.y) otherTight.maxY,
    tight.minZ.beq (sameNumbers Point.z) otherTight.minZ,
    tight.maxZ.beq (sameNumbers Point.z) otherTight.maxZ⟩

end IsTight

/-- The box of finite points is valid if there are any, tight, and the same for the same points. -/
theorem tight_ofPoints
    {points : List Point}
    (finite : ∀ point ∈ points, point.IsFinite) :
    ((ofPoints points).isValid = true ↔ points ≠ []) ∧
      (points ≠ [] → (ofPoints points).IsTight points) ∧
        ∀ others : List Point, (∀ point, point ∈ others ↔ point ∈ points) →
          (ofPoints others == ofPoints points) = true := by
  have tight (nonempty : points ≠ []) := isTight_ofPoints nonempty finite
  refine ⟨⟨?_, fun nonempty => (tight nonempty).isValid finite⟩, tight, fun others same => ?_⟩
  · rintro valid rfl
    have invalid : (ofPoints []).isValid = false := rfl
    rw [invalid] at valid
    cases valid
  · have otherFinite : ∀ point ∈ others, point.IsFinite :=
      fun point member => finite point ((same point).mp member)
    by_cases nonempty : points = []
    · subst nonempty
      obtain rfl : others = [] :=
        List.eq_nil_iff_forall_not_mem.mpr fun point member =>
          List.not_mem_nil ((same point).mp member)
      rfl
    · obtain ⟨point, member⟩ := List.exists_mem_of_ne_nil points nonempty
      have otherNonempty : others ≠ [] := List.ne_nil_of_mem ((same point).mpr member)
      exact (isTight_ofPoints otherNonempty otherFinite).beq (tight nonempty) same

/-- Points at both ends of the finite range, and zeros of both signs. -/
theorem tight_ofPoints_farthest :
    let first : Point := ⟨Binary64.greatestFinite, Binary64.leastFinite, -0.0⟩
    let second : Point := ⟨Binary64.greatestFinite, 1.5, 0.0⟩
    (∀ point ∈ [first, second], point.IsFinite) ∧
      (ofPoints [first, second]).isValid = true ∧
        (ofPoints [first, second]).IsTight [first, second] ∧
          (ofPoints [second, first, second] == ofPoints [first, second]) = true := by
  intro first second
  have finite : ∀ point ∈ [first, second], point.IsFinite :=
    List.forall_mem_cons.mpr ⟨⟨by decide, by decide, by decide⟩,
      List.forall_mem_singleton.mpr ⟨by decide, by decide, by decide⟩⟩
  obtain ⟨valid, tight, unordered⟩ := tight_ofPoints finite
  have nonempty : [first, second] ≠ [] := List.cons_ne_nil _ _
  have same (point : Point) : point ∈ [second, first, second] ↔ point ∈ [first, second] := by
    simp only [List.mem_cons, List.not_mem_nil, or_false]
    tauto
  exact ⟨finite, valid.mpr nonempty, tight nonempty, unordered [second, first, second] same⟩

end Bounds

end LayerPlayback
