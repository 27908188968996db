import LayerPlayback.Proofs.Model.ModalStep
import LayerPlayback.Proofs.Number.Extremes

namespace LayerPlayback

/-!
# Steps depend on the set of heights alone

Heights are sorted before their differences are taken, so their order does not matter.  A
height that comes again stands next to itself and differs from itself by nothing, and the
bucket of a difference depends on the values of the two heights alone.  So the positive
differences are those of the distinct values in ascending order, and the same finite
values, in any order, number and spelling, give the same histogram and the same step.
-/

/-! ## Rises along ascending lists -/

section Rises

variable {α : Type}

/-- The positive rises from the items of a list to the next ones. -/
def rises (rise : α → α → Nat) (items : List α) : List Nat :=
  (List.zipWith rise items items.tail).filter fun difference => 0 < difference

/-- The first rise is between the first two items; all others are between the rest. -/
theorem rises_cons (rise : α → α → Nat) (item : α) (rest : List α) :
    rises rise (item :: rest) =
      ((rest.head?.map (rise item)).toList.filter fun difference => 0 < difference) ++
        rises rise rest := by
  cases rest with
  | nil => rfl
  | cons next rest => exact List.filter_append [rise item next] _

/-- Rises that depend on images alone are those along the images. -/
theorem rises_map
    {β : Type}
    {f : α → β}
    {rise : α → α → Nat}
    {rise' : β → β → Nat}
    {items : List α}
    (agrees : ∀ x ∈ items, ∀ y ∈ items, rise x y = rise' (f x) (f y)) :
    rises rise' (items.map f) = rises rise items := by
  induction items with
  | nil => rfl
  | cons item rest inductionHypothesis =>
      have onRest :=
        inductionHypothesis fun x xMember y yMember =>
          agrees x (List.mem_cons_of_mem _ xMember) y (List.mem_cons_of_mem _ yMember)
      rw [List.map_cons, rises_cons, rises_cons, onRest]
      cases rest with
      | nil => rfl
      | cons next others =>
          rw [List.map_cons, List.head?_cons, List.head?_cons, Option.map_some, Option.map_some,
            agrees item List.mem_cons_self next (List.mem_cons_of_mem _ List.mem_cons_self)]

variable [LinearOrder α] {items first second : List α}

/-- In an ascending list, an item that comes again comes right away. -/
theorem head?_eq_of_mem
    {item : α}
    {rest : List α}
    (ascending : (item :: rest).Pairwise (· ≤ ·))
    (again : item ∈ rest) :
    rest.head? = some item := by
  obtain ⟨below, restAscending⟩ := List.pairwise_cons.mp ascending
  cases rest with
  | nil => cases again
  | cons next others =>
      have notAbove : next ≤ item := by
        rcases List.mem_cons.mp again with same | later
        · exact same.ge
        · exact (List.pairwise_cons.mp restAscending).1 item later
      exact congrArg some (notAbove.antisymm (below next List.mem_cons_self))

theorem head?_dedup (ascending : items.Pairwise (· ≤ ·)) :
    items.dedup.head? = items.head? := by
  induction items with
  | nil => rfl
  | cons item rest inductionHypothesis =>
      by_cases again : item ∈ rest
      · rw [List.dedup_cons_of_mem again, inductionHypothesis ascending.of_cons,
          head?_eq_of_mem ascending again]
        rfl
      · rw [List.dedup_cons_of_notMem again]
        rfl

/-- If nothing rises above itself, the rises are those between distinct items. -/
theorem rises_dedup
    {rise : α → α → Nat}
    (still : ∀ item, rise item item = 0)
    (ascending : items.Pairwise (· ≤ ·)) :
    rises rise items.dedup = rises rise items := by
  induction items with
  | nil => rfl
  | cons item rest inductionHypothesis =>
      have distinct := inductionHypothesis ascending.of_cons
      by_cases again : item ∈ rest
      · rw [List.dedup_cons_of_mem again, distinct, rises_cons,
          head?_eq_of_mem ascending again, Option.map_some, still]
        rfl
      · rw [List.dedup_cons_of_notMem again, rises_cons, rises_cons, distinct,
          head?_dedup ascending.of_cons]

/-- Ascending lists of the same items have the same distinct items in the same order. -/
theorem dedup_eq_dedup
    (firstAscending : first.Pairwise (· ≤ ·))
    (secondAscending : second.Pairwise (· ≤ ·))
    (same : ∀ item, item ∈ first ↔ item ∈ second) :
    first.dedup = second.dedup := by
  have reordered : first.dedup.Perm second.dedup := by
    rw [List.perm_ext_iff_of_nodup (List.nodup_dedup _) (List.nodup_dedup _)]
    intro item
    rw [List.mem_dedup, List.mem_dedup, same]
  exact
    reordered.eq_of_pairwise (fun _ _ _ _ => le_antisymm)
      (firstAscending.sublist (List.dedup_sublist _))
      (secondAscending.sublist (List.dedup_sublist _))

end Rises

/-! ## Heights with the same finite values -/

/-- Heights whose finite ones are the same numbers, as doubles compare. -/
def SameHeights (first second : List Float) : Prop :=
  Binary64.SameNumbers (first.filter Float.isFinite) (second.filter Float.isFinite)

namespace SameHeights

variable {first second third : List Float}

/-- It is enough that every finite height has an equal one on the other side. -/
theorem of_subset
    (left : ∀ x ∈ first, x.isFinite = true → ∃ y ∈ second, (x == y) = true)
    (right : ∀ y ∈ second, y.isFinite = true → ∃ x ∈ first, (x == y) = true) :
    SameHeights first second := by
  constructor
  · intro x member
    obtain ⟨isHeight, finite⟩ := List.mem_filter.mp member
    obtain ⟨y, isOther, equal⟩ := left x isHeight finite
    exact ⟨y, List.mem_filter.mpr ⟨isOther, Binary64.isFinite_of_beq finite equal⟩, equal⟩
  · intro y member
    obtain ⟨isHeight, finite⟩ := List.mem_filter.mp member
    obtain ⟨x, isOther, equal⟩ := right y isHeight finite
    have otherFinite := Binary64.isFinite_of_beq finite (BEq.symm equal)
    exact ⟨x, List.mem_filter.mpr ⟨isOther, otherFinite⟩, equal⟩

/-- Reordered heights are the same. -/
theorem of_perm (reordered : first.Perm second) : SameHeights first second :=
  of_subset
    (fun x member finite =>
      ⟨x, reordered.mem_iff.mp member, Binary64.beq_self_of_isFinite finite⟩)
    fun y member finite =>
      ⟨y, reordered.mem_iff.mpr member, Binary64.beq_self_of_isFinite finite⟩

/-- Having the same heights is an equivalence, so single changes can be chained. -/
theorem equivalence : Equivalence SameHeights where
  refl _ := of_perm (List.Perm.refl _)
  symm same := same.symm
  trans same alsoSame := same.trans alsoSame

/-- One more height leaves the heights the same if it is known, or if it is not finite. -/
theorem cons
    {height : Float}
    (known : height.isFinite = true → ∃ other ∈ first, (other == height) = true) :
    SameHeights first (height :: first) := by
  refine of_subset (fun x member finite => ?_) fun y member finite => ?_
  · exact ⟨x, List.mem_cons_of_mem _ member, Binary64.beq_self_of_isFinite finite⟩
  · rcases List.mem_cons.mp member with rfl | member
    · exact known finite
    · exact ⟨y, member, Binary64.beq_self_of_isFinite finite⟩

end SameHeights

/-! ## Differences of the same heights -/

namespace StepHistogram

/-- Equal heights are as many units apart. -/
theorem units_congr
    {below above otherBelow otherAbove : Float}
    (belowFinite : below.isFinite = true)
    (aboveFinite : above.isFinite = true)
    (sameBelow : (below == otherBelow) = true)
    (sameAbove : (above == otherAbove) = true)
    (scale : Float) :
    units scale below above = units scale otherBelow otherAbove :=
  congrArg Int.toNat
    (Binary64.nearestInt64_mul_congr
      (Binary64.sub_beq_sub aboveFinite belowFinite sameAbove sameBelow) scale)

/-- A height is no units above an equal one, whatever the scale. -/
theorem units_eq_zero
    {below above : Float}
    (finite : above.isFinite = true)
    (same : (above == below) = true)
    (scale : Float) :
    units scale below above = 0 :=
  congrArg Int.toNat
    (Binary64.nearestInt64_zero_mul (Binary64.sub_beq_zero finite same) scale)

/-- How many units one height is above another depends on their values alone. -/
theorem exists_rise (scale : Float) :
    ∃ rise : ℚ → ℚ → Nat,
      (∀ v, rise v v = 0) ∧
        ∀ {below above : Float},
          below.isFinite = true →
          above.isFinite = true →
          units scale below above = rise (Binary64.value below) (Binary64.value above) := by
  let spelling := Function.invFunOn Binary64.value {height | height.isFinite = true}
  have spells {height : Float} (finite : height.isFinite = true) :
      (spelling (Binary64.value height)).isFinite = true ∧
        (spelling (Binary64.value height) == height) = true := by
    have found : ∃ other ∈ {height : Float | height.isFinite = true},
        Binary64.value other = Binary64.value height :=
      ⟨height, finite, rfl⟩
    have spelledFinite := Function.invFunOn_mem found
    refine ⟨spelledFinite, Binary64.beq_iff.mpr ⟨?_, ?_, Function.invFunOn_eq found⟩⟩
    · exact Binary64.isNaN_of_isFinite spelledFinite
    · exact Binary64.isNaN_of_isFinite finite
  refine ⟨fun v w => if v = w then 0 else units scale (spelling v) (spelling w),
    fun v => if_pos rfl, ?_⟩
  intro below above belowFinite aboveFinite
  dsimp only
  split
  · next same =>
      have equal : (above == below) = true :=
        Binary64.beq_iff.mpr ⟨Binary64.isNaN_of_isFinite aboveFinite,
          Binary64.isNaN_of_isFinite belowFinite, same.symm⟩
      exact units_eq_zero aboveFinite equal scale
  · obtain ⟨belowSpelledFinite, belowSpelled⟩ := spells belowFinite
    obtain ⟨aboveSpelledFinite, aboveSpelled⟩ := spells aboveFinite
    exact (units_congr belowSpelledFinite aboveSpelledFinite belowSpelled aboveSpelled scale).symm

/-- Sorting keeps which values there are. -/
theorem mem_values_sortedHeights {heights : List Float} {v : ℚ} :
    v ∈ (sortedHeights heights).map Binary64.value ↔
      v ∈ Binary64.values (heights.filter Float.isFinite) :=
  ((sortedHeights_perm heights).map _).mem_iff

theorem pairwise_values_sortedHeights (heights : List Float) :
    ((sortedHeights heights).map Binary64.value).Pairwise (· ≤ ·) :=
  List.pairwise_map.mpr
    ((pairwise_sortedHeights heights).imp fun ordered => (Binary64.le_iff.mp ordered).2.2)

/-- The same heights differ in the same way: along the distinct values, in ascending order. -/
theorem differences_eq_of_sameHeights
    {first second : List Float}
    (same : SameHeights first second)
    (scale : Float) :
    differences scale first = differences scale second := by
  obtain ⟨rise, still, isRise⟩ := exists_rise scale
  have alongValues (heights : List Float) :
      rises rise ((sortedHeights heights).map Binary64.value).dedup =
        differences scale heights := by
    rw [rises_dedup still (pairwise_values_sortedHeights heights)]
    refine rises_map fun below belowMember above aboveMember => ?_
    exact isRise (isFinite_of_mem_sortedHeights belowMember)
      (isFinite_of_mem_sortedHeights aboveMember)
  have sameValues :
      ((sortedHeights first).map Binary64.value).dedup =
        ((sortedHeights second).map Binary64.value).dedup := by
    refine dedup_eq_dedup (pairwise_values_sortedHeights first)
      (pairwise_values_sortedHeights second) fun v => ?_
    rw [mem_values_sortedHeights, mem_values_sortedHeights, same.values_eq]
  rw [← alongValues, sameValues, alongValues]

/-- The same heights give the same histogram, whatever their order and repetitions are. -/
theorem ofHeights_eq_of_sameHeights
    {first second : List Float}
    (same : SameHeights first second)
    (precisionDigits : UInt32) :
    ofHeights precisionDigits first = ofHeights precisionDigits second := by
  unfold ofHeights
  dsimp only
  rw [differences_eq_of_sameHeights same]

end StepHistogram

/-! ## Revised layers -/

/-- One change to the layers that leaves the set of their finite heights as it is. -/
inductive Revises : List Layer → List Layer → Prop
  /-- The layers come in another order. -/
  | reordered {layers others : List Layer} : layers.Perm others → Revises layers others
  /-- A height is visited again; zeros of either sign are one height. -/
  | revisited {layers : List Layer} {known layer : Layer} :
      known ∈ layers → (known.z == layer.z) = true → Revises layers (layer :: layers)
  /-- A layer is added at a height that is not finite. -/
  | unmeasured {layers : List Layer} {layer : Layer} :
      layer.z.isFinite = false → Revises layers (layer :: layers)

/-- A revision of layers that keeps their heights, up to equality, keeps the inferred step. -/
theorem Revises.sameHeights {layers others : List Layer} (revises : Revises layers others) :
    SameHeights (layers.map Layer.z) (others.map Layer.z) := by
  cases revises with
  | reordered isPerm => exact .of_perm (isPerm.map _)
  | revisited member equal => exact .cons fun _ => ⟨_, List.mem_map_of_mem member, equal⟩
  | unmeasured notFinite =>
      exact .cons fun finite => (Bool.false_ne_true (notFinite.symm.trans finite)).elim

/-- The heights stay the same over any number of changes, made or taken back. -/
theorem sameHeights_of_eqvGen
    {layers others : List Layer}
    (revised : Relation.EqvGen Revises layers others) :
    SameHeights (layers.map Layer.z) (others.map Layer.z) :=
  (SameHeights.equivalence.comap (List.map Layer.z)).eqvGen_iff.mp
    (revised.mono fun _ _ => Revises.sameHeights)

/--
The set of the finite heights determines the histogram, bucket by bucket, and with it the
most frequent step; so no change that leaves the set as it is changes an inferred step.
-/
theorem StepHistogram.determined_by_heights :
    (∀ (precisionDigits : UInt32) (first second : List Float),
        SameHeights first second →
          ofHeights precisionDigits first = ofHeights precisionDigits second ∧
            (ofHeights precisionDigits first).modalStep? =
              (ofHeights precisionDigits second).modalStep?) ∧
      ∀ (inference : StepInference) (layers others : List Layer),
        Relation.EqvGen Revises layers others →
          inference.infer layers = inference.infer others := by
  constructor
  · intro precisionDigits first second same
    have equal := ofHeights_eq_of_sameHeights same precisionDigits
    exact ⟨equal, congrArg modalStep? equal⟩
  · intro inference layers others revised
    have same := sameHeights_of_eqvGen revised
    unfold StepInference.infer ofLayers
    rw [ofHeights_eq_of_sameHeights same]

/-- A zero changes its sign and its place, and an unmeasured layer is added. -/
theorem StepHistogram.determined_by_heights_signedZero :
    let layers : List Layer := [⟨0.2, #[], #[]⟩, ⟨0.0, #[], #[]⟩]
    let others : List Layer := [⟨0.0 / 0.0, #[], #[]⟩, ⟨-0.0, #[], #[]⟩, ⟨0.2, #[], #[]⟩]
    Relation.EqvGen Revises layers others ∧
      (ofHeights 2 (layers.map Layer.z) = ofHeights 2 (others.map Layer.z) ∧
        (ofHeights 2 (layers.map Layer.z)).modalStep? =
          (ofHeights 2 (others.map Layer.z)).modalStep?) ∧
      ({} : StepInference).infer layers = ({} : StepInference).infer others := by
  intro layers others
  have revised : Relation.EqvGen Revises layers others := by
    have signed : Revises layers (⟨-0.0, #[], #[]⟩ :: layers) :=
      .revisited (.tail _ (.head _)) (by decide +kernel)
    have moved : Revises (⟨-0.0, #[], #[]⟩ :: layers)
        [⟨0.0, #[], #[]⟩, ⟨-0.0, #[], #[]⟩, ⟨0.2, #[], #[]⟩] :=
      .reordered (List.perm_append_singleton _ [_, _])
    have unsigned : Revises [⟨-0.0, #[], #[]⟩, ⟨0.2, #[], #[]⟩]
        [⟨0.0, #[], #[]⟩, ⟨-0.0, #[], #[]⟩, ⟨0.2, #[], #[]⟩] :=
      .revisited (.head _) (by decide +kernel)
    have unmeasured : Revises [⟨-0.0, #[], #[]⟩, ⟨0.2, #[], #[]⟩] others :=
      .unmeasured (by decide +kernel)
    exact
      (((Relation.EqvGen.rel _ _ signed).trans _ _ _ (.rel _ _ moved)).trans _ _ _
        (.symm _ _ (.rel _ _ unsigned))).trans _ _ _ (.rel _ _ unmeasured)
  exact ⟨revised, determined_by_heights.1 2 _ _ (sameHeights_of_eqvGen revised),
    determined_by_heights.2 {} layers others revised⟩

end LayerPlayback
