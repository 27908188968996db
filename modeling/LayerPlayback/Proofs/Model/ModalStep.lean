import LayerPlayback.Model.StepHistogram
import LayerPlayback.Proofs.Number.Integers

namespace LayerPlayback

/-!
# The most frequent step is the mode of the differences

Two passes find the most frequent step.  The first one counts every difference in the
bucket that was opened when it was first seen, which gives the tally of the differences:
the distinct ones in the order first seen, each with the number of its occurrences.  The
second one goes over the tally and changes its mind only for a greater count, so that it
ends with the earliest difference that none exceeds.
-/

/-! ## Distinct items -/

/-- What is kept of repeated items commutes with an injective map. -/
theorem eraseDups_map
    {α β : Type}
    [DecidableEq α]
    [DecidableEq β]
    {f : α → β}
    (injective : f.Injective)
    (items : List α) :
    (items.map f).eraseDups = items.eraseDups.map f := by
  induction length : items.length using Nat.strongRecOn generalizing items with
  | ind _ inductionHypothesis =>
      subst length
      cases items with
      | nil => rfl
      | cons first rest =>
          have others :
              (rest.map f).filter (fun item => !item == f first) =
                (rest.filter fun item => !item == first).map f := by
            rw [List.filter_map]
            congr 1
            refine List.filter_congr fun item _ => ?_
            simp [injective.eq_iff]
          rw [List.map_cons, List.eraseDups_cons, List.eraseDups_cons, others, List.map_cons,
            inductionHypothesis _ (Nat.lt_succ_of_le (List.length_filter_le _ _)) _ rfl]

/-! ## Earliest modes -/

/-- An item that no item exceeds in weight, and that none before it reaches. -/
def IsEarliestMode {α : Type} (weight : α → Nat) (items : List α) (mode : α) : Prop :=
  ∃ earlier later,
    items = earlier ++ mode :: later ∧
      (∀ item ∈ earlier, weight item < weight mode) ∧
      ∀ item ∈ later, weight item ≤ weight mode

namespace IsEarliestMode

variable {α β : Type} {weight : α → Nat} {items : List α} {mode : α}

theorem mem (isMode : IsEarliestMode weight items mode) : mode ∈ items := by
  obtain ⟨earlier, later, rfl, _⟩ := isMode
  exact List.mem_append_right _ List.mem_cons_self

theorem weight_le
    (isMode : IsEarliestMode weight items mode)
    {item : α}
    (member : item ∈ items) :
    weight item ≤ weight mode := by
  obtain ⟨earlier, later, rfl, below, atMost⟩ := isMode
  rcases List.mem_append.mp member with isEarlier | isLater
  · exact (below item isEarlier).le
  · rcases List.mem_cons.mp isLater with rfl | isLater
    · exact le_rfl
    · exact atMost item isLater

/-- One more item that does not exceed the mode changes nothing. -/
theorem concat
    (isMode : IsEarliestMode weight items mode)
    {item : α}
    (notMore : weight item ≤ weight mode) :
    IsEarliestMode weight (items ++ [item]) mode := by
  obtain ⟨earlier, later, rfl, below, atMost⟩ := isMode
  refine ⟨earlier, later ++ [item], List.append_assoc _ _ _, below, ?_⟩
  exact List.forall_mem_append.mpr ⟨atMost, List.forall_mem_singleton.mpr notMore⟩

/-- One more item that exceeds the mode takes its place. -/
theorem concat_of_lt
    (isMode : IsEarliestMode weight items mode)
    {item : α}
    (more : weight mode < weight item) :
    IsEarliestMode weight (items ++ [item]) item :=
  ⟨items, [], rfl, fun _ member => (isMode.weight_le member).trans_lt more,
    fun _ member => (List.not_mem_nil member).elim⟩

theorem singleton (weight : α → Nat) (item : α) : IsEarliestMode weight [item] item :=
  ⟨[], [], rfl, fun _ member => (List.not_mem_nil member).elim,
    fun _ member => (List.not_mem_nil member).elim⟩

theorem map
    {f : β → α}
    {items : List β}
    {mode : β}
    (isMode : IsEarliestMode (fun item => weight (f item)) items mode) :
    IsEarliestMode weight (items.map f) (f mode) := by
  obtain ⟨earlier, later, rfl, below, atMost⟩ := isMode
  exact ⟨earlier.map f, later.map f, List.map_append, List.forall_mem_map.mpr below,
    List.forall_mem_map.mpr atMost⟩

/-- A mode of images is the image of a mode. -/
theorem exists_of_map
    {f : β → α}
    {items : List β}
    (isMode : IsEarliestMode weight (items.map f) mode) :
    ∃ item, f item = mode ∧ IsEarliestMode (fun item => weight (f item)) items item := by
  obtain ⟨earlier, later, parts, below, atMost⟩ := isMode
  obtain ⟨earlierItems, others, rfl, rfl, cut⟩ := List.map_eq_append_iff.mp parts
  obtain ⟨item, laterItems, rfl, rfl, rfl⟩ := List.map_eq_cons_iff.mp cut
  exact ⟨item, rfl, earlierItems, laterItems, rfl, List.forall_mem_map.mp below,
    List.forall_mem_map.mp atMost⟩

end IsEarliestMode

namespace StepHistogram

/-! ## Sorted heights -/

/-- Sorting keeps all finite heights, repetitions included. -/
theorem sortedHeights_perm (heights : List Float) :
    (sortedHeights heights).Perm (heights.filter Float.isFinite) :=
  List.mergeSort_perm _ _

theorem isFinite_of_mem_sortedHeights {heights : List Float} {height : Float}
    (member : height ∈ sortedHeights heights) :
    height.isFinite = true :=
  List.of_mem_filter ((sortedHeights_perm heights).mem_iff.mp member)

/-- The order of the keys sorts the heights by their values. -/
theorem pairwise_sortedHeights (heights : List Float) :
    (sortedHeights heights).Pairwise (· ≤ ·) := by
  have byKey :
      (sortedHeights heights).Pairwise fun first second =>
        decide (Binary64.orderKey first ≤ Binary64.orderKey second) = true := by
    refine List.pairwise_mergeSort ?_ ?_ _
    · intro first second third below above
      exact decide_eq_true ((of_decide_eq_true below).trans (of_decide_eq_true above))
    · intro first second
      exact Bool.or_eq_true_iff.mpr
        ((le_total _ _).imp (fun below => decide_eq_true below) fun above => decide_eq_true above)
  refine byKey.imp_of_mem ?_
  intro first second firstMember secondMember ordered
  have firstFinite := isFinite_of_mem_sortedHeights firstMember
  have secondFinite := isFinite_of_mem_sortedHeights secondMember
  exact Binary64.le_iff.mpr
    ⟨Binary64.isNaN_of_isFinite firstFinite, Binary64.isNaN_of_isFinite secondFinite,
      Binary64.value_le_of_orderKey_le firstFinite secondFinite (of_decide_eq_true ordered)⟩

/-! ## Counting -/

/-- The distinct differences in the order first seen, each with the number of its occurrences. -/
def tally (differences : List Nat) : List (Nat × Nat) :=
  differences.eraseDups.map fun difference => (difference, differences.count difference)

/-- The bucket in front counts its own difference, and the buckets behind it the others. -/
theorem foldl_count_cons
    (known occurrences : Nat)
    (buckets : List (Nat × Nat))
    (differences : List Nat) :
    differences.foldl (fun buckets difference => count difference buckets)
        ((known, occurrences) :: buckets) =
      (known, differences.count known + occurrences) ::
        (differences.filter fun difference => !difference == known).foldl
          (fun buckets difference => count difference buckets) buckets := by
  induction differences generalizing occurrences buckets with
  | nil => rw [List.count_nil, Nat.zero_add]; rfl
  | cons difference rest inductionHypothesis =>
      rw [List.foldl_cons, count]
      by_cases same : known = difference
      · subst same
        rw [if_pos rfl, inductionHypothesis, List.count_cons_self, Nat.add_right_comm,
          Nat.add_assoc, List.filter_cons_of_neg (by simp)]
      · rw [if_neg same, inductionHypothesis, List.count_cons_of_ne (Ne.symm same),
          List.filter_cons_of_pos (by simpa using Ne.symm same), List.foldl_cons]

/-- Counting differences one after the other gives their tally. -/
theorem foldl_count (differences : List Nat) :
    differences.foldl (fun buckets difference => count difference buckets) [] =
      tally differences := by
  induction length : differences.length using Nat.strongRecOn generalizing differences with
  | ind _ inductionHypothesis =>
      subst length
      cases differences with
      | nil => rfl
      | cons first rest =>
          have others :=
            inductionHypothesis _
              (Nat.lt_succ_of_le
                (List.length_filter_le (fun difference => !difference == first) rest))
              _ rfl
          rw [List.foldl_cons, count, foldl_count_cons, others, tally, tally, List.eraseDups_cons,
            List.map_cons, List.count_cons_self]
          congr 1
          refine List.map_congr_left fun difference member => ?_
          obtain ⟨_, other⟩ := List.mem_filter.mp (List.mem_eraseDups.mp member)
          have different : difference ≠ first := by simpa using other
          rw [List.count_cons_of_ne different.symm,
            List.count_filter (p := fun difference => !difference == first) other]

/-- The buckets of a histogram are the tally of the differences between its heights. -/
theorem buckets_ofHeights (precisionDigits : UInt32) (heights : List Float) :
    (ofHeights precisionDigits heights).buckets =
      tally (differences (scaleOf precisionDigits) heights) :=
  foldl_count _

/-! ## The most frequent bucket -/

/-- The scan for the most frequent bucket ends with the earliest one that none exceeds. -/
theorem foldl_moreFrequent {buckets : List (Nat × Nat)} (nonempty : buckets ≠ []) :
    ∃ best,
      buckets.foldl moreFrequent none = some best ∧ IsEarliestMode Prod.snd buckets best := by
  induction buckets using List.reverseRecOn with
  | nil => exact (nonempty rfl).elim
  | append_singleton seen bucket inductionHypothesis =>
      rw [List.foldl_append]
      by_cases first : seen = []
      · subst first
        exact ⟨bucket, rfl, .singleton _ _⟩
      · obtain ⟨best, found, isMode⟩ := inductionHypothesis first
        rw [found]
        by_cases more : best.2 < bucket.2
        · exact ⟨bucket, if_pos more, isMode.concat_of_lt more⟩
        · exact ⟨best, if_neg more, isMode.concat (not_lt.mp more)⟩

/-- The most frequent bucket is an earliest mode of the counts. -/
theorem isEarliestMode_modalBucket?
    {histogram : StepHistogram}
    {bucket : Nat × Nat}
    (modal : histogram.modalBucket? = some bucket) :
    IsEarliestMode Prod.snd histogram.buckets bucket := by
  have nonempty : histogram.buckets ≠ [] := by
    intro empty
    rw [modalBucket?, empty] at modal
    cases modal
  obtain ⟨best, found, isMode⟩ := foldl_moreFrequent nonempty
  cases found.symm.trans modal
  exact isMode

/-! ## The mode of the rounded differences -/

/-- The differences between neighbouring heights in units, rounded to signed integers. -/
def roundedDifferences (scale : Float) (heights : List Float) : List Int :=
  List.zipWith (fun below above => Binary64.nearestInt64 ((above - below) * scale))
    heights heights.tail

/-- The distinct positive differences, in the order of their first occurrences. -/
def distinctRises (rounded : List Int) : List Int :=
  (rounded.filter fun difference => 0 < difference).eraseDups

/-- What a histogram says of rounded differences. -/
structure FindsMode (histogram : StepHistogram) (rounded : List Int) : Prop where
  /-- The buckets are the distinct positive differences with their numbers of occurrences. -/
  buckets :
    (histogram.buckets.map fun bucket => ((bucket.1 : Int), bucket.2)) =
      (distinctRises rounded).map fun difference => (difference, rounded.count difference)
  /-- If some difference is positive, the step is the earliest most frequent one. -/
  modal :
    (∃ difference ∈ rounded, 0 < difference) →
      ∃ mode,
        IsEarliestMode rounded.count (distinctRises rounded) mode ∧
          histogram.modalStep? = some (Float.ofInt mode / histogram.scale)
  /-- There is no step exactly when no difference is positive. -/
  absent : histogram.modalStep? = none ↔ ∀ difference ∈ rounded, difference ≤ 0
  /-- Without a step, the fallback takes its place. -/
  fallback : histogram.modalStep? = none → ∀ fallback, histogram.stepOr fallback = fallback

/-- What is positive is not changed by cutting off at zero. -/
theorem map_filter_toNat (rounded : List Int) :
    ((rounded.map Int.toNat).filter fun difference => 0 < difference).map Nat.cast =
      rounded.filter fun difference => 0 < difference := by
  induction rounded with
  | nil => rfl
  | cons first rest inductionHypothesis =>
      by_cases positive : 0 < first
      · simp [positive, inductionHypothesis, positive.le]
      · simp [positive, inductionHypothesis]

/-- The counted differences are the positive ones among the rounded differences. -/
theorem map_differences (scale : Float) (heights : List Float) :
    (differences scale heights).map Nat.cast =
      (roundedDifferences scale (sortedHeights heights)).filter fun difference =>
        0 < difference := by
  rw [← map_filter_toNat, roundedDifferences, List.map_zipWith]
  rfl

/-- The distinct rises are the distinct counted differences as signed integers. -/
theorem distinctRises_roundedDifferences (scale : Float) (heights : List Float) :
    distinctRises (roundedDifferences scale (sortedHeights heights)) =
      (differences scale heights).eraseDups.map Nat.cast := by
  rw [distinctRises, ← map_differences, eraseDups_map Nat.cast_injective]

/-- Nothing but its own occurrences is counted for a rise. -/
theorem count_roundedDifferences
    {scale : Float}
    {heights : List Float}
    {difference : Nat}
    (member : difference ∈ differences scale heights) :
    (roundedDifferences scale (sortedHeights heights)).count (difference : Int) =
      (differences scale heights).count difference := by
  have counted := List.mem_map_of_mem (f := (Nat.cast : Nat → Int)) member
  rw [map_differences] at counted
  rw [← List.count_map_of_injective _ (Nat.cast : Nat → Int) Nat.cast_injective, map_differences,
    List.count_filter (p := fun difference => decide (0 < difference))
      (List.mem_filter.mp counted).2]

/-- A histogram has no most frequent step exactly when it counts nothing. -/
theorem modalStep?_eq_none_iff {histogram : StepHistogram} :
    histogram.modalStep? = none ↔ histogram.buckets = [] := by
  rw [modalStep?, Option.map_eq_none_iff]
  constructor
  · intro none
    by_contra nonempty
    obtain ⟨best, found, _⟩ := foldl_moreFrequent nonempty
    cases none.symm.trans found
  · intro empty
    rw [modalBucket?, empty]
    rfl

section OfHeights

variable (precisionDigits : UInt32) (heights : List Float)

/-- The units of a histogram are the decimal places asked for, whatever is counted. -/
theorem scale_ofHeights : (ofHeights precisionDigits heights).scale = scaleOf precisionDigits :=
  rfl

/-- As signed integers, the buckets are the distinct rises in the order first seen. -/
theorem map_buckets_ofHeights :
    let rounded := roundedDifferences (scaleOf precisionDigits) (sortedHeights heights)
    ((ofHeights precisionDigits heights).buckets.map fun bucket => ((bucket.1 : Int), bucket.2)) =
      (distinctRises rounded).map fun difference => (difference, rounded.count difference) := by
  intro rounded
  rw [buckets_ofHeights, tally, distinctRises_roundedDifferences, List.map_map, List.map_map]
  refine List.map_congr_left fun difference member => ?_
  exact Prod.ext rfl (count_roundedDifferences (List.mem_eraseDups.mp member)).symm

/-- Nothing is counted exactly when nothing rises. -/
theorem buckets_ofHeights_eq_nil_iff :
    (ofHeights precisionDigits heights).buckets = [] ↔
      ∀ difference ∈ roundedDifferences (scaleOf precisionDigits) (sortedHeights heights),
        difference ≤ 0 := by
  rw [← List.map_eq_nil_iff, map_buckets_ofHeights, List.map_eq_nil_iff,
    List.eq_nil_iff_forall_not_mem]
  simp only [distinctRises, List.mem_eraseDups, List.mem_filter, decide_eq_true_iff, not_and,
    not_lt]

/-- Once something is counted, the step is the earliest mode of the rounded differences. -/
theorem modalStep?_ofHeights
    (nonempty : (ofHeights precisionDigits heights).buckets ≠ []) :
    let rounded := roundedDifferences (scaleOf precisionDigits) (sortedHeights heights)
    ∃ mode,
      IsEarliestMode rounded.count (distinctRises rounded) mode ∧
        (ofHeights precisionDigits heights).modalStep? =
          some (Float.ofInt mode / scaleOf precisionDigits) := by
  obtain ⟨best, found, isMode⟩ := foldl_moreFrequent nonempty
  have isSignedMode :
      IsEarliestMode Prod.snd
        ((ofHeights precisionDigits heights).buckets.map fun bucket =>
          ((bucket.1 : Int), bucket.2))
        ((best.1 : Int), best.2) :=
    .map (f := fun bucket : Nat × Nat => ((bucket.1 : Int), bucket.2)) isMode
  rw [map_buckets_ofHeights] at isSignedMode
  obtain ⟨mode, same, isMode⟩ := isSignedMode.exists_of_map
  obtain ⟨rfl, _⟩ := Prod.mk.inj same
  exact ⟨best.1, isMode, congrArg (Option.map _) found⟩

/-- The step of a histogram is the mode of the differences between neighbouring heights. -/
theorem findsMode_ofHeights :
    let sorted := sortedHeights heights
    sorted.Perm (heights.filter Float.isFinite) ∧
      sorted.Pairwise (· ≤ ·) ∧
      (ofHeights precisionDigits heights).FindsMode
        (roundedDifferences (scaleOf precisionDigits) sorted) := by
  intro sorted
  have nothing := buckets_ofHeights_eq_nil_iff precisionDigits heights
  refine ⟨sortedHeights_perm heights, pairwise_sortedHeights heights, ?_⟩
  constructor
  case buckets => exact map_buckets_ofHeights precisionDigits heights
  case modal =>
    rintro ⟨difference, member, positive⟩
    rw [scale_ofHeights]
    refine modalStep?_ofHeights precisionDigits heights fun empty => ?_
    exact positive.not_ge (nothing.mp empty difference member)
  case absent => exact modalStep?_eq_none_iff.trans nothing
  case fallback =>
    intro absent fallback
    rw [stepOr, absent]
    rfl

end OfHeights

end StepHistogram

end LayerPlayback
