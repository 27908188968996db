import LayerPlayback.Proofs.Model.Covering

namespace LayerPlayback

/-!
# Moves partition their layer

The moves of a layer that is filled segment by segment share out its segments.  Each move
stands for one maximal run, none is empty or reaches beyond the layer, and together they
are the segments of the layer again, each of them once and in order.
-/

namespace Move

/-- The segments at the place of a move. -/
def slice (move : Move) (segments : List Segment) : List Segment :=
  (segments.drop move.firstSegment).take move.segmentCount

/-- The indices of the segments of a move. -/
def indices (move : Move) : List Nat :=
  List.range' move.firstSegment move.segmentCount

/-- A move stands for the run that is found at its place. -/
structure StandsFor (segments : List Segment) (move : Move) (run : List Segment) : Prop where
  slice : move.slice segments = run
  count : move.segmentCount = run.length
  kind : ∀ first ∈ run.head?, move.kind = first.kind

/-- The moves of runs stand for them, one by one, also behind other segments. -/
theorem forall₂_ofRuns
    {before : List Segment}
    {runs : List (List Segment)}
    (nonempty : ∀ run ∈ runs, run ≠ []) :
    List.Forall₂ (StandsFor (before ++ runs.flatten)) (ofRuns before.length runs) runs := by
  induction runs generalizing before with
  | nil => exact .nil
  | cons run rest inductionHypothesis =>
      obtain ⟨runNonempty, restNonempty⟩ := List.forall_mem_cons.mp nonempty
      obtain ⟨first, more, rfl⟩ := List.exists_cons_of_ne_nil runNonempty
      refine .cons ⟨by simp [Move.slice], rfl, by simp⟩ ?_
      have behind := @inductionHypothesis (before ++ first :: more) restNonempty
      simpa using behind

/-- Runs whose kinds alternate make moves whose kinds alternate. -/
theorem isChain_kind_ofRuns
    {runs : List (List Segment)}
    (nonempty : ∀ run ∈ runs, run ≠ [])
    (alternate : runs.IsChain fun earlier later =>
      ∀ first ∈ earlier.head?, ∀ next ∈ later.head?, first.kind ≠ next.kind)
    (start : Nat) :
    (ofRuns start runs).IsChain fun earlier later => earlier.kind ≠ later.kind := by
  induction runs generalizing start with
  | nil => exact .nil
  | cons run rest inductionHypothesis =>
      obtain ⟨runNonempty, restNonempty⟩ := List.forall_mem_cons.mp nonempty
      obtain ⟨first, more, rfl⟩ := List.exists_cons_of_ne_nil runNonempty
      obtain ⟨apart, restAlternate⟩ := List.isChain_cons.mp alternate
      refine List.isChain_cons.mpr ⟨?_, inductionHypothesis restNonempty restAlternate _⟩
      cases rest with
      | nil => exact fun next isNext => absurd isNext (Option.not_mem_none next)
      | cons following _ =>
          obtain ⟨followingNonempty, -⟩ := List.forall_mem_cons.mp restNonempty
          obtain ⟨next, others, rfl⟩ := List.exists_cons_of_ne_nil followingNonempty
          intro move isNext
          obtain rfl := Option.some.inj isNext
          exact apart _ rfl first rfl next rfl

/-- Consecutive moves have every index between their ends once and in order. -/
theorem Consecutive.flatMap_indices
    {first stop : Nat}
    {moves : List Move}
    (consecutive : Consecutive first moves stop) :
    moves.flatMap indices = List.range' first (stop - first) := by
  induction moves generalizing first with
  | nil =>
      obtain rfl : first = stop := consecutive
      simp
  | cons move rest inductionHypothesis =>
      obtain ⟨rfl, restConsecutive⟩ := consecutive
      have restFollows := restConsecutive.first_le_stop
      rw [List.flatMap_cons, inductionHypothesis restConsecutive, indices, endSegment]
      unfold endSegment at restFollows
      rw [List.range'_append_1]
      congr 1
      omega

end Move

namespace Segment

theorem ne_nil_of_mem_kindRuns {segments : List Segment} :
    ∀ run ∈ kindRuns segments, run ≠ [] :=
  fun _ isRun => List.ne_nil_of_mem_splitBy isRun

/-- A maximal run ends where the kind changes, so the first kinds of runs alternate. -/
theorem isChain_kindRuns (segments : List Segment) :
    (kindRuns segments).IsChain fun earlier later =>
      ∀ first ∈ earlier.head?, ∀ next ∈ later.head?, first.kind ≠ next.kind := by
  refine (List.isChain_getLast_head_splitBy _ segments).imp_of_mem_imp ?_
  rintro earlier later isRun _ ⟨earlierNonempty, laterNonempty, breaks⟩ first isFirst next isNext
  obtain ⟨more, rfl⟩ := List.head?_eq_some_iff.mp isFirst
  obtain ⟨others, rfl⟩ := List.head?_eq_some_iff.mp isNext
  have lastKind := kind_eq_of_mem_kindRuns isRun (List.getLast_mem earlierNonempty)
  rw [← lastKind]
  exact of_decide_eq_false breaks

end Segment

namespace Layer

variable {layer : Layer}

theorem moveSegments_eq_slice
    {index : Nat}
    {move : Move}
    (isAt : layer.moves[index]? = some move) :
    layer.moveSegments index = move.slice layer.segments.toList := by
  rw [moveSegments, isAt, Move.slice]

/-- How the moves of a layer share out its segments. -/
structure IsPartitioned (layer : Layer) : Prop where
  nonempty : ∀ move ∈ layer.moves, 0 < move.segmentCount
  /-- From the first segment to the last one, a move starts where the one before it ends. -/
  consecutive : Move.Consecutive 0 layer.moves.toList layer.pointCount
  /-- Every segment is in a move, and in one only. -/
  indices : layer.moves.toList.flatMap Move.indices = List.range layer.pointCount
  kinds :
    ∀ move ∈ layer.moves, ∀ index, move.covers index = true →
      ∃ segment, layer.segments[index]? = some segment ∧ segment.kind = move.kind
  /-- Runs are maximal: next to each other, moves are of different kinds. -/
  maximal : layer.moves.toList.IsChain fun earlier later => earlier.kind ≠ later.kind
  /-- The segments of a move are found within the layer, all of them. -/
  inRange :
    ∀ index move, layer.moves[index]? = some move →
      move.endSegment ≤ layer.pointCount ∧
        (layer.moveSegments index).length = move.segmentCount
  joined :
    (List.range layer.moves.size).flatMap layer.moveSegments = layer.segments.toList

/-- All moves together have the slices of the moves one by one. -/
theorem map_moveSegments (layer : Layer) :
    (List.range layer.moves.size).map layer.moveSegments =
      layer.moves.toList.map fun move => move.slice layer.segments.toList := by
  refine List.ext_getElem (by simp) fun index inRange _ => ?_
  have isMove : index < layer.moves.size := by simpa using inRange
  simp [moveSegments_eq_slice (Array.getElem?_eq_getElem isMove)]

namespace Filled

variable (filled : layer.Filled)

include filled

/-- The moves of a filled layer stand for its maximal runs, one by one. -/
theorem forall₂_kindRuns :
    List.Forall₂ (Move.StandsFor layer.segments.toList) layer.moves.toList
      (Segment.kindRuns layer.segments.toList) := by
  have standFor :=
    @Move.forall₂_ofRuns [] _ (@Segment.ne_nil_of_mem_kindRuns layer.segments.toList)
  rw [List.nil_append, Segment.flatten_kindRuns] at standFor
  rw [filled.moves_eq_runMoves]
  exact standFor

theorem exists_run_of_mem {move : Move} (member : move ∈ layer.moves) :
    ∃ run ∈ Segment.kindRuns layer.segments.toList,
      move.StandsFor layer.segments.toList run := by
  have standFor := filled.forall₂_kindRuns
  obtain ⟨index, inRange, rfl⟩ := List.mem_iff_getElem.mp (Array.mem_toList_iff.mpr member)
  exact ⟨_, List.getElem_mem _, standFor.get inRange (standFor.length_eq ▸ inRange)⟩

/-- A segment that a move covers is in its run. -/
theorem exists_segment_of_covers
    {move : Move}
    (member : move ∈ layer.moves)
    {index : Nat}
    (covers : move.covers index = true) :
    ∃ segment, layer.segments[index]? = some segment ∧ segment.kind = move.kind := by
  obtain ⟨run, isRun, standsFor⟩ := filled.exists_run_of_mem member
  obtain ⟨first, more, rfl⟩ := List.exists_cons_of_ne_nil (List.ne_nil_of_mem_splitBy isRun)
  obtain ⟨atLeast, below⟩ := Move.covers_iff.mp covers
  obtain ⟨offset, rfl⟩ := Nat.exists_eq_add_of_le atLeast
  have inMove : offset < move.segmentCount := Nat.lt_of_add_lt_add_left below
  have inRun : offset < (first :: more).length := standsFor.count ▸ inMove
  have found : (move.slice layer.segments.toList)[offset]? = some (first :: more)[offset] := by
    rw [standsFor.slice, List.getElem?_eq_getElem inRun]
  rw [Move.slice, List.getElem?_take_of_lt inMove, List.getElem?_drop, Array.getElem?_toList]
    at found
  refine ⟨_, found, ?_⟩
  rw [standsFor.kind first rfl]
  exact Segment.kind_eq_of_mem_kindRuns isRun (List.getElem_mem inRun)

theorem isPartitioned : layer.IsPartitioned where
  nonempty := by
    intro move member
    obtain ⟨run, isRun, standsFor⟩ := filled.exists_run_of_mem member
    rw [standsFor.count, List.length_pos_iff]
    exact Segment.ne_nil_of_mem_kindRuns run isRun
  consecutive := filled.consecutive_moves
  indices := by
    rw [filled.consecutive_moves.flatMap_indices, Nat.sub_zero, List.range_eq_range']
  kinds := fun _ member _ covers => filled.exists_segment_of_covers member covers
  maximal := by
    rw [filled.moves_eq_runMoves]
    exact Move.isChain_kind_ofRuns Segment.ne_nil_of_mem_kindRuns (Segment.isChain_kindRuns _) 0
  inRange := by
    intro index move isAt
    have member := Array.mem_of_getElem? isAt
    obtain ⟨run, _, standsFor⟩ := filled.exists_run_of_mem member
    rw [moveSegments_eq_slice isAt, standsFor.slice, standsFor.count]
    exact ⟨filled.consecutive_moves.endSegment_le_stop (Array.mem_toList_iff.mpr member), rfl⟩
  joined := by
    have slices :
        List.Forall₂ (fun move run => move.slice layer.segments.toList = run)
          layer.moves.toList (Segment.kindRuns layer.segments.toList) :=
      filled.forall₂_kindRuns.imp fun _ _ standsFor => standsFor.slice
    rw [← List.forall₂_map_left_iff, List.forall₂_eq_eq_eq] at slices
    rw [List.flatMap_def, map_moveSegments, slices, Segment.flatten_kindRuns]

end Filled

/-- However a layer is filled, its moves partition its segments into maximal runs. -/
theorem isPartitioned_ofSegments (z : Float) (segments : List Segment) :
    (ofSegments z segments).IsPartitioned :=
  ((Filled.new z).foldl_push segments).isPartitioned

end Layer

end LayerPlayback
