import Mathlib.Algebra.Ring.Nat
import LayerPlayback.Model
import LayerPlayback.Proofs.Model.Runs

namespace LayerPlayback

/-!
# Moves cover the segments of their layer

The moves of a filled layer follow each other without a gap from its first
segment to its last one.  Every segment therefore belongs to a move, and drawing
a number of segments from the start of the layer splits over its moves.
-/

/-- Counting up from a start adds the sum of the counts to it. -/
theorem foldl_add_eq
    {α : Type}
    (count : α → Nat)
    (items : List α)
    (start : Nat) :
    items.foldl (fun total item => total + count item) start =
      start + (items.map count).sum := by
  induction items generalizing start with
  | nil => rfl
  | cons item rest inductionHypothesis =>
      rw [List.foldl_cons, inductionHypothesis, List.map_cons, List.sum_cons, Nat.add_assoc]

namespace Move

/-- Moves that follow each other without a gap from one index to another. -/
def Consecutive : Nat → List Move → Nat → Prop
  | first, [], stop => first = stop
  | first, move :: rest, stop =>
      move.firstSegment = first ∧ Consecutive move.endSegment rest stop

/-- Moves that are made of runs follow each other without gaps. -/
theorem consecutive_ofRuns (first : Nat) (runs : List (List Segment)) :
    Consecutive first (ofRuns first runs) (first + runs.flatten.length) := by
  induction runs generalizing first with
  | nil => rfl
  | cons run rest inductionHypothesis =>
      cases run with
      | nil => exact inductionHypothesis first
      | cons segment more =>
          rw [List.flatten_cons, List.length_append, ← Nat.add_assoc]
          exact ⟨rfl, inductionHypothesis _⟩

theorem covers_iff {move : Move} {segment : Nat} :
    move.covers segment = true ↔
      move.firstSegment ≤ segment ∧ segment < move.endSegment := by
  simp [covers]

namespace Consecutive

variable {first stop : Nat} {moves : List Move}

theorem first_le_stop (consecutive : Consecutive first moves stop) : first ≤ stop := by
  induction moves generalizing first with
  | nil => exact Nat.le_of_eq consecutive
  | cons move rest inductionHypothesis =>
      obtain ⟨rfl, restConsecutive⟩ := consecutive
      calc
        move.firstSegment ≤ move.endSegment := Nat.le_add_right _ _
        _ ≤ stop := inductionHypothesis restConsecutive

/-- No move ends behind the last one. -/
theorem endSegment_le_stop
    (consecutive : Consecutive first moves stop)
    {move : Move}
    (member : move ∈ moves) :
    move.endSegment ≤ stop := by
  induction moves generalizing first with
  | nil => cases member
  | cons head rest inductionHypothesis =>
      obtain ⟨rfl, restConsecutive⟩ := consecutive
      rcases List.mem_cons.mp member with rfl | inRest
      · exact restConsecutive.first_le_stop
      · exact inductionHypothesis restConsecutive inRest

/-- Consecutive moves cover exactly the indices between their ends. -/
theorem exists_covers_iff
    (consecutive : Consecutive first moves stop)
    (segment : Nat) :
    (∃ move ∈ moves, move.covers segment = true) ↔ first ≤ segment ∧ segment < stop := by
  induction moves generalizing first with
  | nil =>
      obtain rfl : first = stop := consecutive
      simp
  | cons move rest inductionHypothesis =>
      obtain ⟨rfl, restConsecutive⟩ := consecutive
      have restFollows := restConsecutive.first_le_stop
      have moveNonnegative : move.firstSegment ≤ move.endSegment := Nat.le_add_right _ _
      rw [List.exists_mem_cons_iff, inductionHypothesis restConsecutive, covers_iff]
      omega

/--
Drawing the segments below an index draws the whole of the moves before it, a
part of the move that covers it, and nothing of the moves after it.
-/
theorem sum_drawn
    (consecutive : Consecutive first moves stop)
    (revealed : Nat) :
    (moves.map fun move => min (revealed - move.firstSegment) move.segmentCount).sum =
      min (revealed - first) (stop - first) := by
  induction moves generalizing first with
  | nil =>
      obtain rfl : first = stop := consecutive
      simp
  | cons move rest inductionHypothesis =>
      obtain ⟨rfl, restConsecutive⟩ := consecutive
      have restFollows := restConsecutive.first_le_stop
      rw [List.map_cons, List.sum_cons, inductionHypothesis restConsecutive]
      unfold endSegment at restFollows ⊢
      omega

/-- Together the moves have all the segments between the first and the last one. -/
theorem sum_segmentCount (consecutive : Consecutive first moves stop) :
    (moves.map segmentCount).sum = stop - first := by
  induction moves generalizing first with
  | nil =>
      obtain rfl : first = stop := consecutive
      simp
  | cons move rest inductionHypothesis =>
      obtain ⟨rfl, restConsecutive⟩ := consecutive
      have restFollows := restConsecutive.first_le_stop
      rw [List.map_cons, List.sum_cons, inductionHypothesis restConsecutive]
      unfold endSegment at restFollows ⊢
      omega

end Consecutive

end Move

namespace Layer

variable {layer : Layer}

/-- The moves of a filled layer lead from its first segment to its last one. -/
theorem Filled.consecutive_moves (filled : layer.Filled) :
    Move.Consecutive 0 layer.moves.toList layer.pointCount := by
  have covered := Move.consecutive_ofRuns 0 (Segment.kindRuns layer.segments.toList)
  rw [Segment.flatten_kindRuns, Nat.zero_add] at covered
  rw [filled.moves_eq_runMoves]
  exact covered

/-- The move that is found for a segment covers it, and stands where it is said to. -/
theorem covers_of_covering?
    {segment moveIndex : Nat}
    {move : Move}
    (found : layer.covering? segment = some (move, moveIndex)) :
    layer.moves[moveIndex]? = some move ∧ move.covers segment = true := by
  unfold covering? at found
  have isAt := List.mem_zipIdx_iff_getElem?.mp (List.mem_of_find?_eq_some found)
  have covers := List.find?_eq_some_iff_append.mp found
  rw [Array.getElem?_toList] at isAt
  exact ⟨isAt, covers.1⟩

/-- In a filled layer a covering move is found for its segments and no others. -/
theorem Filled.isSome_covering?_iff (filled : layer.Filled) (segment : Nat) :
    (layer.covering? segment).isSome = true ↔ segment < layer.pointCount := by
  have within := filled.consecutive_moves.exists_covers_iff segment
  rw [covering?, List.find?_isSome]
  constructor
  · rintro ⟨⟨move, moveIndex⟩, member, covers⟩
    exact (within.mp ⟨move, List.fst_mem_of_mem_zipIdx member, covers⟩).2
  · intro inLayer
    obtain ⟨move, member, covers⟩ := within.mpr ⟨Nat.zero_le _, inLayer⟩
    obtain ⟨moveIndex, isAt⟩ := List.mem_iff_getElem?.mp member
    exact ⟨(move, moveIndex), List.mem_zipIdx_iff_getElem?.mpr isAt, covers⟩

end Layer

/-- Counting segments layer by layer counts all of them. -/
theorem Model.segmentCount_eq_length (model : Model) :
    model.segmentCount = model.segments.length := by
  rw [segmentCount, foldl_add_eq, Nat.zero_add, segments, List.length_flatMap]
  rfl

end LayerPlayback
