import Mathlib.Data.List.SplitBy
import LayerPlayback.Model.Layer

namespace LayerPlayback

/-!
# The moves of a layer are its maximal runs

A layer that is filled segment by segment extends its last move or starts a new
one.  The moves that come out are those of the maximal runs of segments of one
kind.  In particular they follow each other without a gap from the first segment
to the last, so every segment belongs to exactly one of them.
-/

/--
When the last of a list's groups goes on with one more element, the element joins
that group and the others stay.
-/
theorem splitBy_concat_of_rel
    {α : Type}
    {related : α → α → Bool}
    {items : List α}
    {groups : List (List α)}
    {last : List α}
    {item : α}
    (split : items.splitBy related = groups ++ [last])
    (nonempty : last ≠ [])
    (continues : related (last.getLast nonempty) item = true) :
    (items ++ [item]).splitBy related = groups ++ [last ++ [item]] := by
  rw [List.splitBy_eq_iff] at split ⊢
  obtain ⟨joined, nonemptyGroups, chains, breaks⟩ := split
  rw [List.isChain_append] at breaks
  refine ⟨?_, ?_, ?_, ?_⟩
  · simp [joined]
  · simp_all
  · intro group member
    rcases List.mem_append.mp member with earlier | isLast
    · exact chains group (List.mem_append_left _ earlier)
    · obtain rfl := List.mem_singleton.mp isLast
      refine List.isChain_append.mpr ⟨chains last (by simp), .singleton _, ?_⟩
      intro before isBefore after isAfter
      rw [List.getLast?_eq_some_getLast nonempty] at isBefore
      simp_all
  · refine List.isChain_append.mpr ⟨breaks.1, .singleton _, ?_⟩
    intro before isBefore after isAfter
    obtain ⟨beforeNonempty, _, broken⟩ := breaks.2.2 before isBefore last (by simp)
    obtain rfl : last ++ [item] = after := by simpa using isAfter
    exact ⟨beforeNonempty, by simp, by rw [List.head_append_of_ne_nil nonempty]; exact broken⟩

/-- The maximal runs of consecutive segments of one kind. -/
def Segment.kindRuns (segments : List Segment) : List (List Segment) :=
  segments.splitBy fun earlier later => earlier.kind = later.kind

namespace Move

/-- The moves of runs that follow each other from an index on. -/
def ofRuns : Nat → List (List Segment) → List Move
  | _, [] => []
  | first, [] :: rest => ofRuns first rest
  | first, (segment :: more) :: rest =>
      ⟨segment.kind, first, more.length + 1⟩ :: ofRuns (first + (more.length + 1)) rest

theorem ofRuns_append (first : Nat) (earlier later : List (List Segment)) :
    ofRuns first (earlier ++ later) =
      ofRuns first earlier ++ ofRuns (first + earlier.flatten.length) later := by
  induction earlier generalizing first with
  | nil => rfl
  | cons run rest inductionHypothesis =>
      cases run with
      | nil => simp [ofRuns, inductionHypothesis]
      | cons segment more =>
          simp [ofRuns, inductionHypothesis, Nat.add_assoc, Nat.add_comm, Nat.add_left_comm]

end Move

namespace Segment

variable {segments more : List Segment} {groups : List (List Segment)} {first segment : Segment}

/-- All segments of a run are of the kind of its first one. -/
theorem kind_eq_of_mem_kindRuns
    (isRun : first :: more ∈ kindRuns segments)
    (member : segment ∈ first :: more) :
    segment.kind = first.kind := by
  have chain := List.isChain_of_mem_splitBy isRun
  simp only [decide_eq_true_eq] at chain
  have kinds := List.isChain_map_of_isChain kind (fun _ _ same => same) chain
  have alike := List.isChain_eq_iff_eq_replicate.mp kinds first.kind (by simp)
  exact List.eq_of_mem_replicate (alike ▸ List.mem_map_of_mem member)

theorem kind_getLast_of_kindRuns_eq
    (split : kindRuns segments = groups ++ [first :: more]) :
    ((first :: more).getLast (List.cons_ne_nil _ _)).kind = first.kind := by
  have isRun : first :: more ∈ kindRuns segments := by simp [split]
  exact kind_eq_of_mem_kindRuns isRun (List.getLast_mem _)

theorem flatten_kindRuns (segments : List Segment) : (kindRuns segments).flatten = segments :=
  List.flatten_splitBy _ segments

/-- Segments make no run when there are none, and a last one with a first segment otherwise. -/
theorem eq_nil_or_kindRuns_eq_concat (segments : List Segment) :
    segments = [] ∨ ∃ groups first more, kindRuns segments = groups ++ [first :: more] := by
  rcases List.eq_nil_or_concat (kindRuns segments) with none | ⟨groups, last, split⟩
  · exact .inl (by rw [← flatten_kindRuns segments, none, List.flatten_nil])
  · rw [List.concat_eq_append] at split
    have isRun : last ∈ kindRuns segments := by simp [split]
    obtain ⟨first, more, rfl⟩ := List.exists_cons_of_ne_nil (List.ne_nil_of_mem_splitBy isRun)
    exact .inr ⟨groups, first, more, split⟩

/-- A segment of the kind of the last run joins it. -/
theorem kindRuns_concat_of_eq
    (split : kindRuns segments = groups ++ [first :: more])
    (same : first.kind = segment.kind) :
    kindRuns (segments ++ [segment]) = groups ++ [first :: more ++ [segment]] := by
  have lastKind := kind_getLast_of_kindRuns_eq split
  exact splitBy_concat_of_rel split (List.cons_ne_nil _ _) (by simpa [lastKind] using same)

/-- A segment of another kind than the last run starts a run of its own. -/
theorem kindRuns_concat_of_ne
    (split : kindRuns segments = groups ++ [first :: more])
    (other : first.kind ≠ segment.kind) :
    kindRuns (segments ++ [segment]) = kindRuns segments ++ [[segment]] := by
  have lastKind := kind_getLast_of_kindRuns_eq split
  have joined : segments = groups.flatten ++ (first :: more) := by
    rw [← List.flatten_concat, ← split, flatten_kindRuns]
  refine List.splitBy_append_cons [] fun before isLast => ?_
  rw [joined, List.getLast?_append_of_ne_nil _ (List.cons_ne_nil _ _),
    List.getLast?_eq_some_getLast (List.cons_ne_nil _ _), Option.mem_some_iff] at isLast
  simpa [← isLast, lastKind] using other

end Segment

namespace Layer

/-- The moves that the maximal runs of some segments make. -/
def runMoves (segments : List Segment) : List Move :=
  Move.ofRuns 0 (Segment.kindRuns segments)

/-- The last run makes the last move. -/
theorem runMoves_eq_concat
    {segments more : List Segment}
    {groups : List (List Segment)}
    {first : Segment}
    (split : Segment.kindRuns segments = groups ++ [first :: more]) :
    runMoves segments =
      Move.ofRuns 0 groups ++ [⟨first.kind, groups.flatten.length, more.length + 1⟩] := by
  rw [runMoves, split, Move.ofRuns_append]
  simp [Move.ofRuns]

/-- One more segment extends the moves of the runs as it extends the runs. -/
theorem extendMoves_runMoves (segments : List Segment) (segment : Segment) :
    (extendMoves (runMoves segments).toArray segment.kind segments.length).toList =
      runMoves (segments ++ [segment]) := by
  rcases Segment.eq_nil_or_kindRuns_eq_concat segments with rfl | ⟨groups, first, more, split⟩
  · rfl
  · have moves := runMoves_eq_concat split
    simp only [moves, extendMoves, List.back?_toArray, List.getLast?_append,
      List.getLast?_singleton, Option.some_or]
    by_cases same : first.kind = segment.kind
    · have runs : Segment.kindRuns (segments ++ [segment]) =
          groups ++ [first :: (more ++ [segment])] :=
        Segment.kindRuns_concat_of_eq split same
      rw [if_pos same, runMoves_eq_concat runs]
      simp [Move.extended]
    · have runs := Segment.kindRuns_concat_of_ne split same
      rw [if_neg same, runMoves, runs, Move.ofRuns_append, Segment.flatten_kindRuns, ← moves,
        runMoves]
      simp [Move.ofRuns]

/-- A layer that started out empty and was filled segment by segment. -/
inductive Filled : Layer → Prop where
  | new (z : Float) :
      Filled { z := z }
  | push {layer : Layer} (filled : Filled layer) (segment : Segment) :
      Filled (layer.push segment)

/-- Pushing segments one by one keeps a layer filled. -/
theorem Filled.foldl_push
    {layer : Layer}
    (filled : layer.Filled)
    (segments : List Segment) :
    (segments.foldl Layer.push layer).Filled :=
  List.foldlRecOn segments Layer.push filled fun _ soFar segment _ => soFar.push segment

/-- The moves of a filled layer are those of its maximal runs. -/
theorem Filled.moves_eq_runMoves {layer : Layer} (filled : layer.Filled) :
    layer.moves.toList = runMoves layer.segments.toList := by
  induction filled with
  | new z => rfl
  | @push layer _ segment inductionHypothesis =>
      rw [toList_segments_push, ← extendMoves_runMoves, ← inductionHypothesis]
      rfl

end Layer

end LayerPlayback
