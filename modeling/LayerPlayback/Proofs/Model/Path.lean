import LayerPlayback.Model.Segment
import LayerPlayback.Proofs.Position

namespace LayerPlayback

/-!
# Paths

Segments form a path from one point to another when each starts where the one
before it ended.  Where points meet they are equal as doubles compare, so zeros
of different signs meet.
-/

/-- Segments that lead from one point to another without a gap. -/
inductive Path : Point → List Segment → Point → Prop where
  | still {start finish : Point} :
      (start == finish) = true →
      Path start [] finish
  | along {start finish : Point} {segment : Segment} {rest : List Segment} :
      (start == segment.start) = true →
      Path segment.finish rest finish →
      Path start (segment :: rest) finish

namespace Path

/-- A path may start at any point that is equal to its start. -/
theorem of_beq
    {start other finish : Point}
    {segments : List Segment}
    (equal : (other == start) = true)
    (path : Path start segments finish) :
    Path other segments finish := by
  cases path with
  | still meets => exact .still (BEq.trans equal meets)
  | along meets rest => exact .along (BEq.trans equal meets) rest

theorem start_head?
    {start finish : Point}
    {segments : List Segment}
    (path : Path start segments finish) :
    ∀ first ∈ segments.head?, (start == first.start) = true := by
  cases path with
  | still _ => simp
  | along meets _ => simpa using meets

/-- Along a path each segment ends where the next one starts. -/
theorem isChain
    {start finish : Point}
    {segments : List Segment}
    (path : Path start segments finish) :
    segments.IsChain fun earlier later => (earlier.finish == later.start) = true := by
  induction path with
  | still _ => exact .nil
  | along _ restPath inductionHypothesis =>
      exact List.isChain_cons.mpr ⟨restPath.start_head?, inductionHypothesis⟩

/-- A path ends where its last segment does. -/
theorem finish_getLast?
    {start finish : Point}
    {segments : List Segment}
    (path : Path start segments finish) :
    ∀ last ∈ segments.getLast?, (last.finish == finish) = true := by
  induction path with
  | still _ => simp
  | along _ restPath inductionHypothesis =>
      cases restPath with
      | still meets => simpa using meets
      | along _ _ => simpa [List.getLast?_cons_cons] using inductionHypothesis

theorem beq_start
    {start finish : Point}
    {segments : List Segment}
    (path : Path start segments finish) :
    (start == start) = true := by
  cases path with
  | still meets => exact BEq.trans meets (BEq.symm meets)
  | along meets _ => exact BEq.trans meets (BEq.symm meets)

/-- A path along segments and then along others passes a point between them. -/
theorem exists_of_append
    {start finish : Point}
    {earlier later : List Segment}
    (path : Path start (earlier ++ later) finish) :
    ∃ between, Path start earlier between ∧ Path between later finish := by
  induction earlier generalizing start with
  | nil => exact ⟨start, .still path.beq_start, path⟩
  | cons segment rest inductionHypothesis =>
      cases path with
      | along meets restPath =>
          obtain ⟨between, before, after⟩ := inductionHypothesis restPath
          exact ⟨between, .along meets before, after⟩

/-- The segments of each part of a path form a path of their own. -/
theorem exists_of_mem
    {α : Type}
    {segmentsOf : α → List Segment}
    {start finish : Point}
    {parts : List α}
    {part : α}
    (path : Path start (parts.flatMap segmentsOf) finish)
    (member : part ∈ parts) :
    ∃ partStart partFinish, Path partStart (segmentsOf part) partFinish := by
  obtain ⟨before, after, rfl⟩ := List.append_of_mem member
  rw [List.flatMap_append, List.flatMap_cons] at path
  obtain ⟨partStart, _, fromPart⟩ := path.exists_of_append
  obtain ⟨partFinish, partPath, _⟩ := fromPart.exists_of_append
  exact ⟨partStart, partFinish, partPath⟩

/-- Each segment of a path starts where the path does, or where an earlier segment ends. -/
theorem start_or_finish
    {start finish : Point}
    {segments : List Segment}
    (path : Path start segments finish) :
    ∀ segment ∈ segments,
      (start == segment.start) = true ∨
        ∃ earlier ∈ segments, (earlier.finish == segment.start) = true := by
  induction path with
  | still _ => exact List.forall_mem_nil _
  | @along start finish first rest meets _ inductionHypothesis =>
      refine List.forall_mem_cons.mpr ⟨.inl meets, fun segment member => .inr ?_⟩
      rcases inductionHypothesis segment member with isFirst | ⟨earlier, earlierMember, ends⟩
      · exact ⟨first, List.mem_cons_self, isFirst⟩
      · exact ⟨earlier, List.mem_cons_of_mem _ earlierMember, ends⟩

end Path

end LayerPlayback
