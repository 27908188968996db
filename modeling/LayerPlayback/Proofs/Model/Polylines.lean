import LayerPlayback.Model.Polyline
import LayerPlayback.Proofs.Model.Path
import LayerPlayback.Proofs.Model.Runs

namespace LayerPlayback

/-!
# Polylines draw the runs of a layer

Polylines are batched from the segments of a layer alone, yet they are those of the
maximal runs that its moves are made of.  Of a segment behind the first one of its run a
polyline keeps only the end.  The start is the vertex before it, provided that the
segments form a path.
-/

namespace Segment

/-- Segments that equal others one by one, as doubles compare. -/
abbrev Same : List Segment → List Segment → Prop :=
  List.Forall₂ fun first second => (first == second) = true

/-- Segments that are all of the kind of the first one. -/
def IsUniform (run : List Segment) : Prop :=
  ∀ first ∈ run.head?, ∀ segment ∈ run, segment.kind = first.kind

/-- Segments are equal when their ends are, and when both deposit or neither does. -/
theorem beq_eq_true_iff {first second : Segment} :
    (first == second) = true ↔
      (first.start == second.start) = true ∧ (first.finish == second.finish) = true ∧
        first.deposits = second.deposits := by
  simp only [BEq.beq, instBEqSegment.beq, Bool.and_eq_true, decide_eq_true_eq]

theorem isDeposit_kind (segment : Segment) : segment.kind.isDeposit = segment.deposits := by
  unfold kind
  cases segment.deposits <;> rfl

/-- All segments of a run are of one kind. -/
theorem isUniform_of_mem_kindRuns {segments : List Segment} :
    ∀ run ∈ kindRuns segments, IsUniform run := by
  intro run isRun first isFirst segment member
  obtain ⟨more, rfl⟩ := List.head?_eq_some_iff.mp isFirst
  exact kind_eq_of_mem_kindRuns isRun member

/-- The segments of a path are read back from its start and their ends. -/
theorem same_zipWith_of_path
    {deposits : Bool}
    {start finish : Point}
    {segments : List Segment}
    (path : Path start segments finish)
    (alike : ∀ segment ∈ segments, segment.deposits = deposits) :
    Same
      ((start :: segments.map Segment.finish).zipWith
        (fun start finish => ⟨start, finish, deposits⟩) (segments.map Segment.finish))
      segments := by
  induction path with
  | still _ => exact .nil
  | along meets restPath inductionHypothesis =>
      obtain ⟨first, others⟩ := List.forall_mem_cons.mp alike
      exact .cons (beq_eq_true_iff.mpr ⟨meets, restPath.beq_start, first.symm⟩)
        (inductionHypothesis others)

end Segment

namespace Polyline

/-- The move that a polyline draws. -/
def move (polyline : Polyline) : Move :=
  ⟨polyline.kind, polyline.firstPoint, polyline.segmentCount⟩

/-- The segments that lead from each vertex to the next one. -/
def drawn (polyline : Polyline) : List Segment :=
  polyline.vertices.toList.zipWith
    (fun start finish => ⟨start, finish, polyline.kind.isDeposit⟩)
    polyline.vertices.toList.tail

/-- A drawn segment has its ends at successive vertices. -/
theorem exists_ends_of_same_drawn
    {polyline : Polyline}
    {segments : List Segment}
    (same : Segment.Same polyline.drawn segments)
    {j : Nat}
    (inRange : j < polyline.segmentCount) :
    ∃ segment start finish,
      segments[j]? = some segment ∧
        polyline.vertices[j]? = some start ∧ polyline.vertices[j + 1]? = some finish ∧
        (start == segment.start) = true ∧ (finish == segment.finish) = true := by
  have isVertex : j + 1 < polyline.vertices.size := Nat.add_lt_of_lt_sub inRange
  have isDrawn : j < polyline.drawn.length := by
    simpa [drawn, segmentCount] using inRange
  have isSegment : j < segments.length := same.length_eq ▸ isDrawn
  have ends := Segment.beq_eq_true_iff.mp (same.get isDrawn isSegment)
  simp only [drawn, List.get_eq_getElem, List.getElem_zipWith, List.getElem_tail,
    Array.getElem_toList] at ends
  exact ⟨segments[j], polyline.vertices[j], polyline.vertices[j + 1],
    List.getElem?_eq_getElem isSegment, Array.getElem?_eq_getElem _,
    Array.getElem?_eq_getElem isVertex, ends.1, ends.2.1⟩

/-- The polyline of a run of segments, the first of which stands at an index. -/
def ofRun (layer index firstPoint : Nat) (first : Segment) (more : List Segment) : Polyline :=
  { layer := layer
    index := index
    kind := first.kind
    firstPoint := firstPoint
    vertices := (first.start :: (first :: more).map Segment.finish).toArray }

/-- The polylines of runs that follow each other, from an ordinal and an index on. -/
def ofRuns (layer : Nat) : Nat → Nat → List (List Segment) → List Polyline
  | _, _, [] => []
  | index, firstPoint, [] :: rest => ofRuns layer index firstPoint rest
  | index, firstPoint, (first :: more) :: rest =>
      ofRun layer index firstPoint first more
        :: ofRuns layer (index + 1) (firstPoint + (more.length + 1)) rest

variable (layer : Nat)

section Run

variable (index firstPoint : Nat) (first : Segment) (more : List Segment)

@[simp] theorem kind_ofRun : (ofRun layer index firstPoint first more).kind = first.kind :=
  rfl

theorem move_ofRun :
    (ofRun layer index firstPoint first more).move =
      ⟨first.kind, firstPoint, more.length + 1⟩ := by
  simp [move, ofRun, segmentCount]

theorem extended_ofRun (segment : Segment) :
    (ofRun layer index firstPoint first more).extended segment =
      ofRun layer index firstPoint first (more ++ [segment]) := by
  simp [extended, ofRun]

end Run

/-- The polylines of later runs are numbered on from those of earlier ones. -/
theorem ofRuns_append (index firstPoint : Nat) (earlier later : List (List Segment)) :
    ofRuns layer index firstPoint (earlier ++ later) =
      ofRuns layer index firstPoint earlier
        ++ ofRuns layer (index + (ofRuns layer index firstPoint earlier).length)
          (firstPoint + earlier.flatten.length) later := by
  induction earlier generalizing index firstPoint with
  | nil => rfl
  | cons run rest inductionHypothesis =>
      cases run with
      | nil => simp [ofRuns, inductionHypothesis]
      | cons first more =>
          simp [ofRuns, inductionHypothesis, Nat.add_assoc, Nat.add_comm, Nat.add_left_comm]

/-- One more segment changes the polylines of the runs as it changes the runs. -/
theorem addSegment_ofRuns (segments : List Segment) (segment : Segment) :
    (addSegment layer (ofRuns layer 0 0 (Segment.kindRuns segments)).toArray
        (segment, segments.length)).toList =
      ofRuns layer 0 0 (Segment.kindRuns (segments ++ [segment])) := by
  rcases Segment.eq_nil_or_kindRuns_eq_concat segments with rfl | ⟨groups, first, more, split⟩
  · rfl
  · have polylines := ofRuns_append layer 0 0 groups [first :: more]
    rw [← split] at polylines
    simp only [ofRuns, Nat.zero_add] at polylines
    simp only [addSegment, polylines, List.back?_toArray, List.getLast?_append,
      List.getLast?_singleton, Option.some_or]
    by_cases same : first.kind = segment.kind
    · have runs : Segment.kindRuns (segments ++ [segment]) =
          groups ++ [first :: (more ++ [segment])] :=
        Segment.kindRuns_concat_of_eq split same
      rw [runs, ofRuns_append]
      simp [ofRuns, extended_ofRun, ← same]
    · have runs := Segment.kindRuns_concat_of_ne split same
      rw [runs, ofRuns_append, Segment.flatten_kindRuns, polylines]
      simp [ofRuns, ofRun, single, same]

/-- The polylines of a layer are those of its maximal runs. -/
theorem ofLayer_eq_ofRuns (index : Nat) (layer : Layer) :
    ofLayer index layer = ofRuns index 0 0 (Segment.kindRuns layer.segments.toList) := by
  unfold ofLayer
  induction layer.segments.toList using List.reverseRecOn with
  | nil => rfl
  | append_singleton segments segment inductionHypothesis =>
      rw [List.zipIdx_append, List.foldl_append, ← addSegment_ofRuns, ← inductionHypothesis]
      simp

/-- The polylines of runs draw the moves of the runs, one each and in order. -/
theorem map_move_ofRuns (index firstPoint : Nat) (runs : List (List Segment)) :
    (ofRuns layer index firstPoint runs).map
        (fun polyline => (polyline.layer, polyline.index, polyline.move)) =
      ((Move.ofRuns firstPoint runs).zipIdx index).map
        fun (move, ordinal) => (layer, ordinal, move) := by
  induction runs generalizing index firstPoint with
  | nil => rfl
  | cons run rest inductionHypothesis =>
      cases run with
      | nil => exact inductionHypothesis index firstPoint
      | cons first more =>
          simp only [ofRuns, Move.ofRuns, List.map_cons, List.zipIdx_cons, inductionHypothesis,
            move_ofRun]
          rfl

/-! ## What polylines draw -/

section Drawn

variable {start finish : Point} {runs : List (List Segment)}

/-- A polyline draws its run when the run is part of a path. -/
theorem same_drawn_ofRun
    (index firstPoint : Nat)
    {first : Segment}
    {more : List Segment}
    (path : Path start (first :: more) finish)
    (uniform : Segment.IsUniform (first :: more)) :
    Segment.Same (ofRun layer index firstPoint first more).drawn (first :: more) := by
  have fromFirst : Path first.start (first :: more) finish := by
    cases path with
    | along meets rest => exact .along (BEq.trans (BEq.symm meets) meets) rest
  apply Segment.same_zipWith_of_path fromFirst
  intro segment member
  rw [← segment.isDeposit_kind, uniform first rfl segment member]
  rfl

/-- Runs that form a path together are drawn once and in order. -/
theorem same_flatMap_ofRuns
    (index firstPoint : Nat)
    (path : Path start runs.flatten finish)
    (uniform : ∀ run ∈ runs, Segment.IsUniform run) :
    Segment.Same ((ofRuns layer index firstPoint runs).flatMap drawn) runs.flatten := by
  induction runs generalizing index firstPoint start with
  | nil => exact .nil
  | cons run rest inductionHypothesis =>
      obtain ⟨uniformRun, uniformRest⟩ := List.forall_mem_cons.mp uniform
      obtain ⟨between, runPath, restPath⟩ := path.exists_of_append
      cases run with
      | nil => exact inductionHypothesis index firstPoint restPath uniformRest
      | cons first more =>
          exact List.rel_append (same_drawn_ofRun layer index firstPoint runPath uniformRun)
            (inductionHypothesis _ _ restPath uniformRest)

/-- Each polyline draws the segments at its place, counting those before the runs. -/
theorem same_drawn_of_mem_ofRuns
    (index : Nat)
    {before : List Segment}
    (path : Path start runs.flatten finish)
    (uniform : ∀ run ∈ runs, Segment.IsUniform run) :
    ∀ polyline ∈ ofRuns layer index before.length runs,
      Segment.Same polyline.drawn
        (((before ++ runs.flatten).drop polyline.firstPoint).take polyline.segmentCount) := by
  induction runs generalizing index before start with
  | nil => exact List.forall_mem_nil _
  | cons run rest inductionHypothesis =>
      obtain ⟨uniformRun, uniformRest⟩ := List.forall_mem_cons.mp uniform
      obtain ⟨between, runPath, restPath⟩ := path.exists_of_append
      cases run with
      | nil => exact inductionHypothesis index restPath uniformRest
      | cons first more =>
          refine List.forall_mem_cons.mpr ⟨?_, ?_⟩
          · have count :
                (ofRun layer index before.length first more).segmentCount = more.length + 1 :=
              congrArg Move.segmentCount (move_ofRun layer index before.length first more)
            have place :
                ((before ++ ((first :: more) :: rest).flatten).drop before.length).take
                  (more.length + 1) = first :: more := by
              simp
            have drawnRun := same_drawn_ofRun layer index before.length runPath uniformRun
            rw [← place, ← count] at drawnRun
            exact drawnRun
          · have later :=
              @inductionHypothesis _ (index + 1) (before ++ first :: more) restPath uniformRest
            simpa using later

end Drawn

end Polyline

/-! ## The polylines of layers and models -/

namespace Layer

variable {layer : Layer} (index : Nat) {start finish : Point}

theorem Filled.map_move_ofLayer (filled : layer.Filled) :
    (Polyline.ofLayer index layer).map
        (fun polyline => (polyline.layer, polyline.index, polyline.move)) =
      layer.moves.toList.zipIdx.map fun (move, ordinal) => (index, ordinal, move) := by
  rw [Polyline.ofLayer_eq_ofRuns, Polyline.map_move_ofRuns, filled.moves_eq_runMoves]
  rfl

/-- A polyline says which layer it is from. -/
theorem layer_of_mem_ofLayer
    {polyline : Polyline}
    (member : polyline ∈ Polyline.ofLayer index layer) :
    polyline.layer = index := by
  have placed :
      (polyline.layer, polyline.index, polyline.move) ∈
        (Polyline.ofLayer index layer).map
          fun polyline => (polyline.layer, polyline.index, polyline.move) :=
    List.mem_map.mpr ⟨polyline, member, rfl⟩
  rw [Polyline.ofLayer_eq_ofRuns, Polyline.map_move_ofRuns] at placed
  obtain ⟨_, _, same⟩ := List.mem_map.mp placed
  exact (congrArg Prod.fst same).symm

/-- A layer whose segments form a path is drawn once and in order, each part at its place. -/
theorem same_drawn_ofLayer (path : Path start layer.segments.toList finish) :
    Segment.Same ((Polyline.ofLayer index layer).flatMap Polyline.drawn) layer.segments.toList ∧
      ∀ polyline ∈ Polyline.ofLayer index layer,
        Segment.Same polyline.drawn
          ((layer.segments.toList.drop polyline.firstPoint).take polyline.segmentCount) := by
  have joined := Segment.flatten_kindRuns layer.segments.toList
  rw [← joined] at path
  have whole := Polyline.same_flatMap_ofRuns index 0 0 path Segment.isUniform_of_mem_kindRuns
  have parts :=
    @Polyline.same_drawn_of_mem_ofRuns index _ _ _ 0 [] path Segment.isUniform_of_mem_kindRuns
  rw [joined] at whole parts
  rw [Polyline.ofLayer_eq_ofRuns]
  exact ⟨whole, parts⟩

end Layer

namespace Model

/--
How polylines keep all that a model draws: they draw its moves, and its segments can be
read off their vertices.
-/
structure BatchedInto (model : Model) (polylines : List Polyline) : Prop where
  /-- In layer order, each move has one polyline, which has its ordinal. -/
  moves :
    polylines.map (fun polyline => (polyline.layer, polyline.index, polyline.move)) =
      model.indexedLayers.flatMap fun (layer, index) =>
        layer.moves.toList.zipIdx.map fun (move, ordinal) => (index, ordinal, move)
  /-- Successive vertices are the ends of the segments from the first one on. -/
  ends :
    ∀ polyline ∈ polylines, ∃ layer,
      model.layers[polyline.layer]? = some layer ∧
        ∀ j < polyline.segmentCount, ∃ segment start finish,
          layer.segments[polyline.firstPoint + j]? = some segment ∧
            polyline.vertices[j]? = some start ∧ polyline.vertices[j + 1]? = some finish ∧
            (start == segment.start) = true ∧ (finish == segment.finish) = true
  /-- All polylines together draw every segment once and in order. -/
  segments :
    Segment.Same (polylines.flatMap Polyline.drawn) model.segments

variable {model : Model} {start finish : Point}

/-- The segments of a model are those of its layers in order. -/
theorem segments_eq_flatMap :
    model.segments = model.indexedLayers.flatMap fun (layer, _) => layer.segments.toList := by
  calc
    model.segments =
        (model.indexedLayers.map Prod.fst).flatMap fun layer => layer.segments.toList := by
      rw [indexedLayers, List.zipIdx_map_fst, segments]
    _ = _ := List.flatMap_map _ _ _

/-- Polylines lose nothing when the layers were filled and the segments form a path. -/
theorem batchedInto_ofModel
    (filled : ∀ layer ∈ model.layers, layer.Filled)
    (path : Path start model.segments finish) :
    model.BatchedInto (Polyline.ofModel model) where
  moves := by
    rw [Polyline.ofModel, List.map_flatMap]
    refine List.flatMap_congr fun (layer, index) isLayer => ?_
    have member : layer ∈ model.layers :=
      Array.mem_toList_iff.mp (List.fst_mem_of_mem_zipIdx isLayer)
    exact (filled layer member).map_move_ofLayer index
  ends := by
    intro polyline member
    obtain ⟨⟨layer, index⟩, isLayer, inLayer⟩ := List.mem_flatMap.mp member
    have isAt := List.mem_zipIdx_iff_getElem?.mp isLayer
    rw [Array.getElem?_toList, ← layer.layer_of_mem_ofLayer index inLayer] at isAt
    obtain ⟨layerStart, layerFinish, layerPath⟩ :=
      path.exists_of_mem (List.fst_mem_of_mem_zipIdx isLayer)
    have drawn := (layer.same_drawn_ofLayer index layerPath).2 polyline inLayer
    refine ⟨layer, isAt, fun j inRange => ?_⟩
    obtain ⟨segment, start, finish, found, ends⟩ :=
      Polyline.exists_ends_of_same_drawn drawn inRange
    rw [List.getElem?_take_of_lt inRange, List.getElem?_drop, Array.getElem?_toList] at found
    exact ⟨segment, start, finish, found, ends⟩
  segments := by
    rw [Polyline.ofModel, List.flatMap_assoc, segments_eq_flatMap]
    have entries :
        List.Forall₂ (fun first second => first = second ∧ first ∈ model.indexedLayers)
          model.indexedLayers model.indexedLayers :=
      List.forall₂_same.mpr fun entry isLayer => ⟨rfl, isLayer⟩
    -- No polyline is of two layers, so both sides are compared layer by layer.
    refine List.rel_flatMap entries ?_
    rintro ⟨layer, index⟩ _ ⟨rfl, isLayer⟩
    obtain ⟨layerStart, layerFinish, layerPath⟩ :=
      path.exists_of_mem (List.fst_mem_of_mem_zipIdx isLayer)
    exact (layer.same_drawn_ofLayer index layerPath).1

end Model

end LayerPlayback
