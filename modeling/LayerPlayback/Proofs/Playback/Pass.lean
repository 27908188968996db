import Mathlib.Data.List.Nodup
import LayerPlayback.Playback.Engine

namespace LayerPlayback

/-!
# One pass over the layers

An engine passes over the layers once and takes the segments of every current
layer off what is left to reveal.  The moves of a layer are decided about with
what the layers before it leave.  That is as many segments as come before those
of the layer when the segments of all current layers stand in one sequence.
-/

/-- An item splits the numbered items into those with other numbers before it and those after it. -/
theorem exists_zipIdx_eq
    {α : Type}
    {items : List α}
    {item : α}
    {index : Nat}
    (found : items[index]? = some item) :
    ∃ before after,
      items.zipIdx = before ++ (item, index) :: after ∧
        ∀ entry ∈ before, entry.2 ≠ index := by
  obtain ⟨inItems, isAt⟩ := List.getElem?_eq_some_iff.mp found
  refine ⟨(items.take index).zipIdx, (items.drop (index + 1)).zipIdx (index + 1), ?_, ?_⟩
  · have before : (items.take index).length = index := by
      rw [List.length_take, Nat.min_eq_left (Nat.le_of_lt inItems)]
    conv_lhs => rw [← List.take_append_drop index items]
    rw [List.drop_eq_getElem_cons inItems, isAt, List.zipIdx_append, before,
      List.zipIdx_cons, Nat.zero_add]
  · intro entry member
    have bound := List.snd_lt_of_mem_zipIdx member
    rw [List.length_take] at bound
    omega

theorem Model.mem_indexedLayers_iff {model : Model} {layer : Layer} {index : Nat} :
    (layer, index) ∈ model.indexedLayers ↔ model.layers[index]? = some layer := by
  rw [indexedLayers, List.mem_zipIdx_iff_getElem?, Array.getElem?_toList]

namespace WindowEngine

variable (engine : WindowEngine) (window : LayerWindow)

/-- The segments of the current layers in build order, each by its layer and its index. -/
def revealOrder (entries : List (Layer × Nat)) : List (Nat × Nat) :=
  (entries.filter (engine.isCurrentLayer window)).flatMap fun (layer, index) =>
    (List.range layer.pointCount).map (index, ·)

/-- How many segments of a layer are taken off what is left to reveal. -/
def currentPoints (entry : Layer × Nat) : Nat :=
  if engine.isCurrentLayer window entry then entry.1.pointCount else 0

/-- What is decided about the moves of layers when a number of segments is left to reveal. -/
def decidedMoves : Nat → List (Layer × Nat) → List MoveVisibility
  | _, [] => []
  | remaining, entry :: rest =>
      entry.1.moves.toList.zipIdx.map
          (moveVisibility (engine.layerVisibility window entry) remaining)
        ++ decidedMoves (remaining - engine.currentPoints window entry) rest

/-- Layer by layer, the current points are revealed in order. -/
theorem revealOrder_cons (entry : Layer × Nat) (rest : List (Layer × Nat)) :
    engine.revealOrder window (entry :: rest) =
      (List.range (engine.currentPoints window entry)).map (entry.2, ·)
        ++ engine.revealOrder window rest := by
  unfold revealOrder currentPoints
  rw [List.filter_cons]
  split <;> simp

theorem revealOrder_append (before after : List (Layer × Nat)) :
    engine.revealOrder window (before ++ after) =
      engine.revealOrder window before ++ engine.revealOrder window after := by
  simp [revealOrder]

theorem revealLayer_eq (reveal : Reveal) (entry : Layer × Nat) :
    engine.revealLayer window reveal entry =
      { layers := reveal.layers.push (engine.layerVisibility window entry)
        moves := reveal.moves
          ++ entry.1.moves.toList.zipIdx.map
              (moveVisibility (engine.layerVisibility window entry) reveal.remaining)
        progressMax := reveal.progressMax + engine.currentPoints window entry
        remaining := reveal.remaining - engine.currentPoints window entry } :=
  rfl

/-- One pass over layers decides about each and takes the current ones off the rest. -/
theorem foldl_revealLayer (reveal : Reveal) (entries : List (Layer × Nat)) :
    entries.foldl (engine.revealLayer window) reveal =
      { layers := reveal.layers ++ (entries.map (engine.layerVisibility window)).toArray
        moves := reveal.moves ++ (engine.decidedMoves window reveal.remaining entries).toArray
        progressMax := reveal.progressMax + (engine.revealOrder window entries).length
        remaining := reveal.remaining - (engine.revealOrder window entries).length } := by
  induction entries generalizing reveal with
  | nil => simp [decidedMoves, revealOrder]
  | cons entry rest inductionHypothesis =>
      have joined (moves : Array MoveVisibility) (first others : List MoveVisibility) :
          moves ++ first ++ others.toArray = moves ++ (first ++ others).toArray :=
        Array.toList_inj.mp (by simp)
      rw [List.foldl_cons, inductionHypothesis, revealOrder_cons, revealLayer_eq]
      simp [decidedMoves, joined, Nat.add_assoc, Nat.sub_sub]

/-- Moves of later layers are decided with what the earlier layers leave to reveal. -/
theorem decidedMoves_append (remaining : Nat) (before after : List (Layer × Nat)) :
    engine.decidedMoves window remaining (before ++ after) =
      engine.decidedMoves window remaining before
        ++ engine.decidedMoves window
          (remaining - (engine.revealOrder window before).length) after := by
  induction before generalizing remaining with
  | nil => rfl
  | cons entry rest inductionHypothesis =>
      rw [revealOrder_cons]
      simp [decidedMoves, inductionHypothesis, Nat.sub_sub]

/-- A move that is decided is visible exactly when it has a segment to draw. -/
theorem visible_of_mem_decidedMoves
    {remaining : Nat}
    {entries : List (Layer × Nat)}
    {decided : MoveVisibility}
    (member : decided ∈ engine.decidedMoves window remaining entries) :
    decided.visible = decide (0 < decided.drawnSegments) := by
  induction entries generalizing remaining with
  | nil => cases member
  | cons entry rest inductionHypothesis =>
      rcases List.mem_append.mp member with isFirst | inRest
      · obtain ⟨_, _, rfl⟩ := List.mem_map.mp isFirst
        rfl
      · exact inductionHypothesis inRest

/-- The moves are decided about in the order of the layers and of their moves. -/
theorem keys_decidedMoves (remaining : Nat) (entries : List (Layer × Nat)) :
    ((engine.decidedMoves window remaining entries).map fun decided =>
        (decided.layer, decided.moveIndex)) =
      entries.flatMap fun (layer, index) =>
        (List.range layer.moves.size).map (index, ·) := by
  induction entries generalizing remaining with
  | nil => rfl
  | cons entry rest inductionHypothesis =>
      have ofLayer :
          (entry.1.moves.toList.zipIdx.map
              (moveVisibility (engine.layerVisibility window entry) remaining)).map
              (fun decided => (decided.layer, decided.moveIndex)) =
            (List.range entry.1.moves.size).map (entry.2, ·) := by
        rw [← Array.length_toList, List.range_eq_range', ← List.zipIdx_map_snd,
          List.map_map, List.map_map]
        rfl
      rw [decidedMoves, List.map_append, ofLayer, inductionHypothesis]
      rfl

/-- Nothing is decided about layers that were not reached. -/
theorem find?_decidedMoves_eq_none
    {remaining : Nat}
    {entries : List (Layer × Nat)}
    {index : Nat}
    (absent : ∀ entry ∈ entries, entry.2 ≠ index)
    (moveIndex : Nat) :
    (engine.decidedMoves window remaining entries).find?
        (fun decided => decided.layer = index && decided.moveIndex = moveIndex) =
      none := by
  refine List.find?_eq_none.mpr fun decided member found => ?_
  have key : (decided.layer, decided.moveIndex) ∈
      entries.flatMap fun (layer, index) => (List.range layer.moves.size).map (index, ·) := by
    rw [← engine.keys_decidedMoves window remaining]
    exact List.mem_map_of_mem member
  obtain ⟨entry, isEntry, inEntry⟩ := List.mem_flatMap.mp key
  obtain ⟨_, _, same⟩ := List.mem_map.mp inEntry
  simp only [Bool.and_eq_true, decide_eq_true_eq] at found
  exact absent entry isEntry ((congrArg Prod.fst same).trans found.1)

/-- A move is decided about with what the layers before its own leave to reveal. -/
theorem find?_decidedMoves
    {remaining : Nat}
    {before after : List (Layer × Nat)}
    {layer : Layer}
    {index moveIndex : Nat}
    {move : Move}
    (absent : ∀ entry ∈ before, entry.2 ≠ index)
    (found : layer.moves[moveIndex]? = some move) :
    (engine.decidedMoves window remaining (before ++ (layer, index) :: after)).find?
        (fun decided => decided.layer = index && decided.moveIndex = moveIndex) =
      some (moveVisibility (engine.layerVisibility window (layer, index))
        (remaining - (engine.revealOrder window before).length) (move, moveIndex)) := by
  rw [← Array.getElem?_toList] at found
  obtain ⟨earlier, later, split, otherMoves⟩ := exists_zipIdx_eq found
  have inLayer :
      layer.moves.toList.zipIdx.find? (fun entry => entry.2 = moveIndex) =
        some (move, moveIndex) := by
    rw [split]
    refine List.find?_eq_some_iff_append.mpr ⟨by simp, earlier, later, rfl, ?_⟩
    intro entry member
    simp [otherMoves entry member]
  rw [decidedMoves_append, List.find?_append, engine.find?_decidedMoves_eq_none window absent,
    Option.none_or, decidedMoves, List.find?_append, List.find?_map]
  have sameTest :
      (fun decided : MoveVisibility =>
          (decided.layer = index && decided.moveIndex = moveIndex : Bool)) ∘
          moveVisibility (engine.layerVisibility window (layer, index))
            (remaining - (engine.revealOrder window before).length) =
        fun entry => (entry.2 = moveIndex : Bool) := by
    funext entry
    change (decide (index = index) && decide (entry.2 = moveIndex)) = _
    rw [decide_eq_true rfl, Bool.true_and]
  rw [sameTest, inLayer]
  rfl

/-- A segment of a current layer comes after those of the earlier current layers. -/
theorem idxOf_revealOrder
    {before after : List (Layer × Nat)}
    {layer : Layer}
    {index segment : Nat}
    (absent : ∀ entry ∈ before, entry.2 ≠ index)
    (current : engine.isCurrentLayer window (layer, index) = true)
    (inLayer : segment < layer.pointCount) :
    (engine.revealOrder window (before ++ (layer, index) :: after)).idxOf (index, segment) =
      (engine.revealOrder window before).length + segment := by
  have notBefore : (index, segment) ∉ engine.revealOrder window before := by
    intro member
    obtain ⟨entry, isEntry, inEntry⟩ := List.mem_flatMap.mp member
    obtain ⟨_, _, same⟩ := List.mem_map.mp inEntry
    exact absent entry (List.mem_of_mem_filter isEntry) (congrArg Prod.fst same)
  have points : engine.currentPoints window (layer, index) = layer.pointCount := if_pos current
  have distinct : ((List.range layer.pointCount).map (index, ·)).Nodup :=
    List.nodup_range.map (fun _ _ same => congrArg Prod.snd same)
  have ownRank :
      ((List.range layer.pointCount).map (index, ·)).idxOf (index, segment) = segment := by
    have isAt := distinct.idxOf_getElem segment (by simpa using inLayer)
    rwa [List.getElem_map, List.getElem_range] at isAt
  rw [revealOrder_append, List.idxOf_append_of_notMem notBefore, revealOrder_cons, points,
    List.idxOf_append_of_mem (List.mem_map_of_mem (List.mem_range.mpr inLayer)), ownRank]

end WindowEngine

end LayerPlayback
