import LayerPlayback.Proofs.Model.Covering
import LayerPlayback.Proofs.Playback.Pass

namespace LayerPlayback

/-!
# Frames reveal segments exactly

Cutting each move by what is left to reveal is the same as cutting the sequence
of all segments of the current layers once.  The frame of an engine draws exactly
the first segments of that sequence, as many as the cursor reveals, and all
segments of the other visible layers.
-/

namespace VisibilityFrame

/-- Moves of which nothing is drawn add nothing to the number of drawn segments. -/
theorem drawnSegmentCount_eq
    {frame : VisibilityFrame}
    (shown : ∀ decided ∈ frame.moves.toList,
      decided.visible = decide (0 < decided.drawnSegments)) :
    frame.drawnSegmentCount = (frame.moves.toList.map MoveVisibility.drawnSegments).sum := by
  rw [drawnSegmentCount, foldl_add_eq, Nat.zero_add, visibleMoves]
  generalize frame.moves.toList = moves at shown
  induction moves with
  | nil => rfl
  | cons decided rest inductionHypothesis =>
      obtain ⟨first, others⟩ := List.forall_mem_cons.mp shown
      rw [List.filter_cons, first, List.map_cons, List.sum_cons, ← inductionHypothesis others]
      by_cases something : 0 < decided.drawnSegments
      · simp [something]
      · have nothing : decided.drawnSegments = 0 := Nat.eq_zero_of_not_pos something
        simp [nothing]

end VisibilityFrame

namespace WindowEngine

variable (engine : WindowEngine)

section Layers

variable (window : LayerWindow)

/-- How many segments the visible layers have that are not current. -/
def settledPoints (entries : List (Layer × Nat)) : Nat :=
  ((entries.filter fun entry =>
      (engine.layerVisibility window entry).visible
        && !(engine.layerVisibility window entry).current).map
    fun (layer, _) => layer.pointCount).sum

@[simp] theorem current_layerVisibility (entry : Layer × Nat) :
    (engine.layerVisibility window entry).current = engine.isCurrentLayer window entry :=
  rfl

/-- Settled points are those of visible layers that are not current. -/
theorem settledPoints_cons (entry : Layer × Nat) (rest : List (Layer × Nat)) :
    engine.settledPoints window (entry :: rest) =
      (if (engine.layerVisibility window entry).visible
          && !(engine.layerVisibility window entry).current
        then entry.1.pointCount
        else 0)
        + engine.settledPoints window rest := by
  unfold settledPoints
  rw [List.filter_cons]
  split <;> simp

/-- A current layer is in the window. -/
theorem visible_of_current
    {entry : Layer × Nat}
    (current : engine.isCurrentLayer window entry = true) :
    (engine.layerVisibility window entry).visible = true :=
  (Bool.and_eq_true_iff.mp current).1

/--
The decided moves of a layer draw its first segments if it is current, all of them
if it is visible otherwise, and none if it is not visible.
-/
theorem sum_drawn_layer
    {layer : Layer}
    (filled : layer.Filled)
    (visibility : LayerVisibility)
    (revealed : Nat) :
    ((layer.moves.toList.zipIdx.map (moveVisibility visibility revealed)).map
        MoveVisibility.drawnSegments).sum =
      if !visibility.visible then 0
      else if visibility.current then min revealed layer.pointCount
      else layer.pointCount := by
  have drawn :
      (layer.moves.toList.zipIdx.map (moveVisibility visibility revealed)).map
          MoveVisibility.drawnSegments =
        layer.moves.toList.map (drawnSegments visibility revealed) := by
    conv_rhs => rw [← List.zipIdx_map_fst 0 layer.moves.toList]
    rw [List.map_map, List.map_map]
    rfl
  rw [drawn]
  unfold drawnSegments
  split
  · simp
  · split
    · exact filled.consecutive_moves.sum_drawn revealed
    · exact filled.consecutive_moves.sum_segmentCount

/--
The decided moves of layers draw all segments of visible layers that are not
current, and of the current ones as many as are left to reveal.
-/
theorem sum_drawn_decidedMoves
    {entries : List (Layer × Nat)}
    (filled : ∀ entry ∈ entries, entry.1.Filled)
    (remaining : Nat) :
    ((engine.decidedMoves window remaining entries).map MoveVisibility.drawnSegments).sum =
      engine.settledPoints window entries
        + min remaining (engine.revealOrder window entries).length := by
  induction entries generalizing remaining with
  | nil => simp [decidedMoves, settledPoints, revealOrder]
  | cons entry rest inductionHypothesis =>
      obtain ⟨first, others⟩ := List.forall_mem_cons.mp filled
      have ofLayer :=
        sum_drawn_layer first (engine.layerVisibility window entry) remaining
      rw [decidedMoves, List.map_append, List.sum_append, ofLayer, inductionHypothesis others,
        revealOrder_cons, List.length_append, List.length_map, List.length_range,
        settledPoints_cons, current_layerVisibility, currentPoints]
      cases current : engine.isCurrentLayer window entry with
      | true =>
          simp only [engine.visible_of_current window current, Bool.not_true, Bool.and_false,
            Bool.false_eq_true, if_false, if_true]
          omega
      | false =>
          cases (engine.layerVisibility window entry).visible <;>
            simp [Nat.add_assoc]

/-- A segment is drawn when it is among the first ones of its move. -/
theorem drawsSegment_iff
    {visibility : LayerVisibility}
    {revealed moveIndex segment : Nat}
    {move : Move} :
    VisibilityFrame.drawsSegment
        (moveVisibility visibility revealed (move, moveIndex)) move segment = true ↔
      segment - move.firstSegment < drawnSegments visibility revealed move := by
  change (decide (0 < drawnSegments visibility revealed move)
    && decide (segment - move.firstSegment < drawnSegments visibility revealed move)) = true ↔ _
  rw [Bool.and_eq_true, decide_eq_true_eq, decide_eq_true_eq]
  omega

/-- A visible move draws its segments that are among the revealed ones of its layer. -/
theorem drawsSegment_moveVisibility_iff
    (visibility : LayerVisibility)
    (revealed moveIndex : Nat)
    {move : Move}
    {segment : Nat}
    (covers : move.covers segment = true) :
    VisibilityFrame.drawsSegment
        (moveVisibility visibility revealed (move, moveIndex)) move segment = true ↔
      visibility.visible = true ∧ (visibility.current = true → segment < revealed) := by
  obtain ⟨fromFirst, beforeEnd⟩ := Move.covers_iff.mp covers
  unfold Move.endSegment at beforeEnd
  have inMove : segment - move.firstSegment < move.segmentCount := by omega
  have cut :
      segment - move.firstSegment < min (revealed - move.firstSegment) move.segmentCount ↔
        segment < revealed := by
    omega
  rw [drawsSegment_iff]
  unfold drawnSegments
  cases visibility.visible with
  | false => simp
  | true =>
      cases visibility.current with
      | false => simpa using inMove
      | true => simpa only [Bool.not_true, Bool.false_eq_true, if_false, if_true,
          true_and, forall_const] using cut

end Layers

variable (model : Model) (cursor : ViewCursor)

/-- A frame has a decision for each layer, and then one for each move of the current ones. -/
theorem evaluate_eq :
    engine.evaluate model cursor =
      { layers := (model.indexedLayers.map (engine.layerVisibility cursor.window)).toArray
        moves :=
          (engine.decidedMoves cursor.window cursor.revealed model.indexedLayers).toArray
        progressMax := (engine.revealOrder cursor.window model.indexedLayers).length } := by
  rw [evaluate, foldl_revealLayer]
  simp

theorem move?_evaluate
    {before after : List (Layer × Nat)}
    {layer : Layer}
    {index moveIndex : Nat}
    {move : Move}
    (split : model.indexedLayers = before ++ (layer, index) :: after)
    (absent : ∀ entry ∈ before, entry.2 ≠ index)
    (found : layer.moves[moveIndex]? = some move) :
    (engine.evaluate model cursor).move? index moveIndex =
      some (moveVisibility (engine.layerVisibility cursor.window (layer, index))
        (cursor.revealed - (engine.revealOrder cursor.window before).length)
        (move, moveIndex)) := by
  rw [evaluate_eq, VisibilityFrame.move?, List.find?_toArray, split]
  exact engine.find?_decidedMoves cursor.window absent found

/--
A frame that reveals the current layers of a model segment by segment in build
order, up to the progress of a cursor, and draws other visible layers completely.
-/
structure ExactReveal (frame : VisibilityFrame) : Prop where
  /-- Each layer is decided about once, in order. -/
  layers :
    frame.layers.toList = model.indexedLayers.map (engine.layerVisibility cursor.window)
  /-- Each move is decided about once, in the order of the layers and of their moves. -/
  moves :
    (frame.moves.toList.map fun decided => (decided.layer, decided.moveIndex)) =
      model.indexedLayers.flatMap fun (layer, index) =>
        (List.range layer.moves.size).map (index, ·)
  /-- Of the current layers, exactly the revealed first segments are visible. -/
  segments :
    ∀ index segment,
      frame.isSegmentVisible model index segment = true ↔
        ∃ layer,
          model.layers[index]? = some layer ∧
            segment < layer.pointCount ∧
            (engine.layerVisibility cursor.window (layer, index)).visible = true ∧
            ((engine.layerVisibility cursor.window (layer, index)).current = false ∨
              (engine.revealOrder cursor.window model.indexedLayers).idxOf (index, segment) <
                cursor.revealed)
  /-- The number of drawn segments is that of the visible ones. -/
  drawn :
    frame.drawnSegmentCount =
      engine.settledPoints cursor.window model.indexedLayers
        + min cursor.revealed frame.progressMax

/-- A segment is visible when its layer is, and it is revealed if its layer is current. -/
theorem isSegmentVisible_evaluate
    {layer : Layer}
    {index : Nat}
    (found : model.layers[index]? = some layer)
    (filled : layer.Filled)
    (segment : Nat) :
    (engine.evaluate model cursor).isSegmentVisible model index segment = true ↔
      segment < layer.pointCount ∧
        (engine.layerVisibility cursor.window (layer, index)).visible = true ∧
        ((engine.layerVisibility cursor.window (layer, index)).current = false ∨
          (engine.revealOrder cursor.window model.indexedLayers).idxOf (index, segment) <
            cursor.revealed) := by
  rw [← filled.isSome_covering?_iff segment]
  unfold VisibilityFrame.isSegmentVisible
  cases covered : layer.covering? segment with
  | none => simp [found, covered]
  | some entry =>
      obtain ⟨move, moveIndex⟩ := entry
      obtain ⟨isMove, covers⟩ := Layer.covers_of_covering? covered
      have inLayer : segment < layer.pointCount := by
        rw [← filled.isSome_covering?_iff segment, covered]
        rfl
      obtain ⟨before, after, split, absent⟩ :=
        exists_zipIdx_eq (Array.getElem?_toList.trans found)
      have decided := engine.move?_evaluate model cursor split absent isMove
      have draws :=
        drawsSegment_moveVisibility_iff (engine.layerVisibility cursor.window (layer, index))
          (cursor.revealed - (engine.revealOrder cursor.window before).length) moveIndex covers
      simp only [found, covered, decided, Option.bind_eq_bind, Option.bind_some,
        Option.getD_some, draws, Option.isSome_some, true_and]
      refine and_congr_right fun _ => ?_
      rw [current_layerVisibility]
      cases current : engine.isCurrentLayer cursor.window (layer, index) with
      | false => simp
      | true =>
          -- A rank counts what is revealed before the layer, and then the place in the layer.
          rw [Model.indexedLayers, split,
            engine.idxOf_revealOrder cursor.window absent current inLayer]
          simp only [forall_const, Bool.true_eq_false, false_or]
          omega

/-- Frames of models whose layers were filled segment by segment reveal exactly. -/
theorem exactReveal_evaluate (filled : ∀ layer ∈ model.layers, layer.Filled) :
    engine.ExactReveal model cursor (engine.evaluate model cursor) where
  layers := by rw [evaluate_eq]
  moves := by
    rw [evaluate_eq]
    exact engine.keys_decidedMoves cursor.window cursor.revealed model.indexedLayers
  segments index segment := by
    constructor
    · intro visible
      cases found : model.layers[index]? with
      | none => simp [VisibilityFrame.isSegmentVisible, found] at visible
      | some layer =>
          have layerFilled := filled layer (Array.mem_of_getElem? found)
          exact ⟨layer, rfl,
            (engine.isSegmentVisible_evaluate model cursor found layerFilled segment).mp visible⟩
    · rintro ⟨layer, found, revealed⟩
      have layerFilled := filled layer (Array.mem_of_getElem? found)
      exact (engine.isSegmentVisible_evaluate model cursor found layerFilled segment).mpr revealed
  drawn := by
    have shown :
        ∀ decided ∈ (engine.evaluate model cursor).moves.toList,
          decided.visible = decide (0 < decided.drawnSegments) := by
      intro decided member
      rw [evaluate_eq] at member
      exact engine.visible_of_mem_decidedMoves cursor.window member
    have entriesFilled : ∀ entry ∈ model.indexedLayers, entry.1.Filled := by
      intro entry member
      exact filled entry.1 (Array.mem_toList_iff.mp (List.fst_mem_of_mem_zipIdx member))
    rw [VisibilityFrame.drawnSegmentCount_eq shown, evaluate_eq]
    exact engine.sum_drawn_decidedMoves cursor.window entriesFilled cursor.revealed

/-- Two current layers share the progress: the one with two segments comes first. -/
theorem exactReveal_sharedProgress :
    let segment : Segment := ⟨⟨0.0, 0.0, 0.0⟩, ⟨1.0, 0.0, 0.0⟩, true⟩
    let model : Model :=
      ⟨#[.ofSegments 0.0 [segment, segment], .ofSegments 0.0 [segment]], 0.4⟩
    let cursor : ViewCursor := ⟨.between 0.0 0.0, 2.0, 3⟩
    let engine : WindowEngine := {}
    (∀ layer ∈ model.layers, layer.Filled) ∧
      engine.revealOrder cursor.window model.indexedLayers = [(0, 0), (0, 1), (1, 0)] ∧
      engine.ExactReveal model cursor (engine.evaluate model cursor) := by
  intro segment model cursor engine
  have filled : ∀ layer ∈ model.layers, layer.Filled := by
    simp [model, Layer.ofSegments, Layer.Filled.new, Layer.Filled.push]
  exact ⟨filled, by decide +kernel, exactReveal_evaluate engine model cursor filled⟩

end WindowEngine

end LayerPlayback
