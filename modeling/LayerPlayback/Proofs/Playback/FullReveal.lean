import LayerPlayback.Proofs.Build.Grouping
import LayerPlayback.Proofs.Playback.CursorRun

namespace LayerPlayback

/-!
# Full reveals

A cursor that reveals everything goes on doing so through any change of its
window, of the engine or of the model: its share is exactly one, and so is the
product with any number of segments.  Its frames draw the layers in the window
completely, and those of a full cursor draw the whole model.
-/

namespace ViewCursor

/-- A cursor that reveals all segments that can be. -/
def IsFull (cursor : ViewCursor) : Prop :=
  (cursor.progress == Float.ofNat cursor.progressMax) = true

variable {cursor : ViewCursor}

/-- A new cursor of a window has nothing to reveal, and reveals all of it. -/
theorem isFull_ofWindow (window : LayerWindow) : (ofWindow window).IsFull := by
  change ((0.0 : Float) == Float.ofNat 0) = true
  rfl

/-- All of the segments are a share of exactly one. -/
theorem IsFull.value_fraction (full : cursor.IsFull) (fits : cursor.progressMax < 2 ^ 64) :
    cursor.fraction.isFinite = true ∧ Binary64.value cursor.fraction = 1 := by
  obtain ⟨number, countNumber, same⟩ := Binary64.beq_iff.mp full
  unfold fraction
  by_cases isEmpty : cursor.progressMax = 0
  · rw [if_pos isEmpty]
    exact ⟨Binary64.isFinite_one, Binary64.value_one⟩
  · rw [if_neg isEmpty]
    have countFinite := Binary64.isFinite_ofNat fits
    have countPositive : 0 < Binary64.value (Float.ofNat cursor.progressMax) :=
      zero_lt_one.trans_le (Binary64.one_le_value_ofNat (Nat.pos_of_ne_zero isEmpty))
    have progressFinite : cursor.progress.isFinite = true := by
      rw [Binary64.isFinite_iff] at countFinite ⊢
      rw [same]
      exact ⟨number, countFinite.2⟩
    have rounds := Binary64.rounds_div progressFinite countFinite countPositive.ne'
    rw [same, div_self countPositive.ne'] at rounds
    have isOne := rounds.value_eq Binary64.isNaN_one Binary64.value_one
    rw [Binary64.isFinite_iff, isOne, abs_one]
    exact ⟨⟨rounds.number, one_lt_pow₀ one_lt_two (by norm_num)⟩, rfl⟩

/-- Rescaling keeps a cursor full. -/
theorem IsFull.rescale
    (full : cursor.IsFull)
    (fits : cursor.progressMax < 2 ^ 64)
    {count : Nat}
    (countFits : count < 2 ^ 64) :
    (cursor.rescale count).IsFull := by
  unfold ViewCursor.rescale
  by_cases unchanged : count = cursor.progressMax
  · rw [if_pos unchanged]
    exact full
  · rw [if_neg unchanged]
    obtain ⟨finite, isOne⟩ := full.value_fraction fits
    have rounds := Binary64.rounds_mul finite (Binary64.isFinite_ofNat countFits)
    rw [isOne, one_mul] at rounds
    exact Binary64.beq_iff.mpr ⟨rounds.number, Binary64.isNaN_ofNat count,
      rounds.value_eq (Binary64.isNaN_ofNat count) rfl⟩

/-- A full cursor reveals as many whole segments as there are. -/
theorem IsFull.revealed_eq (full : cursor.IsFull) (exact : cursor.progressMax ≤ 2 ^ 53) :
    cursor.revealed = cursor.progressMax := by
  obtain ⟨number, _, same⟩ := Binary64.beq_iff.mp full
  rw [Binary64.value_ofNat exact] at same
  exact Binary64.wholeUnits_of_value_eq number same (exact.trans_lt (by norm_num))

theorem progressMax_rescale (cursor : ViewCursor) (count : Nat) :
    (cursor.rescale count).progressMax = count := by
  unfold ViewCursor.rescale
  split
  · next unchanged => exact unchanged.symm
  · rfl

end ViewCursor

namespace WindowEngine

variable (engine : WindowEngine) (model : Model)

/-- The points that can be revealed are those that a pass over the layers goes through. -/
theorem revealablePoints_eq (window : LayerWindow) :
    engine.revealablePoints model window =
      (engine.revealOrder window model.indexedLayers).length := by
  rw [revealablePoints, foldl_add_eq, Nat.zero_add, revealOrder, List.length_flatMap]
  simp

/-- How many segments the layers in a window have together. -/
def windowPoints (window : LayerWindow) (entries : List (Layer × Nat)) : Nat :=
  ((entries.filter fun entry =>
      engine.inWindow window (engine.layerKey entry.1 entry.2)).map
    fun entry => entry.1.pointCount).sum

/-- A frame that draws the layers in a window completely, and nothing else. -/
structure DrawsWindow (window : LayerWindow) (frame : VisibilityFrame) : Prop where
  /-- The segments in the window are visible. -/
  segments :
    ∀ index segment,
      frame.isSegmentVisible model index segment = true ↔
        ∃ layer,
          model.layers[index]? = some layer ∧
            segment < layer.pointCount ∧
            engine.inWindow window (engine.layerKey layer index) = true
  /-- The moves in the window are drawn to their ends. -/
  moves :
    ∀ decided ∈ frame.moves.toList,
      ∃ layer move,
        model.layers[decided.layer]? = some layer ∧
          layer.moves[decided.moveIndex]? = some move ∧
          decided.segmentCount = move.segmentCount ∧
          decided.drawnSegments =
            if engine.inWindow window (engine.layerKey layer decided.layer) then
              move.segmentCount
            else
              0
  /-- As many segments are drawn as there are in the window. -/
  drawn : frame.drawnSegmentCount = engine.windowPoints window model.indexedLayers

section Entries

variable (window : LayerWindow)

/-- A current layer's segments are in the sequence of those that can be revealed. -/
theorem mem_revealOrder
    {entries : List (Layer × Nat)}
    {layer : Layer}
    {index segment : Nat}
    (member : (layer, index) ∈ entries)
    (current : engine.isCurrentLayer window (layer, index) = true)
    (inLayer : segment < layer.pointCount) :
    (index, segment) ∈ engine.revealOrder window entries :=
  List.mem_flatMap.mpr
    ⟨(layer, index), List.mem_filter.mpr ⟨member, current⟩,
      List.mem_map_of_mem (List.mem_range.mpr inLayer)⟩

/-- With enough left to reveal, the moves of a visible layer are drawn to their ends. -/
theorem drawnSegments_of_enough
    {layer : Layer}
    (filled : layer.Filled)
    {move : Move}
    (isMove : move ∈ layer.moves.toList)
    (visibility : LayerVisibility)
    {revealed : Nat}
    (enough : visibility.current = true → layer.pointCount ≤ revealed) :
    drawnSegments visibility revealed move =
      if visibility.visible then move.segmentCount else 0 := by
  have inLayer := filled.consecutive_moves.endSegment_le_stop isMove
  unfold drawnSegments
  cases visibility.visible with
  | false => rfl
  | true =>
      cases current : visibility.current with
      | false => rfl
      | true =>
          have toEnd := inLayer.trans (enough current)
          unfold Move.endSegment at toEnd
          simp only [Bool.not_true, Bool.false_eq_true, if_false, if_true]
          omega

/-- With everything revealed, each decided move is drawn to its end if its layer is visible. -/
theorem exists_of_mem_decidedMoves
    {remaining : Nat}
    {entries : List (Layer × Nat)}
    (filled : ∀ entry ∈ entries, entry.1.Filled)
    (enough : (engine.revealOrder window entries).length ≤ remaining)
    {decided : MoveVisibility}
    (member : decided ∈ engine.decidedMoves window remaining entries) :
    ∃ layer move,
      (layer, decided.layer) ∈ entries ∧
        layer.moves[decided.moveIndex]? = some move ∧
        decided.segmentCount = move.segmentCount ∧
        decided.drawnSegments =
          if engine.inWindow window (engine.layerKey layer decided.layer) then
            move.segmentCount
          else
            0 := by
  -- Enough for all layers is enough for the first one, and leaves enough for the others.
  induction entries generalizing remaining with
  | nil => cases member
  | cons entry rest inductionHypothesis =>
      obtain ⟨firstFilled, restFilled⟩ := List.forall_mem_cons.mp filled
      rw [revealOrder_cons, List.length_append, List.length_map, List.length_range] at enough
      rcases List.mem_append.mp member with isFirst | inRest
      · obtain ⟨⟨move, moveIndex⟩, isMove, rfl⟩ := List.mem_map.mp isFirst
        have enoughFirst :
            (engine.layerVisibility window entry).current = true →
              entry.1.pointCount ≤ remaining := by
          intro current
          rw [current_layerVisibility] at current
          rw [currentPoints, if_pos current] at enough
          omega
        have found := List.mem_zipIdx_iff_getElem?.mp isMove
        rw [Array.getElem?_toList] at found
        exact ⟨entry.1, move, List.mem_cons_self, found, rfl,
          drawnSegments_of_enough firstFilled (List.fst_mem_of_mem_zipIdx isMove)
            (engine.layerVisibility window entry) enoughFirst⟩
      · obtain ⟨layer, move, inEntries, drawn⟩ :=
          inductionHypothesis restFilled (by omega) inRest
        exact ⟨layer, move, List.mem_cons_of_mem _ inEntries, drawn⟩

/-- The points of a window are counted layer by layer. -/
theorem windowPoints_cons (entry : Layer × Nat) (rest : List (Layer × Nat)) :
    engine.windowPoints window (entry :: rest) =
      (if engine.inWindow window (engine.layerKey entry.1 entry.2) then
          entry.1.pointCount
        else
          0)
        + engine.windowPoints window rest := by
  unfold windowPoints
  rw [List.filter_cons]
  split <;> simp

/-- The current layers and the other visible ones are those in the window. -/
theorem settledPoints_add_length (entries : List (Layer × Nat)) :
    engine.settledPoints window entries + (engine.revealOrder window entries).length =
      engine.windowPoints window entries := by
  induction entries with
  | nil => rfl
  | cons entry rest inductionHypothesis =>
      have visible :
          (engine.layerVisibility window entry).visible =
            engine.inWindow window (engine.layerKey entry.1 entry.2) :=
        rfl
      rw [settledPoints_cons, revealOrder_cons, List.length_append, List.length_map,
        List.length_range, windowPoints_cons, current_layerVisibility, ← visible, currentPoints]
      cases current : engine.isCurrentLayer window entry with
      | true =>
          rw [engine.visible_of_current window current]
          simp only [Bool.not_true, Bool.and_false, Bool.false_eq_true, if_false, if_true]
          omega
      | false =>
          simp only [Bool.not_false, Bool.and_true, Bool.false_eq_true, if_false]
          omega

end Entries

/-- A cursor that reveals everything draws its window completely. -/
theorem drawsWindow_evaluate
    {cursor : ViewCursor}
    (filled : ∀ layer ∈ model.layers, layer.Filled)
    (enough :
      (engine.revealOrder cursor.window model.indexedLayers).length ≤ cursor.revealed) :
    engine.DrawsWindow model cursor.window (engine.evaluate model cursor) := by
  have reveals := engine.exactReveal_evaluate model cursor filled
  have entriesFilled : ∀ entry ∈ model.indexedLayers, entry.1.Filled := by
    intro entry member
    exact filled entry.1 (Array.mem_toList_iff.mp (List.fst_mem_of_mem_zipIdx member))
  refine ⟨?_, ?_, ?_⟩
  · intro index segment
    rw [reveals.segments]
    constructor
    · rintro ⟨layer, found, inLayer, visible, _⟩
      exact ⟨layer, found, inLayer, visible⟩
    · rintro ⟨layer, found, inLayer, visible⟩
      refine ⟨layer, found, inLayer, visible, ?_⟩
      rw [current_layerVisibility]
      cases current : engine.isCurrentLayer cursor.window (layer, index) with
      | false => exact .inl rfl
      | true =>
          -- Each segment of a current layer has a rank, and the ranks end below what is revealed.
          have isEntry : (layer, index) ∈ model.indexedLayers :=
            Model.mem_indexedLayers_iff.mpr found
          have ranked := engine.mem_revealOrder cursor.window isEntry current inLayer
          exact .inr ((List.idxOf_lt_length_of_mem ranked).trans_le enough)
  · intro decided member
    rw [evaluate_eq] at member
    obtain ⟨layer, move, isEntry, drawn⟩ :=
      engine.exists_of_mem_decidedMoves cursor.window entriesFilled enough member
    exact ⟨layer, move, Model.mem_indexedLayers_iff.mp isEntry, drawn⟩
  · have count :
        (engine.evaluate model cursor).progressMax =
          (engine.revealOrder cursor.window model.indexedLayers).length := by
      rw [evaluate_eq]
    rw [reveals.drawn, count, Nat.min_eq_right enough, settledPoints_add_length]

theorem window_sync (cursor : ViewCursor) :
    (engine.sync model cursor).window = cursor.window :=
  ViewCursor.window_rescale cursor _

theorem progressMax_sync (cursor : ViewCursor) :
    (engine.sync model cursor).progressMax =
      (engine.revealOrder cursor.window model.indexedLayers).length :=
  (ViewCursor.progressMax_rescale cursor _).trans (engine.revealablePoints_eq model cursor.window)

/-- A cursor that is in line with its window stays as it is. -/
theorem sync_sync (cursor : ViewCursor) :
    engine.sync model (engine.sync model cursor) = engine.sync model cursor := by
  have unchanged :
      engine.revealablePoints model (engine.sync model cursor).window =
        (engine.sync model cursor).progressMax := by
    rw [window_sync, progressMax_sync, revealablePoints_eq]
  conv_lhs => rw [sync, ViewCursor.rescale, if_pos unchanged]

/-- A full cursor that follows a model is full again, also through an empty window. -/
theorem isFull_sync
    {cursor : ViewCursor}
    (full : cursor.IsFull)
    (fits : cursor.progressMax < 2 ^ 64)
    (exact : model.segmentCount ≤ 2 ^ 53) :
    (engine.sync model cursor).IsFull := by
  have points := (engine.revealablePoints_le model cursor.window).trans exact
  exact full.rescale fits (points.trans_lt (by norm_num))

/-- An update of a full cursor draws its window completely. -/
theorem drawsWindow_update
    {cursor : ViewCursor}
    (full : cursor.IsFull)
    (fits : cursor.progressMax < 2 ^ 64)
    (filled : ∀ layer ∈ model.layers, layer.Filled)
    (exact : model.segmentCount ≤ 2 ^ 53) :
    engine.DrawsWindow model cursor.window (engine.update model cursor).2 := by
  have points := (engine.revealablePoints_le model cursor.window).trans exact
  have count := engine.progressMax_sync model cursor
  rw [← revealablePoints_eq] at count
  have revealed := (engine.isFull_sync model full fits exact).revealed_eq (count.trans_le points)
  have enough :
      (engine.revealOrder (engine.sync model cursor).window model.indexedLayers).length ≤
        (engine.sync model cursor).revealed := by
    rw [revealed, progressMax_sync, window_sync]
  have draws := engine.drawsWindow_evaluate model filled enough
  rwa [window_sync] at draws

section Full

/-- The tolerance of either mode is finite. -/
theorem isFinite_tolerance : engine.tolerance.isFinite = true := by
  unfold tolerance
  cases engine.mode <;> rfl

theorem tolerance_nonneg : 0 ≤ Binary64.value engine.tolerance := by
  unfold tolerance
  cases engine.mode with
  | layerIndex => exact le_rfl
  | height =>
      have zeroLe : (0.0 : Float) ≤ heightTolerance := by decide +kernel
      exact (Binary64.le_iff.mp zeroLe).2.2

/-- A key between the bounds lies in the window, whatever the tolerance. -/
theorem inWindow_of_between
    {window : LayerWindow}
    {key : Float}
    (above : window.lower ≤ key)
    (below : key ≤ window.upper) :
    engine.inWindow window key = true := by
  obtain ⟨lowerNumber, _, _⟩ := Binary64.le_iff.mp above
  obtain ⟨_, upperNumber, _⟩ := Binary64.le_iff.mp below
  have lowered : window.lower - engine.tolerance ≤ window.lower :=
    Binary64.sub_le lowerNumber engine.isFinite_tolerance engine.tolerance_nonneg
  have raised : window.upper ≤ window.upper + engine.tolerance :=
    Binary64.le_add upperNumber engine.isFinite_tolerance engine.tolerance_nonneg
  unfold inWindow LayerWindow.containsWithin
  rw [Bool.and_eq_true, decide_eq_true_eq, decide_eq_true_eq]
  exact ⟨Binary64.le_trans lowered above, Binary64.le_trans below raised⟩

/-- The keys of all layers lie in the range of a cursor. -/
theorem key_in_cursorRange
    {layer : Layer}
    {index : Nat}
    (found : model.layers[index]? = some layer)
    (number : layer.z.isNaN = false)
    (exact : model.layerCount ≤ 2 ^ 53) :
    (engine.cursorRange model).1 ≤ engine.layerKey layer index ∧
      engine.layerKey layer index ≤ (engine.cursorRange model).2 := by
  unfold cursorRange layerKey
  cases engine.mode with
  | layerIndex =>
      obtain ⟨inModel, _⟩ := Array.getElem?_eq_some_iff.mp found
      change index < model.layerCount at inModel
      refine ⟨ViewCursor.zero_le_ofNat index, Binary64.le_iff.mpr
        ⟨Binary64.isNaN_ofNat _, Binary64.isNaN_ofNat _, ?_⟩⟩
      rw [Binary64.value_ofNat (by omega), Binary64.value_ofNat (by omega)]
      exact_mod_cast Nat.le_sub_one_of_lt inModel
  | height =>
      exact Model.height_in_heightRange
        (Array.mem_toList_iff.mpr (Array.mem_of_getElem? found)) number

/-- All layers whose heights are numbers lie in the window of a full cursor. -/
theorem inWindow_fullCursor
    {layer : Layer}
    {index : Nat}
    (found : model.layers[index]? = some layer)
    (number : layer.z.isNaN = false)
    (exact : model.layerCount ≤ 2 ^ 53) :
    engine.inWindow (engine.fullCursor model).window (engine.layerKey layer index) = true := by
  obtain ⟨above, below⟩ := engine.key_in_cursorRange model found number exact
  have window :
      (engine.fullCursor model).window =
        .between (engine.cursorRange model).1 (engine.cursorRange model).2 :=
    engine.window_sync model _
  rw [window]
  exact engine.inWindow_of_between above
    (Binary64.le_trans below
      (Binary64.left_le_larger (engine.isNaN_cursorRange model).2))

end Full

end WindowEngine

namespace VisibilityFrame

/-- A frame that draws a whole model. -/
structure DrawsAll (frame : VisibilityFrame) (model : Model) : Prop where
  /-- Each layer is decided about once, and visible. -/
  layers :
    frame.layers.toList.map LayerVisibility.layer = List.range model.layerCount ∧
      ∀ decided ∈ frame.layers.toList, decided.visible = true
  /-- Each move is decided about once, in the order of the layers and of their moves. -/
  keys :
    (frame.moves.toList.map fun decided => (decided.layer, decided.moveIndex)) =
      model.indexedLayers.flatMap fun (layer, index) =>
        (List.range layer.moves.size).map (index, ·)
  /-- The moves are drawn to their ends. -/
  moves :
    ∀ decided ∈ frame.moves.toList,
      ∃ layer move,
        model.layers[decided.layer]? = some layer ∧
          layer.moves[decided.moveIndex]? = some move ∧
          decided.segmentCount = move.segmentCount ∧
          decided.drawnSegments = decided.segmentCount ∧
          decided.isPartial = false
  drawn : frame.drawnSegmentCount = model.segmentCount

end VisibilityFrame

namespace WindowEngine

variable (engine : WindowEngine)

/-- A frame that draws a window with all layers draws the whole model. -/
theorem DrawsWindow.drawsAll
    {model : Model}
    {cursor : ViewCursor}
    (draws : engine.DrawsWindow model cursor.window (engine.evaluate model cursor))
    (inWindow : ∀ index layer, model.layers[index]? = some layer →
      engine.inWindow cursor.window (engine.layerKey layer index) = true) :
    (engine.evaluate model cursor).DrawsAll model where
  layers := by
    rw [evaluate_eq]
    dsimp only
    constructor
    · rw [List.map_map, Model.layerCount, ← Array.length_toList, List.range_eq_range',
        ← List.zipIdx_map_snd]
      rfl
    · intro decided member
      obtain ⟨⟨layer, index⟩, isEntry, rfl⟩ := List.mem_map.mp member
      exact inWindow index layer (Model.mem_indexedLayers_iff.mp isEntry)
  keys := by
    rw [evaluate_eq]
    exact engine.keys_decidedMoves cursor.window cursor.revealed model.indexedLayers
  moves decided member := by
    obtain ⟨layer, move, found, isMove, count, drawn⟩ := draws.moves decided member
    rw [if_pos (inWindow decided.layer layer found), ← count] at drawn
    refine ⟨layer, move, found, isMove, count, drawn, ?_⟩
    rw [MoveVisibility.isPartial, drawn]
    simp
  drawn := by
    have allInWindow :
        model.indexedLayers.filter (fun entry =>
            engine.inWindow cursor.window (engine.layerKey entry.1 entry.2)) =
          model.indexedLayers := by
      refine List.filter_eq_self.mpr fun entry isEntry => ?_
      exact inWindow entry.2 entry.1 (Model.mem_indexedLayers_iff.mp isEntry)
    rw [draws.drawn, windowPoints, allInWindow, Model.segmentCount_eq]

/-- A full cursor draws the whole of a built model, before and after an update. -/
theorem fullCursor_drawsAll
    (options : BuildOptions)
    (text : String)
    (layers : (build options text).model.layerCount ≤ 2 ^ 53)
    (segments : (build options text).model.segmentCount ≤ 2 ^ 53) :
    let model := (build options text).model
    let cursor := engine.fullCursor model
    (engine.evaluate model cursor).DrawsAll model ∧
      engine.update model cursor = (cursor, engine.evaluate model cursor) := by
  intro model cursor
  have unchanged : engine.sync model cursor = cursor := engine.sync_sync model _
  have updated : engine.update model cursor = (cursor, engine.evaluate model cursor) := by
    rw [update, unchanged]
  have fits : model.segmentCount < 2 ^ 64 := segments.trans_lt (by norm_num)
  have inRange := engine.fullCursor_inRange model fits
  have full : cursor.IsFull :=
    engine.isFull_sync model (ViewCursor.isFull_ofWindow _) (Nat.two_pow_pos 64) segments
  have draws :=
    engine.drawsWindow_update model full inRange.fits (fun _ => filled_of_mem_build) segments
  rw [updated] at draws
  refine ⟨draws.drawsAll engine fun index layer found => ?_, updated⟩
  exact engine.inWindow_fullCursor model found
    (isNaN_z_of_mem_build (Array.mem_of_getElem? found)) layers

/-- A window engine whose band is negative draws a deposit and a travel completely. -/
theorem fullCursor_drawsAll_negativeBand :
    let engine : WindowEngine := { step := -1.0, slack := Binary64.infinity }
    let model := (build {} "G1 X1 E1\nG1 Z0.2\nG1 X2").model
    (model.layerCount ≤ 2 ^ 53 ∧ model.segmentCount ≤ 2 ^ 53) ∧
      (engine.evaluate model (engine.fullCursor model)).DrawsAll model ∧
      (engine.evaluate model (engine.fullCursor model)).drawnSegmentCount = 3 := by
  intro engine model
  have layers : model.layerCount ≤ 2 ^ 53 := by decide +kernel
  have segments : model.segmentCount ≤ 2 ^ 53 := by decide +kernel
  have count : model.segmentCount = 3 := by decide +kernel
  have draws := (engine.fullCursor_drawsAll {} _ layers segments).1
  exact ⟨⟨layers, segments⟩, draws, draws.drawn.trans count⟩

end WindowEngine

namespace CursorAction

/--
Any action but a new progress.  Counts fit into 64 bits, and models are made by
filling layers, as those of builds are, with segments that doubles can count.
-/
def KeepsFull : CursorAction → Prop
  | setLower _ => True
  | setUpper _ => True
  | setProgress _ => False
  | rescale count => count < 2 ^ 64
  | sync _ model => (∀ layer ∈ model.layers, layer.Filled) ∧ model.segmentCount ≤ 2 ^ 53
  | update _ model => (∀ layer ∈ model.layers, layer.Filled) ∧ model.segmentCount ≤ 2 ^ 53

end CursorAction

namespace ViewCursor

/-- Every operation but setting the progress keeps a cursor full; this is the step of the run. -/
theorem isFull_apply
    {cursor : ViewCursor}
    (full : cursor.IsFull)
    (fits : cursor.progressMax < 2 ^ 64)
    {action : CursorAction}
    (keeps : action.KeepsFull) :
    (action.apply cursor).IsFull ∧ (action.apply cursor).progressMax < 2 ^ 64 := by
  have synced
      (engine : WindowEngine)
      {model : Model}
      (exact : model.segmentCount ≤ 2 ^ 53) :
      (engine.sync model cursor).IsFull ∧ (engine.sync model cursor).progressMax < 2 ^ 64 := by
    refine ⟨engine.isFull_sync model full fits exact, ?_⟩
    have points := (engine.revealablePoints_le model cursor.window).trans exact
    rw [engine.progressMax_sync, ← engine.revealablePoints_eq]
    exact points.trans_lt (by norm_num)
  cases action with
  | setLower value => exact ⟨full, fits⟩
  | setUpper value => exact ⟨full, fits⟩
  | setProgress value => exact keeps.elim
  | rescale count =>
      exact ⟨full.rescale fits keeps, (progressMax_rescale cursor count).trans_lt keeps⟩
  | sync engine model => exact synced engine keeps.2
  | update engine model => exact synced engine keeps.2

/-- A run of such operations keeps a cursor full. -/
theorem isFull_run
    {cursor : ViewCursor}
    (full : cursor.IsFull)
    (fits : cursor.progressMax < 2 ^ 64)
    {actions : List CursorAction}
    (keeps : ∀ action ∈ actions, action.KeepsFull) :
    (cursor.run actions).IsFull ∧ (cursor.run actions).progressMax < 2 ^ 64 :=
  List.foldlRecOn actions CursorAction.apply
    (motive := fun reached => reached.IsFull ∧ reached.progressMax < 2 ^ 64) ⟨full, fits⟩
    fun _ reached action member => isFull_apply reached.1 reached.2 (keeps action member)

/-- A run that keeps a cursor full, so that all of its frames draw their windows completely. -/
structure StaysFull (start : ViewCursor) (actions : List CursorAction) : Prop where
  /-- The cursor is full after each of the actions. -/
  full : ∀ before after, actions = before ++ after → (start.run before).IsFull
  /-- Each update draws the window that the cursor has then. -/
  frames :
    ∀ before engine model after,
      actions = before ++ .update engine model :: after →
        engine.DrawsWindow model (start.run before).window
          (engine.update model (start.run before)).2

/-- A full cursor stays full as long as no progress is set. -/
theorem staysFull_run
    {start : ViewCursor}
    (full : start.IsFull)
    (fits : start.progressMax < 2 ^ 64)
    (actions : List CursorAction)
    (keeps : ∀ action ∈ actions, action.KeepsFull) :
    StaysFull start actions where
  full before after split := by
    subst split
    exact (isFull_run full fits
      fun action member => keeps action (List.mem_append_left _ member)).1
  frames before engine model after split := by
    subst split
    obtain ⟨reachedFull, reachedFits⟩ :=
      isFull_run full fits fun action member => keeps action (List.mem_append_left _ member)
    obtain ⟨filled, exact⟩ :=
      keeps (.update engine model) (List.mem_append_right _ List.mem_cons_self)
    exact engine.drawsWindow_update model reachedFull reachedFits filled exact

/-- A window that leaves a built model and comes back shows the whole layer again. -/
theorem staysFull_emptyWindow :
    let start : ViewCursor := .ofWindow (.between 0.0 0.0)
    let model := (build {} "G1 X1 E1\nG1 X2 E2").model
    let earlier : List CursorAction :=
      [.update {} model, .setLower 5.0, .update {} model, .rescale 7, .setUpper 0.0]
    let actions := earlier ++ [.update {} model]
    (start.IsFull ∧ start.progressMax < 2 ^ 64 ∧ ∀ action ∈ actions, action.KeepsFull) ∧
      StaysFull start actions ∧
      (WindowEngine.update {} model (start.run earlier)).2.drawnSegmentCount = 2 := by
  intro start model earlier actions
  have full : start.IsFull := isFull_ofWindow _
  have fits : start.progressMax < 2 ^ 64 := by decide
  have isBuilt : (∀ layer ∈ model.layers, layer.Filled) ∧ model.segmentCount ≤ 2 ^ 53 :=
    ⟨fun _ => filled_of_mem_build, by decide +kernel⟩
  have few : 7 < 2 ^ 64 := by decide
  have keeps : ∀ action ∈ actions, action.KeepsFull := by
    simp only [actions, earlier, List.cons_append, List.nil_append, List.forall_mem_cons]
    exact ⟨isBuilt, trivial, isBuilt, few, trivial, isBuilt, List.forall_mem_nil _⟩
  have stays := staysFull_run full fits actions keeps
  have drawn := (stays.frames earlier {} model [] rfl).drawn
  exact ⟨⟨full, fits, keeps⟩, stays, drawn.trans (by decide +kernel)⟩

end ViewCursor

end LayerPlayback
