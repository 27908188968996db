import LayerPlayback.Proofs.Playback.FullReveal

namespace LayerPlayback.WindowEngine

/-!
# Cursors and frames are in step

The current layers are found twice: a list of them says how far the progress of a cursor
ranges, and the pass that makes a frame finds them again while it draws.  Both find the
same layers and the same number of segments in every model, also in one whose moves do not
cover its segments.  So an updated cursor ranges over what its frame reveals, and updating
it again changes neither of them.
-/

variable (engine : WindowEngine) (model : Model) (cursor : ViewCursor)

/-- A frame marks exactly the layers that are listed as current, in the same order. -/
theorem currentLayers_evaluate :
    (engine.evaluate model cursor).currentLayers =
      engine.currentLayers model cursor.window := by
  have sameTest :
      LayerVisibility.current ∘ engine.layerVisibility cursor.window =
        engine.isCurrentLayer cursor.window := by
    funext entry
    exact engine.current_layerVisibility cursor.window entry
  rw [evaluate_eq, VisibilityFrame.currentLayers, List.filter_map, sameTest, List.map_map]
  rfl

theorem progressMax_evaluate :
    (engine.evaluate model cursor).progressMax =
      engine.revealablePoints model cursor.window := by
  rw [evaluate_eq, revealablePoints_eq]

/-- The layers that are listed as current hold the segments that can be revealed. -/
theorem revealablePoints_eq_sum (window : LayerWindow) :
    engine.revealablePoints model window =
      (((engine.currentLayers model window).filterMap (model.layers[·]?)).map
        Layer.pointCount).sum := by
  have found :
      (engine.currentLayers model window).filterMap (model.layers[·]?) =
        (model.indexedLayers.filter (engine.isCurrentLayer window)).map Prod.fst := by
    rw [currentLayers, List.filterMap_map, ← List.filterMap_eq_map]
    apply List.filterMap_congr
    rintro ⟨layer, index⟩ member
    exact Model.mem_indexedLayers_iff.mp (List.mem_of_mem_filter member)
  rw [found, List.map_map, revealablePoints, foldl_add_eq, Nat.zero_add]
  rfl

theorem progressMax_sync_eq :
    (engine.sync model cursor).progressMax = engine.revealablePoints model cursor.window := by
  rw [progressMax_sync, revealablePoints_eq]

/-- How a cursor and its frame are kept in step by an engine. -/
structure KeepsInStep (engine : WindowEngine) (model : Model) (cursor : ViewCursor) : Prop where
  currentLayers :
    (engine.evaluate model cursor).currentLayers = engine.currentLayers model cursor.window
  progressMax :
    (engine.evaluate model cursor).progressMax = engine.revealablePoints model cursor.window
  /-- What can be revealed are the segments of the listed layers. -/
  points :
    engine.revealablePoints model cursor.window =
      (((engine.currentLayers model cursor.window).filterMap (model.layers[·]?)).map
        Layer.pointCount).sum
  /-- An update does not move the window. -/
  window : (engine.update model cursor).1.window = cursor.window
  /-- After an update the progress ranges over what the frame reveals, -/
  rangeOfFrame :
    (engine.update model cursor).1.progressMax = (engine.update model cursor).2.progressMax
  /-- which is what the window lets it reveal. -/
  rangeOfWindow :
    (engine.update model cursor).1.progressMax = engine.revealablePoints model cursor.window
  /-- A second update gives the same frame and leaves the cursor as it is. -/
  again :
    engine.update model (engine.update model cursor).1 = engine.update model cursor

/-- Every engine keeps every cursor in step with its frame, whatever the model is. -/
theorem keepsInStep_update : engine.KeepsInStep model cursor where
  currentLayers := engine.currentLayers_evaluate model cursor
  progressMax := engine.progressMax_evaluate model cursor
  points := engine.revealablePoints_eq_sum model cursor.window
  window := engine.window_sync model cursor
  rangeOfFrame := by
    have synced := engine.progressMax_sync_eq model cursor
    have framed := engine.progressMax_evaluate model (engine.sync model cursor)
    rw [window_sync] at framed
    exact synced.trans framed.symm
  rangeOfWindow := engine.progressMax_sync_eq model cursor
  again := by
    have settled := engine.sync_sync model cursor
    simp only [update, settled]

/-- A move that claims more segments than its layer has does not widen the range. -/
example :
    let segment : Segment := ⟨{}, { x := 1.0 }, true⟩
    let model : Model :=
      ⟨#[{ z := 0.2, segments := #[segment], moves := #[⟨.deposit, 0, 5⟩] }], 0.4⟩
    let updated := WindowEngine.update {} model (.ofWindow ⟨0.0, 0.2⟩)
    updated.1.progressMax = 1 ∧ updated.2.currentLayers = [0] := by
  decide +kernel

end LayerPlayback.WindowEngine
