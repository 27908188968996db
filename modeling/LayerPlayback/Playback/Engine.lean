import LayerPlayback.Playback.Cursor
import LayerPlayback.Playback.Frame

namespace LayerPlayback

/-!
# Window engines

A layer is visible when its key, its height or its index, lies in the window, and
current when it is also close to the upper bound.  Current layers are revealed in
build order as one sequence of segments, up to the progress of the cursor; other
visible layers are drawn completely.
-/

/-- How windows select layers. -/
structure WindowEngine where
  mode : CursorMode := .height
  /-- The nominal layer step. -/
  step : Float := 0.2
  /-- How much the band of current layers is narrower than a step. -/
  slack : Float := 0.05
  deriving Repr, BEq

namespace WindowEngine

/-- How far a height may lie outside the window; sums of moves are not exact. -/
def heightTolerance : Float := 1e-6

/-- The least and the greatest key, for the range of a control. -/
def cursorRange (engine : WindowEngine) (model : Model) : Float × Float :=
  match engine.mode with
  | .layerIndex => (0.0, Float.ofNat (model.layerCount - 1))
  | .height => model.heightRange

/-- The distance between neighbouring positions of a control. -/
def cursorGranularity (engine : WindowEngine) : Float :=
  match engine.mode with
  | .layerIndex => 1.0
  | .height => engine.step

/-- What the bounds of a window are compared with. -/
def layerKey (engine : WindowEngine) (layer : Layer) (index : Nat) : Float :=
  match engine.mode with
  | .layerIndex => Float.ofNat index
  | .height => layer.z

/-- How far a key may lie outside the window. -/
def tolerance (engine : WindowEngine) : Float :=
  match engine.mode with
  | .layerIndex => 0.0
  | .height => heightTolerance

/-- Whether a key lies in the window. -/
def inWindow (engine : WindowEngine) (window : LayerWindow) (key : Float) : Bool :=
  window.containsWithin key engine.tolerance

/--
How close to the upper bound a current layer is.  The slack narrows the band, but
never below half a step.
-/
def currentBand (engine : WindowEngine) : Float :=
  match engine.mode with
  | .layerIndex => 0.5
  | .height => Binary64.larger (engine.step - engine.slack) (engine.step / 2.0)

/-- Whether a key belongs to a current layer. -/
def isCurrent (engine : WindowEngine) (window : LayerWindow) (key : Float) : Bool :=
  engine.inWindow window key && (key - window.upper).abs < engine.currentBand

/-- What is decided about one layer. -/
def layerVisibility
    (engine : WindowEngine)
    (window : LayerWindow)
    (entry : Layer × Nat) :
    LayerVisibility :=
  let key := engine.layerKey entry.1 entry.2
  { layer := entry.2
    visible := engine.inWindow window key
    current := engine.isCurrent window key }

/-- Whether one layer is current. -/
def isCurrentLayer
    (engine : WindowEngine)
    (window : LayerWindow)
    (entry : Layer × Nat) :
    Bool :=
  engine.isCurrent window (engine.layerKey entry.1 entry.2)

/-- The indices of the current layers in build order. -/
def currentLayers
    (engine : WindowEngine)
    (model : Model)
    (window : LayerWindow) :
    List Nat :=
  (model.indexedLayers.filter (engine.isCurrentLayer window)).map Prod.snd

/-- How many segments the current layers have together. -/
def revealablePoints
    (engine : WindowEngine)
    (model : Model)
    (window : LayerWindow) :
    Nat :=
  (model.indexedLayers.filter (engine.isCurrentLayer window)).foldl
    (fun count entry => count + entry.1.pointCount) 0

/-- Bring the progress range of a cursor in line with its window. -/
def sync (engine : WindowEngine) (model : Model) (cursor : ViewCursor) : ViewCursor :=
  cursor.rescale (engine.revealablePoints model cursor.window)

/-- A cursor over the whole model with everything revealed. -/
def fullCursor (engine : WindowEngine) (model : Model) : ViewCursor :=
  let (lower, upper) := engine.cursorRange model
  engine.sync model (.ofWindow (.between lower upper))

/-- How many segments of a move are drawn when a number of its layer's may be revealed. -/
def drawnSegments (visibility : LayerVisibility) (revealed : Nat) (move : Move) : Nat :=
  if !visibility.visible then
    0
  else if visibility.current then
    min (revealed - move.firstSegment) move.segmentCount
  else
    move.segmentCount

/-- What is decided about one move of a layer. -/
def moveVisibility
    (visibility : LayerVisibility)
    (revealed : Nat)
    (entry : Move × Nat) :
    MoveVisibility :=
  let (move, moveIndex) := entry
  let drawn := drawnSegments visibility revealed move
  { layer := visibility.layer
    moveIndex := moveIndex
    visible := 0 < drawn
    material := ⟨move.kind, visibility.current⟩
    drawnSegments := drawn
    segmentCount := move.segmentCount }

/-- A frame in progress, with what is left to reveal in the layers to come. -/
structure Reveal where
  layers : Array LayerVisibility := #[]
  moves : Array MoveVisibility := #[]
  progressMax : Nat := 0
  remaining : Nat
  deriving Repr

/-- Decide about one more layer. -/
def revealLayer
    (engine : WindowEngine)
    (window : LayerWindow)
    (reveal : Reveal)
    (entry : Layer × Nat) :
    Reveal :=
  let visibility := engine.layerVisibility window entry
  let points := if visibility.current then entry.1.pointCount else 0
  { layers := reveal.layers.push visibility
    moves := reveal.moves
      ++ entry.1.moves.toList.zipIdx.map (moveVisibility visibility reveal.remaining)
    progressMax := reveal.progressMax + points
    remaining := reveal.remaining - points }

/-- Decide about every layer and move of a model. -/
def evaluate (engine : WindowEngine) (model : Model) (cursor : ViewCursor) : VisibilityFrame :=
  let reveal :=
    model.indexedLayers.foldl
      (engine.revealLayer cursor.window)
      { remaining := cursor.revealed }
  { layers := reveal.layers
    moves := reveal.moves
    progressMax := reveal.progressMax }

/-- Sync a cursor, then decide about the model. -/
def update
    (engine : WindowEngine)
    (model : Model)
    (cursor : ViewCursor) :
    ViewCursor × VisibilityFrame :=
  let synced := engine.sync model cursor
  (synced, engine.evaluate model synced)

end WindowEngine

end LayerPlayback
