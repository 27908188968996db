import LayerPlayback.Model

namespace LayerPlayback

/-!
# Visibility frames

A frame says for every layer whether it is visible and current, and for every
move how many of its segments are drawn, counted from its start.
-/

/-- How a move is to be drawn. -/
structure Material where
  kind : MoveKind
  /-- Whether the move is in a current layer. -/
  current : Bool
  deriving Repr, DecidableEq

/-- What is decided about a layer. -/
structure LayerVisibility where
  layer : Nat
  visible : Bool
  current : Bool
  deriving Repr, DecidableEq

/-- What is decided about a move. -/
structure MoveVisibility where
  layer : Nat
  moveIndex : Nat
  visible : Bool
  material : Material
  /-- How many segments are drawn from the start of the move. -/
  drawnSegments : Nat
  segmentCount : Nat
  deriving Repr, DecidableEq

namespace MoveVisibility

/-- Whether a move is drawn, but not to its end. -/
def isPartial (move : MoveVisibility) : Bool :=
  move.visible && move.drawnSegments < move.segmentCount

/-- How many vertices of the move are drawn: its start and one for each segment. -/
def drawRange (move : MoveVisibility) : Nat :=
  if move.visible then move.drawnSegments + 1 else 0

end MoveVisibility

/-- What is decided about a whole model. -/
structure VisibilityFrame where
  layers : Array LayerVisibility
  moves : Array MoveVisibility
  /-- How many segments the progress ranges over. -/
  progressMax : Nat
  deriving Repr, DecidableEq

namespace VisibilityFrame

/-- The moves of which something is drawn. -/
def visibleMoves (frame : VisibilityFrame) : List MoveVisibility :=
  frame.moves.toList.filter MoveVisibility.visible

/-- The indices of the current layers. -/
def currentLayers (frame : VisibilityFrame) : List Nat :=
  (frame.layers.toList.filter LayerVisibility.current).map LayerVisibility.layer

/-- Whether a layer exists and is visible. -/
def isLayerVisible (frame : VisibilityFrame) (layer : Nat) : Bool :=
  (frame.layers[layer]?.map LayerVisibility.visible).getD false

/-- What is decided about one move of a layer. -/
def move? (frame : VisibilityFrame) (layer moveIndex : Nat) : Option MoveVisibility :=
  frame.moves.find? fun move => move.layer = layer && move.moveIndex = moveIndex

/-- Whether a move draws a segment of its layer. -/
def drawsSegment (decided : MoveVisibility) (move : Move) (segment : Nat) : Bool :=
  decided.visible && segment - move.firstSegment < decided.drawnSegments

/-- Whether one segment of a layer is drawn, as part of the first move that covers it. -/
def isSegmentVisible
    (frame : VisibilityFrame)
    (model : Model)
    (layer segment : Nat) :
    Bool :=
  let found? := do
    let modelLayer ← model.layers[layer]?
    let (move, moveIndex) ← modelLayer.covering? segment
    let decided ← frame.move? layer moveIndex
    some (drawsSegment decided move segment)
  found?.getD false

/-- How many segments are drawn. -/
def drawnSegmentCount (frame : VisibilityFrame) : Nat :=
  frame.visibleMoves.foldl (fun count move => count + move.drawnSegments) 0

end VisibilityFrame

end LayerPlayback
