import LayerPlayback.Model.Layer

namespace LayerPlayback

/-!
# Models

A model is a sequence of layers in the order in which they were made.  A height
may come back later, in a layer of its own.
-/

/-- Layers in build order, and the nominal width of the drawn path. -/
structure Model where
  layers : Array Layer
  /-- The nominal line width, a hint for drawing. -/
  pathWidth : Float
  deriving Repr, BEq

namespace Model

/-- The line width of a model that is not given one. -/
def defaultPathWidth : Float := 0.4

/-- A model with one empty layer. -/
def startingAt (z pathWidth : Float) : Model :=
  ⟨#[{ z := z }], pathWidth⟩

/-- The model of nothing: one empty layer at height zero. -/
def empty : Model :=
  .startingAt 0.0 defaultPathWidth

/-- A model with the given layers; no layers give one empty layer at height zero. -/
def ofLayers (layers : List Layer) (pathWidth : Float) : Model :=
  match layers with
  | [] => .startingAt 0.0 pathWidth
  | _ :: _ => ⟨layers.toArray, pathWidth⟩

/-- How many layers the model has. -/
def layerCount (model : Model) : Nat :=
  model.layers.size

/-- The layers with their indices. -/
def indexedLayers (model : Model) : List (Layer × Nat) :=
  model.layers.toList.zipIdx

/-- The segments of all layers in build order. -/
def segments (model : Model) : List Segment :=
  model.layers.toList.flatMap fun layer => layer.segments.toList

/-- How many segments all layers have together. -/
def segmentCount (model : Model) : Nat :=
  model.layers.toList.foldl (fun count layer => count + layer.pointCount) 0

/-- How many moves all layers have together. -/
def moveCount (model : Model) : Nat :=
  model.layers.toList.foldl (fun count layer => count + layer.moves.size) 0

/-- Whether no layer has a segment. -/
def isEmpty (model : Model) : Bool :=
  model.layers.toList.all Layer.isEmpty

/-- The lowest and the highest layer height; an empty range without layers. -/
def heightRange (model : Model) : Float × Float :=
  model.layers.toList.foldl
    (fun (lowest, highest) layer =>
      (Binary64.smaller lowest layer.z, Binary64.larger highest layer.z))
    (Binary64.infinity, -Binary64.infinity)

end Model

end LayerPlayback
