import LayerPlayback.Model

namespace LayerPlayback

/-!
# Polylines

For drawing, consecutive segments of one kind become one strip of vertices.
Polylines are made from the segments of a layer alone.
-/

/-- The vertices of one run of segments. -/
structure Polyline where
  /-- The index of the layer. -/
  layer : Nat
  /-- The ordinal of the polyline in its layer. -/
  index : Nat
  kind : MoveKind
  /-- The index in the layer of the first segment that is drawn. -/
  firstPoint : Nat
  /-- The first start, then one end for each segment. -/
  vertices : Array Point
  deriving Repr, BEq

namespace Polyline

/-- How many segments a polyline draws. -/
def segmentCount (polyline : Polyline) : Nat :=
  polyline.vertices.size - 1

/-- The index in the layer after the last segment that is drawn. -/
def endPoint (polyline : Polyline) : Nat :=
  polyline.firstPoint + polyline.segmentCount

/-- The polyline that also draws a segment. -/
def extended (polyline : Polyline) (segment : Segment) : Polyline :=
  { polyline with vertices := polyline.vertices.push segment.finish }

/-- A polyline that draws one segment. -/
def single (layer index : Nat) (segment : Segment) (firstPoint : Nat) : Polyline :=
  { layer := layer
    index := index
    kind := segment.kind
    firstPoint := firstPoint
    vertices := #[segment.start, segment.finish] }

/-- Draw one more segment of a layer, which stands at an index. -/
def addSegment
    (layer : Nat)
    (polylines : Array Polyline)
    (entry : Segment × Nat) :
    Array Polyline :=
  let started := single layer polylines.size entry.1 entry.2
  match polylines.back? with
  | some last =>
      if last.kind = entry.1.kind then
        polylines.pop.push (last.extended entry.1)
      else
        polylines.push started
  | none => polylines.push started

/-- The polylines of one layer. -/
def ofLayer (index : Nat) (layer : Layer) : List Polyline :=
  (layer.segments.toList.zipIdx.foldl (addSegment index) #[]).toList

/-- The polylines of every layer, in layer order. -/
def ofModel (model : Model) : List Polyline :=
  model.indexedLayers.flatMap fun (layer, index) => ofLayer index layer

end Polyline

end LayerPlayback
