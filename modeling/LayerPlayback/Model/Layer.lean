import LayerPlayback.Model.Segment

namespace LayerPlayback

/-!
# Layers

A layer holds the segments of one stretch of activity at one height, and groups
them into moves: runs of consecutive segments of one kind.  Adding a segment
extends the last run or starts a new one, so the runs of a layer that is filled
by `push` are maximal and cover its segments in order.
-/

/-- A run of consecutive segments of one kind within a layer. -/
structure Move where
  kind : MoveKind
  /-- The index of the first segment in the layer. -/
  firstSegment : Nat
  segmentCount : Nat
  deriving Repr, DecidableEq

namespace Move

/-- The index after the last segment of a move. -/
def endSegment (move : Move) : Nat :=
  move.firstSegment + move.segmentCount

/-- Whether a segment index belongs to a move. -/
def covers (move : Move) (segment : Nat) : Bool :=
  move.firstSegment ≤ segment && segment < move.endSegment

/-- The move with one more segment. -/
def extended (move : Move) : Move :=
  { move with segmentCount := move.segmentCount + 1 }

end Move

/-- The segments at one height, and their grouping into moves. -/
structure Layer where
  z : Float
  segments : Array Segment := #[]
  moves : Array Move := #[]
  deriving Repr, BEq

namespace Layer

/-- How many segments the layer has; each is one point of playback progress. -/
def pointCount (layer : Layer) : Nat :=
  layer.segments.size

/-- Whether the layer has no segment. -/
def isEmpty (layer : Layer) : Bool :=
  layer.segments.isEmpty

/-- The moves after one more segment of a kind, which stands at an index. -/
def extendMoves (moves : Array Move) (kind : MoveKind) (index : Nat) : Array Move :=
  match moves.back? with
  | some last =>
      if last.kind = kind then
        moves.pop.push last.extended
      else
        moves.push ⟨kind, index, 1⟩
  | none => moves.push ⟨kind, index, 1⟩

/-- The layer with one more segment. -/
def push (layer : Layer) (segment : Segment) : Layer :=
  let index := layer.segments.size
  { layer with
    segments := layer.segments.push segment
    moves := extendMoves layer.moves segment.kind index }

/-- A layer at a height that is filled with segments one by one. -/
def ofSegments (z : Float) (segments : List Segment) : Layer :=
  segments.foldl push { z := z }

/-- The segments of one move. -/
def moveSegments (layer : Layer) (moveIndex : Nat) : List Segment :=
  match layer.moves[moveIndex]? with
  | some move => (layer.segments.toList.drop move.firstSegment).take move.segmentCount
  | none => []

/-- The first move that covers a segment, with its index. -/
def covering? (layer : Layer) (segment : Nat) : Option (Move × Nat) :=
  layer.moves.toList.zipIdx.find? fun (move, _) => move.covers segment

/-- The total length of the segments that deposit material. -/
def depositLength (layer : Layer) : Float :=
  Binary64.sum ((layer.segments.toList.filter Segment.deposits).map Segment.length)

@[simp] theorem z_push (layer : Layer) (segment : Segment) :
    (layer.push segment).z = layer.z :=
  rfl

@[simp] theorem toList_segments_push (layer : Layer) (segment : Segment) :
    (layer.push segment).segments.toList = layer.segments.toList ++ [segment] :=
  Array.toList_push

/-- Pushing segments one by one appends them. -/
theorem toList_segments_foldl_push (layer : Layer) (segments : List Segment) :
    (segments.foldl push layer).segments.toList = layer.segments.toList ++ segments := by
  induction segments generalizing layer with
  | nil => simp
  | cons first rest inductionHypothesis => simp [inductionHypothesis]

/-- A layer that is made of segments has these segments in their order. -/
@[simp] theorem toList_segments_ofSegments (z : Float) (segments : List Segment) :
    (ofSegments z segments).segments.toList = segments := by
  simp [ofSegments, toList_segments_foldl_push]

end Layer

end LayerPlayback
