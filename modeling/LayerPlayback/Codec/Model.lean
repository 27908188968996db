import LayerPlayback.Codec.Position
import LayerPlayback.Model.Bounds
import LayerPlayback.Model.Polyline
import LayerPlayback.Model.StepHistogram

namespace LayerPlayback

/-!
# JSON forms of models

A model is read as it is written: the moves of a layer are not checked against
its segments, and a model may have no layers.
-/

/-- A kind of move in JSON. -/
def MoveKind.toJson (kind : MoveKind) : Json :=
  .string kind.label

/-- Read a kind of move. -/
def MoveKind.ofJson? (json : Json) : Option MoveKind :=
  match json.unitCase? with
  | some "travel" => some .travel
  | some "deposit" => some .deposit
  | _ => none

/-- A segment in JSON. -/
def Segment.toJson (segment : Segment) : Json :=
  .object
    [ ("start", segment.start.toJson),
      ("end", segment.finish.toJson),
      ("depositing", .bool segment.deposits) ]

/-- Read a segment. -/
def Segment.ofJson? (json : Json) : Option Segment :=
  match json.record? ["start", "end", "depositing"] with
  | some [start, finish, deposits] => do
      some
        { start := ← Json.required? Point.ofJson? start
          finish := ← Json.required? Point.ofJson? finish
          deposits := ← Json.required? Json.bool? deposits }
  | _ => none

/-- A move in JSON. -/
def Move.toJson (move : Move) : Json :=
  .object
    [ ("kind", move.kind.toJson),
      ("first_segment", .ofNat move.firstSegment),
      ("segment_count", .ofNat move.segmentCount) ]

/-- Read a move. -/
def Move.ofJson? (json : Json) : Option Move :=
  match json.record? ["kind", "first_segment", "segment_count"] with
  | some [kind, firstSegment, segmentCount] => do
      some
        { kind := ← Json.required? MoveKind.ofJson? kind
          firstSegment := ← Json.required? Json.natural? firstSegment
          segmentCount := ← Json.required? Json.natural? segmentCount }
  | _ => none

/-- A layer in JSON. -/
def Layer.toJson (layer : Layer) : Json :=
  .object
    [ ("z", .ofFloat layer.z),
      ("segments", .ofList Segment.toJson layer.segments.toList),
      ("moves", .ofList Move.toJson layer.moves.toList) ]

/-- Read a layer. -/
def Layer.ofJson? (json : Json) : Option Layer :=
  match json.record? ["z", "segments", "moves"] with
  | some [z, segments, moves] => do
      let z ← Json.required? Json.float? z
      let segments ← Json.required? (Json.list? Segment.ofJson?) segments
      let moves ← Json.required? (Json.list? Move.ofJson?) moves
      some ⟨z, segments.toArray, moves.toArray⟩
  | _ => none

/-- A model in JSON. -/
def Model.toJson (model : Model) : Json :=
  .object
    [ ("layers", .ofList Layer.toJson model.layers.toList),
      ("path_width", .ofFloat model.pathWidth) ]

/-- Read a model. -/
def Model.ofJson? (json : Json) : Option Model :=
  match json.record? ["layers", "path_width"] with
  | some [layers, pathWidth] => do
      let layers ← Json.required? (Json.list? Layer.ofJson?) layers
      let pathWidth ← Json.required? Json.float? pathWidth
      some ⟨layers.toArray, pathWidth⟩
  | _ => none

/-- A box in JSON. -/
def Bounds.toJson (bounds : Bounds) : Json :=
  .object
    [ ("min_x", .ofFloat bounds.minX),
      ("max_x", .ofFloat bounds.maxX),
      ("min_y", .ofFloat bounds.minY),
      ("max_y", .ofFloat bounds.maxY),
      ("min_z", .ofFloat bounds.minZ),
      ("max_z", .ofFloat bounds.maxZ) ]

/-- Read a box. -/
def Bounds.ofJson? (json : Json) : Option Bounds :=
  match json.record? ["min_x", "max_x", "min_y", "max_y", "min_z", "max_z"] with
  | some [minX, maxX, minY, maxY, minZ, maxZ] => do
      some
        { minX := ← Json.required? Json.float? minX
          maxX := ← Json.required? Json.float? maxX
          minY := ← Json.required? Json.float? minY
          maxY := ← Json.required? Json.float? maxY
          minZ := ← Json.required? Json.float? minZ
          maxZ := ← Json.required? Json.float? maxZ }
  | _ => none

/-- A polyline in JSON. -/
def Polyline.toJson (polyline : Polyline) : Json :=
  .object
    [ ("layer", .ofNat polyline.layer),
      ("index", .ofNat polyline.index),
      ("kind", polyline.kind.toJson),
      ("first_point", .ofNat polyline.firstPoint),
      ("vertices", .ofList Point.toJson polyline.vertices.toList) ]

/-- Read a polyline. -/
def Polyline.ofJson? (json : Json) : Option Polyline :=
  match json.record? ["layer", "index", "kind", "first_point", "vertices"] with
  | some [layer, index, kind, firstPoint, vertices] => do
      let points ← Json.required? (Json.list? Point.ofJson?) vertices
      some
        { layer := ← Json.required? Json.natural? layer
          index := ← Json.required? Json.natural? index
          kind := ← Json.required? MoveKind.ofJson? kind
          firstPoint := ← Json.required? Json.natural? firstPoint
          vertices := points.toArray }
  | _ => none

/-- A step inference in JSON. -/
def StepInference.toJson (inference : StepInference) : Json :=
  .object
    [ ("precision_digits", .ofNat inference.precisionDigits.toNat),
      ("fallback_step", .ofFloat inference.fallbackStep) ]

/-- Read a step inference. -/
def StepInference.ofJson? (json : Json) : Option StepInference :=
  match json.record? ["precision_digits", "fallback_step"] with
  | some [precisionDigits, fallbackStep] => do
      some
        { precisionDigits := ← Json.required? Json.uint32? precisionDigits
          fallbackStep := ← Json.required? Json.float? fallbackStep }
  | _ => none

end LayerPlayback
