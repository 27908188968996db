import LayerPlayback.Codec.Model
import LayerPlayback.Playback.Engine

namespace LayerPlayback

/-!
# JSON forms of windows, cursors, frames, and engines

The bounds of a window and the progress of a cursor are read as they are written.
-/

/-- A cursor mode in JSON. -/
def CursorMode.toJson (mode : CursorMode) : Json :=
  .string mode.label

/-- The cursor mode with a name. -/
def CursorMode.ofLabel? : String → Option CursorMode
  | "layer_index" => some .layerIndex
  | "height" => some .height
  | _ => none

/-- Read a cursor mode. -/
def CursorMode.ofJson? (json : Json) : Option CursorMode :=
  json.unitCase?.bind ofLabel?

/-- A window in JSON. -/
def LayerWindow.toJson (window : LayerWindow) : Json :=
  .object [("min", .ofFloat window.lower), ("max", .ofFloat window.upper)]

/-- Read a window. -/
def LayerWindow.ofJson? (json : Json) : Option LayerWindow :=
  match json.record? ["min", "max"] with
  | some [lower, upper] => do
      some
        { lower := ← Json.required? Json.float? lower
          upper := ← Json.required? Json.float? upper }
  | _ => none

/-- A cursor in JSON. -/
def ViewCursor.toJson (cursor : ViewCursor) : Json :=
  .object
    [ ("window", cursor.window.toJson),
      ("progress", .ofFloat cursor.progress),
      ("progress_max", .ofNat cursor.progressMax) ]

/-- Read a cursor. -/
def ViewCursor.ofJson? (json : Json) : Option ViewCursor :=
  match json.record? ["window", "progress", "progress_max"] with
  | some [window, progress, progressMax] => do
      some
        { window := ← Json.required? LayerWindow.ofJson? window
          progress := ← Json.required? Json.float? progress
          progressMax := ← Json.required? Json.natural? progressMax }
  | _ => none

/-- A material in JSON. -/
def Material.toJson (material : Material) : Json :=
  .object [("kind", material.kind.toJson), ("current", .bool material.current)]

/-- Read a material. -/
def Material.ofJson? (json : Json) : Option Material :=
  match json.record? ["kind", "current"] with
  | some [kind, current] => do
      some
        { kind := ← Json.required? MoveKind.ofJson? kind
          current := ← Json.required? Json.bool? current }
  | _ => none

/-- What is decided about a layer, in JSON. -/
def LayerVisibility.toJson (layer : LayerVisibility) : Json :=
  .object
    [ ("layer", .ofNat layer.layer),
      ("visible", .bool layer.visible),
      ("current", .bool layer.current) ]

/-- Read what is decided about a layer. -/
def LayerVisibility.ofJson? (json : Json) : Option LayerVisibility :=
  match json.record? ["layer", "visible", "current"] with
  | some [layer, visible, current] => do
      some
        { layer := ← Json.required? Json.natural? layer
          visible := ← Json.required? Json.bool? visible
          current := ← Json.required? Json.bool? current }
  | _ => none

/-- What is decided about a move, in JSON. -/
def MoveVisibility.toJson (move : MoveVisibility) : Json :=
  .object
    [ ("layer", .ofNat move.layer),
      ("move_index", .ofNat move.moveIndex),
      ("visible", .bool move.visible),
      ("material", move.material.toJson),
      ("drawn_segments", .ofNat move.drawnSegments),
      ("segment_count", .ofNat move.segmentCount) ]

/-- The names of what is decided about a move. -/
def MoveVisibility.names : List String :=
  ["layer", "move_index", "visible", "material", "drawn_segments", "segment_count"]

/-- Read what is decided about a move. -/
def MoveVisibility.ofJson? (json : Json) : Option MoveVisibility :=
  match json.record? names with
  | some [layer, moveIndex, visible, material, drawnSegments, segmentCount] => do
      some
        { layer := ← Json.required? Json.natural? layer
          moveIndex := ← Json.required? Json.natural? moveIndex
          visible := ← Json.required? Json.bool? visible
          material := ← Json.required? Material.ofJson? material
          drawnSegments := ← Json.required? Json.natural? drawnSegments
          segmentCount := ← Json.required? Json.natural? segmentCount }
  | _ => none

/-- A frame in JSON. -/
def VisibilityFrame.toJson (frame : VisibilityFrame) : Json :=
  .object
    [ ("layers", .ofList LayerVisibility.toJson frame.layers.toList),
      ("moves", .ofList MoveVisibility.toJson frame.moves.toList),
      ("progress_max", .ofNat frame.progressMax) ]

/-- Read a frame. -/
def VisibilityFrame.ofJson? (json : Json) : Option VisibilityFrame :=
  match json.record? ["layers", "moves", "progress_max"] with
  | some [layers, moves, progressMax] => do
      let layers ← Json.required? (Json.list? LayerVisibility.ofJson?) layers
      let moves ← Json.required? (Json.list? MoveVisibility.ofJson?) moves
      let progressMax ← Json.required? Json.natural? progressMax
      some ⟨layers.toArray, moves.toArray, progressMax⟩
  | _ => none

/-- An engine in JSON. -/
def WindowEngine.toJson (engine : WindowEngine) : Json :=
  .object
    [ ("mode", engine.mode.toJson),
      ("step", .ofFloat engine.step),
      ("slack", .ofFloat engine.slack) ]

/-- Read an engine. -/
def WindowEngine.ofJson? (json : Json) : Option WindowEngine :=
  match json.record? ["mode", "step", "slack"] with
  | some [mode, step, slack] => do
      some
        { mode := ← Json.required? CursorMode.ofJson? mode
          step := ← Json.required? Json.float? step
          slack := ← Json.required? Json.float? slack }
  | _ => none

end LayerPlayback
