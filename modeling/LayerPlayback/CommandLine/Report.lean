import LayerPlayback.Codec.Build
import LayerPlayback.Codec.Command
import LayerPlayback.Codec.Playback
import LayerPlayback.Json.Writer
import LayerPlayback.Toolpath

namespace LayerPlayback

/-!
# Reports

A report describes a loaded toolpath, and a window into it when one is asked for.
The text report has a head with counts, the diagnostics, a table with one row a
layer, and the window; the JSON report holds the same with the whole model.
-/

/-- A cursor and what it makes visible. -/
structure WindowReport where
  cursor : ViewCursor
  frame : VisibilityFrame
  deriving Repr

/-- A toolpath to report about. -/
structure Report where
  /-- The program file as it was named. -/
  file : String
  toolpath : Toolpath
  window? : Option WindowReport := none
  deriving Repr

namespace WindowReport

/-- A window into a toolpath; without a progress everything in it is revealed. -/
def ofBounds
    (toolpath : Toolpath)
    (lower upper : Float)
    (progress? : Option Float) :
    WindowReport :=
  let engine := toolpath.windowEngine
  let synced := engine.sync toolpath.model (.ofWindow (.between lower upper))
  let cursor :=
    match progress? with
    | some progress => synced.setProgress progress
    | none => synced
  ⟨cursor, engine.evaluate toolpath.model cursor⟩

/-- A window in JSON. -/
def toJson (window : WindowReport) : Json :=
  .object [("cursor", window.cursor.toJson), ("frame", window.frame.toJson)]

/-- Indices in brackets. -/
def indexList (indices : List Nat) : String :=
  "[" ++ ", ".intercalate (indices.map toString) ++ "]"

/-- The indices of the visible layers. -/
def visibleLayers (window : WindowReport) : List Nat :=
  (window.frame.layers.toList.filter LayerVisibility.visible).map LayerVisibility.layer

/-- The lines about a window into a model. -/
def lines (window : WindowReport) (model : Model) : List String :=
  let cursor := window.cursor
  let bounds :=
    NumberText.plain cursor.window.lower ++ ".." ++ NumberText.plain cursor.window.upper
  let progress := NumberText.plain cursor.progress ++ "/" ++ toString cursor.progressMax
  [ "",
    s!"window: {bounds}, progress {progress}",
    "visible layers: " ++ indexList window.visibleLayers,
    "current layers: " ++ indexList window.frame.currentLayers,
    s!"drawn segments: {window.frame.drawnSegmentCount}/{model.segmentCount}" ]

end WindowReport

namespace Report

/-- A range of coordinates with three places. -/
def rangeText (lower upper : Float) : String :=
  NumberText.fixed 3 lower ++ ".." ++ NumberText.fixed 3 upper

/-- The line about the bounds of a model that has some. -/
def boundsLines (bounds : Bounds) : List String :=
  if bounds.isValid then
    [ "bounds: X " ++ rangeText bounds.minX bounds.maxX
        ++ " Y " ++ rangeText bounds.minY bounds.maxY
        ++ " Z " ++ rangeText bounds.minZ bounds.maxZ ]
  else
    []

/-- The head of a report. -/
def headLines (report : Report) : List String :=
  let toolpath := report.toolpath
  let model := toolpath.model
  let stats := toolpath.cache.stats
  let kinds := s!"deposit {stats.depositSegments}, travel {stats.travelSegments}"
  [ "file: " ++ report.file,
    s!"lines: {stats.lines}, commands: {stats.commands}, skipped: {stats.skipped}",
    s!"layers: {model.layerCount}, segments: {model.segmentCount} ({kinds})",
    "layer step: " ++ NumberText.plain toolpath.layerStep ]

/-- The number of diagnostics, and each of them. -/
def diagnosticLines (diagnostics : List Diagnostic) : List String :=
  s!"diagnostics: {diagnostics.length}"
    :: diagnostics.map fun diagnostic => "  " ++ diagnostic.message

/-- One row of the layer table from the texts of its columns. -/
def tableRow (index z moves points deposit : String) : String :=
  " ".intercalate
    [ NumberText.padded 5 index,
      NumberText.padded 10 z,
      NumberText.padded 6 moves,
      NumberText.padded 7 points,
      NumberText.padded 12 deposit ]

/-- The row of one layer. -/
def layerRow (entry : Layer × Nat) : String :=
  let (layer, index) := entry
  tableRow
    (toString index)
    (NumberText.fixed 3 layer.z)
    (toString layer.moves.size)
    (toString layer.pointCount)
    (NumberText.fixed 3 layer.depositLength)

/-- The layer table with its heading. -/
def tableLines (model : Model) : List String :=
  "" :: tableRow "layer" "z" "moves" "points" "deposit_mm"
    :: model.indexedLayers.map layerRow

/-- All lines of a text report. -/
def lines (report : Report) : List String :=
  let model := report.toolpath.model
  report.headLines
    ++ boundsLines model.bounds
    ++ diagnosticLines report.toolpath.cache.diagnostics
    ++ tableLines model
    ++ (report.window?.map fun window => window.lines model).getD []

/-- A report as text. -/
def text (report : Report) : String :=
  String.join (report.lines.map fun line => line ++ "\n")

/-- A report in JSON. -/
def toJson (report : Report) : Json :=
  let toolpath := report.toolpath
  let (lowest, highest) := toolpath.model.heightRange
  .object
    [ ("layer_step", .ofFloat toolpath.layerStep),
      ("z_range", .array [.ofFloat lowest, .ofFloat highest]),
      ("stats", toolpath.cache.stats.toJson),
      ("diagnostics", .ofList Diagnostic.toJson toolpath.cache.diagnostics),
      ("model", toolpath.model.toJson),
      ("window", .ofOption WindowReport.toJson report.window?) ]

/-- The text of a report in JSON, with sorted keys. -/
def jsonText (report : Report) : String :=
  report.toJson.sorted.indentedText ++ "\n"

end Report

end LayerPlayback
