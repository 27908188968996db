import LayerPlayback.Codec.Model
import LayerPlayback.Proofs.Json.Decode
import LayerPlayback.Proofs.Model.Doubles

namespace LayerPlayback

/-!
# Models survive their JSON form

A model whose doubles are finite and whose counts fit into 64 bits is read back from
each of its written forms.  One double that is not finite is enough for the whole model
to be refused: it is written as null.
-/

@[simp] theorem MoveKind.ofJson?_toJson (kind : MoveKind) : ofJson? kind.toJson = some kind := by
  cases kind <;> rfl

namespace Point

/-- A point is read back exactly when its coordinates are finite. -/
theorem ofJson?_toJson
    {point : Point}
    (readBack : ∀ x ∈ point.doubles, JsonNumber.ReadsBack x) :
    ofJson? point.toJson = if point.doubles.all Float.isFinite then some point else none := by
  have distinct : ["x", "y", "z"].Nodup := by decide
  have fields :
      point.toJson.record? ["x", "y", "z"] =
        some [some (.ofFloat point.x), some (.ofFloat point.y), some (.ofFloat point.z)] :=
    Json.record?_object distinct
  obtain ⟨x, y, z, _⟩ : _ ∧ _ ∧ _ ∧ _ := by
    simpa only [doubles, List.forall_mem_cons] using readBack
  simp only [ofJson?, fields, Json.required?, Option.bind_some, Json.float?_ofFloat x,
    Json.float?_ofFloat y, Json.float?_ofFloat z, doubles, List.all_cons, List.all_nil]
  by_cases xIsFinite : point.x.isFinite = true
  · by_cases yIsFinite : point.y.isFinite = true
    · by_cases zIsFinite : point.z.isFinite = true
      · simp [xIsFinite, yIsFinite, zIsFinite]
      · simp [xIsFinite, yIsFinite, zIsFinite]
    · simp [xIsFinite, yIsFinite]
  · simp [xIsFinite]

/-- A point can be written whatever its coordinates are: those that are not finite become null. -/
theorem isWritable_toJson (point : Point) : point.toJson.IsWritable :=
  ⟨Json.isWritable_ofFloat _, Json.isWritable_ofFloat _, Json.isWritable_ofFloat _, trivial⟩

end Point

namespace Segment

/-- A segment is read back exactly when the coordinates of both its ends are finite. -/
theorem ofJson?_toJson
    {segment : Segment}
    (readBack : ∀ x ∈ segment.doubles, JsonNumber.ReadsBack x) :
    ofJson? segment.toJson =
      if segment.doubles.all Float.isFinite then some segment else none := by
  have distinct : ["start", "end", "depositing"].Nodup := by decide
  have fields :
      segment.toJson.record? ["start", "end", "depositing"] =
        some
          [some segment.start.toJson, some segment.finish.toJson, some (.bool segment.deposits)] :=
    Json.record?_object distinct
  obtain ⟨start, finish⟩ := List.forall_mem_append.mp readBack
  simp only [ofJson?, fields, Json.required?, Option.bind_some, Point.ofJson?_toJson start,
    Point.ofJson?_toJson finish, Json.bool?, doubles, List.all_append]
  cases segment.start.doubles.all Float.isFinite <;>
    cases segment.finish.doubles.all Float.isFinite <;> rfl

theorem isWritable_toJson (segment : Segment) : segment.toJson.IsWritable :=
  ⟨segment.start.isWritable_toJson, segment.finish.isWritable_toJson, trivial, trivial⟩

end Segment

namespace Move

/-- The counts of a move can be read as 64-bit numbers. -/
structure FitsCounts (move : Move) : Prop where
  firstSegment : move.firstSegment ≤ UInt64.size - 1
  segmentCount : move.segmentCount ≤ UInt64.size - 1

/-- A move is read back when its counts fit their fields. -/
theorem ofJson?_toJson {move : Move} (fits : move.FitsCounts) :
    ofJson? move.toJson = some move := by
  have distinct : ["kind", "first_segment", "segment_count"].Nodup := by decide
  have fields :
      move.toJson.record? ["kind", "first_segment", "segment_count"] =
        some
          [ some move.kind.toJson,
            some (.ofNat move.firstSegment),
            some (.ofNat move.segmentCount) ] :=
    Json.record?_object distinct
  simp only [ofJson?, fields, Json.required?, Option.bind_some, MoveKind.ofJson?_toJson,
    Json.ofNat, Json.natural?, Json.natural?_ofNat fits.firstSegment,
    Json.natural?_ofNat fits.segmentCount]
  rfl

theorem isWritable_toJson (move : Move) : move.toJson.IsWritable :=
  ⟨trivial, JsonNumber.isWellFormed_ofNat _, JsonNumber.isWellFormed_ofNat _, trivial⟩

end Move

namespace Layer

/-- A layer is read back exactly when its height and its segments are finite. -/
theorem ofJson?_toJson
    {layer : Layer}
    (fits : ∀ move ∈ layer.moves.toList, move.FitsCounts)
    (readBack : ∀ x ∈ layer.doubles, JsonNumber.ReadsBack x) :
    ofJson? layer.toJson = if layer.doubles.all Float.isFinite then some layer else none := by
  have distinct : ["z", "segments", "moves"].Nodup := by decide
  have fields :
      layer.toJson.record? ["z", "segments", "moves"] =
        some
          [ some (.ofFloat layer.z),
            some (.ofList Segment.toJson layer.segments.toList),
            some (.ofList Move.toJson layer.moves.toList) ] :=
    Json.record?_object distinct
  obtain ⟨height, coordinates⟩ := List.forall_mem_cons.mp readBack
  have segments :=
    Json.list?_ofList (fun segment => segment.doubles.all Float.isFinite)
      fun segment member => Segment.ofJson?_toJson fun x inSegment =>
        coordinates x (List.mem_flatMap.mpr ⟨segment, member, inSegment⟩)
  have moves :=
    Json.list?_ofList_of_forall fun move member => Move.ofJson?_toJson (fits move member)
  simp only [ofJson?, fields, Json.required?, Option.bind_some, Json.float?_ofFloat height,
    segments, moves, doubles, List.all_cons, List.all_flatMap]
  cases layer.z.isFinite <;>
    cases layer.segments.toList.all fun segment => segment.doubles.all Float.isFinite <;> rfl

theorem isWritable_toJson (layer : Layer) : layer.toJson.IsWritable :=
  ⟨Json.isWritable_ofFloat _, Json.isWritable_ofList fun segment _ => segment.isWritable_toJson,
    Json.isWritable_ofList fun move _ => move.isWritable_toJson, trivial⟩

end Layer

namespace Model

variable {model : Model}

/-- A model is read back exactly when all its doubles are finite. -/
theorem ofJson?_toJson
    (fits : ∀ layer ∈ model.layers.toList, ∀ move ∈ layer.moves.toList, move.FitsCounts)
    (readBack : ∀ x ∈ model.doubles, JsonNumber.ReadsBack x) :
    ofJson? model.toJson = if model.doubles.all Float.isFinite then some model else none := by
  have distinct : ["layers", "path_width"].Nodup := by decide
  have fields :
      model.toJson.record? ["layers", "path_width"] =
        some [some (.ofList Layer.toJson model.layers.toList), some (.ofFloat model.pathWidth)] :=
    Json.record?_object distinct
  obtain ⟨width, geometry⟩ := List.forall_mem_cons.mp readBack
  have layers :=
    Json.list?_ofList (fun layer => layer.doubles.all Float.isFinite)
      fun layer member => Layer.ofJson?_toJson (fits layer member) fun x inLayer =>
        geometry x (List.mem_flatMap.mpr ⟨layer, member, inLayer⟩)
  simp only [ofJson?, fields, Json.required?, Option.bind_some, Json.float?_ofFloat width,
    layers, doubles, List.all_cons, List.all_flatMap]
  cases model.pathWidth.isFinite <;>
    cases model.layers.toList.all fun layer => layer.doubles.all Float.isFinite <;> rfl

/-- Any model can be written, whatever its doubles are. -/
theorem isWritable_toJson (model : Model) : model.toJson.IsWritable :=
  ⟨Json.isWritable_ofList fun layer _ => layer.isWritable_toJson, Json.isWritable_ofFloat _,
    trivial⟩

/-- The texts that a model is written as. -/
def jsonTexts (model : Model) : List String :=
  [model.toJson.compactText, model.toJson.indentedText]

/-- The model that a text holds in JSON. -/
def ofJsonText? (text : String) : Option Model :=
  (Json.ofText? text).bind ofJson?

/-- A model is read back from either of its texts, unless one of its doubles has no number. -/
theorem ofJsonText?_of_mem_jsonTexts
    (fits : ∀ layer ∈ model.layers.toList, ∀ move ∈ layer.moves.toList, move.FitsCounts)
    (readBack : ∀ x ∈ model.doubles, JsonNumber.ReadsBack x)
    {text : String}
    (isWritten : text ∈ model.jsonTexts) :
    ofJsonText? text = if model.doubles.all Float.isFinite then some model else none := by
  have isRead : Json.ofText? text = some model.toJson := by
    simp only [jsonTexts, List.mem_cons, List.not_mem_nil, or_false] at isWritten
    rcases isWritten with rfl | rfl
    · exact Json.ofText?_compactText model.isWritable_toJson
    · exact Json.ofText?_indentedText model.isWritable_toJson
  rw [ofJsonText?, isRead, Option.bind_some, ofJson?_toJson fits readBack]

end Model

end LayerPlayback
