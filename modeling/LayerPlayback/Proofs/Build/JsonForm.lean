import LayerPlayback.Proofs.Build.Grouping
import LayerPlayback.Proofs.Build.Reports
import LayerPlayback.Proofs.Codec.Model
import LayerPlayback.Proofs.Machine.Range
import LayerPlayback.Proofs.Model.Covering
import LayerPlayback.Proofs.Text.Line

namespace LayerPlayback

/-!
# Built models in JSON

Words are finite, but the sums that a machine makes of them can overflow, and JSON has
no number for what comes out.  This is the only way in which a built model is lost: its
counts are those of lines of a text, and its other doubles are finite.  Words that are
not huge do not overflow in any text of an ordinary length.
-/

/-! ## Counts -/

theorem Machine.length_drawings_le
    (xyzReset : Bool)
    (machine : Machine)
    (commands : List Command) :
    (machine.drawings xyzReset commands).length ≤ commands.length := by
  induction commands generalizing machine with
  | nil => exact Nat.le_refl 0
  | cons command rest inductionHypothesis =>
      have restDrawn := inductionHypothesis (machine.obey xyzReset command)
      have atMostOne : (machine.drawing? command).toList.length ≤ 1 := by
        cases machine.drawing? command with
        | none => exact Nat.zero_le 1
        | some motion => exact Nat.le_refl 1
      rw [drawings, List.length_append, List.length_cons]
      omega

theorem Decoder.length_commands_le (decoder : Decoder) (text : String) :
    (decoder.commands text).length ≤ text.length := by
  rw [commands_eq_lineCommands]
  calc
    (decoder.lineCommands (numberedLines text)).length ≤ (numberedLines text).length :=
      List.length_filterMap_le _ _
    _ = (Line.ofText text).length := List.length_zipIdx
    _ ≤ text.length := Line.length_ofText_le text

/-- There are no more motions than characters. -/
theorem length_drawnMotions_le (options : BuildOptions) (text : String) :
    (drawnMotions options text).length ≤ text.length :=
  (Machine.length_drawings_le _ _ _).trans (Decoder.length_commands_le _ text)

/-- No layer of a build has more segments than the text has characters. -/
theorem pointCount_le_of_mem_build
    {options : BuildOptions}
    {text : String}
    {layer : Layer}
    (member : layer ∈ (build options text).model.layers.toList) :
    layer.pointCount ≤ text.length := by
  have all := congrArg List.length (segments_build options text)
  rw [Model.segments, List.length_flatMap, List.length_map] at all
  have own :
      layer.segments.toList.length ≤
        ((build options text).model.layers.toList.map fun layer =>
          layer.segments.toList.length).sum :=
    List.le_sum_of_mem (List.mem_map_of_mem member)
  calc
    layer.pointCount = layer.segments.toList.length := Array.length_toList.symm
    _ ≤ (drawnMotions options text).length := own.trans_eq all
    _ ≤ text.length := length_drawnMotions_le options text

/-- Positions in a layer fit into 64 bits when the length of the text does. -/
theorem fitsCounts_of_mem_build
    {options : BuildOptions}
    {text : String}
    (fits : text.length < UInt64.size)
    {layer : Layer}
    (member : layer ∈ (build options text).model.layers.toList)
    {move : Move}
    (inLayer : move ∈ layer.moves.toList) :
    move.FitsCounts := by
  have filled := filled_of_mem_build (Array.mem_toList_iff.mp member)
  have ends := filled.consecutive_moves.endSegment_le_stop inLayer
  have points := pointCount_le_of_mem_build member
  unfold Move.endSegment at ends
  exact ⟨by omega, by omega⟩

/-! ## Overflow -/

/-- Whether a coordinate of what a text draws is beyond the doubles. -/
def Overflows (options : BuildOptions) (text : String) : Prop :=
  ∃ motion ∈ drawnMotions options text, ∃ x ∈ motion.segment.doubles, x.isFinite = false

/-- Whether no word of a text is larger than `2 ^ 970`. -/
def HasModestWords (options : BuildOptions) (text : String) : Prop :=
  ∀ command ∈ (Decoder.ofLetter options.familyPrefix).commands text,
    ∀ axis word, command.axes.get? axis = some word → |Binary64.value word| ≤ 2 ^ 970

/-- A model has doubles without a number exactly when a coordinate overflowed. -/
theorem all_isFinite_doubles_build_iff
    {options : BuildOptions}
    {text : String}
    (width : options.pathWidth.isFinite = true) :
    (build options text).model.doubles.all Float.isFinite = true ↔ ¬ Overflows options text := by
  have zeroHeight : ∀ x ∈ ({ z := 0.0 } : Layer).doubles, x.isFinite = true := by
    simp [Layer.doubles]
    rfl
  have layers :=
    Layer.forall_mem_doubles_filledBy_iff (fun x => x.isFinite = true) { z := 0.0 }
      (drawnMotions options text)
  rw [and_iff_right zeroHeight] at layers
  rw [model_build, List.all_eq_true, Model.doubles, List.forall_mem_cons, and_iff_right width,
    List.forall_mem_flatMap, layers]
  simp [Overflows]

/-- Modest words in a text of ordinary length do not overflow. -/
theorem not_overflows_of_hasModestWords
    {options : BuildOptions}
    {text : String}
    (modest : HasModestWords options text)
    (short : text.length ≤ 2 ^ 53) :
    ¬ Overflows options text := by
  have words :
      ∀ command ∈ (Decoder.ofLetter options.familyPrefix).commands text,
        command.axes.IsWithinUnit := by
    intro command member axis word given
    refine ⟨Decoder.isFinite_axes_of_mem_commands member axis word given, ?_⟩
    simpa [Binary64.scaled] using modest command member axis word given
  have small : 0 + ((Decoder.ofLetter options.familyPrefix).commands text).length ≤ 2 ^ 53 := by
    rw [Nat.zero_add]
    exact (Decoder.length_commands_le _ text).trans short
  rintro ⟨motion, drawn, x, member, infinite⟩
  have within :=
    Machine.isWithin_of_mem_drawings options.allowXyzReset Machine.coordinates_fresh words small
      drawn
  have finite : ∀ y ∈ motion.segment.doubles, y.isFinite = true :=
    List.forall_mem_append.mpr
      ⟨Position.forall_mem_doubles_point fun axis => (within axis).1.finite,
        Position.forall_mem_doubles_point fun axis => (within axis).2.finite⟩
  rw [finite x member] at infinite
  cases infinite

/-! ## Written and read -/

/--
A built model is read back from each of its written forms, and equals itself as doubles
compare, unless a coordinate overflowed: then what was written is refused.  Words up to
`2 ^ 970` do not overflow.
-/
theorem ofJsonText?_build
    {options : BuildOptions}
    {text written : String}
    (width : options.pathWidth.isFinite = true)
    (fits : text.length < UInt64.size)
    (readBack : ∀ x ∈ (build options text).model.doubles, JsonNumber.ReadsBack x)
    (isWritten : written ∈ (build options text).model.jsonTexts) :
    (¬ Overflows options text →
        Model.ofJsonText? written = some (build options text).model ∧
          ((build options text).model == (build options text).model) = true) ∧
      (Overflows options text → Model.ofJsonText? written = none) ∧
      (HasModestWords options text → text.length ≤ 2 ^ 53 → ¬ Overflows options text) := by
  have finite :
      (build options text).model.doubles.all Float.isFinite = true ↔ ¬ Overflows options text :=
    all_isFinite_doubles_build_iff width
  have isRead :=
    Model.ofJsonText?_of_mem_jsonTexts
      (fun _ member _ inLayer => fitsCounts_of_mem_build fits member inLayer) readBack isWritten
  refine ⟨fun stays => ?_, fun overflows => ?_, not_overflows_of_hasModestWords⟩
  · have allFinite := finite.mpr stays
    refine ⟨isRead.trans (if_pos allFinite), Model.beq_self fun x member => ?_⟩
    exact Binary64.isNaN_of_isFinite (List.all_eq_true.mp allFinite x member)
  · exact isRead.trans (if_neg fun allFinite => finite.mp allFinite overflows)

/-- A text with relative moves, a reset, and several layers keeps its model in JSON. -/
theorem ofJsonText?_build_relative :
    let model :=
      (build {} "G1 X0.1 Z0.3 E1\nG91\nG1 X-1e-7 E1\nG92 X5\nG1 Z1e22\nG90\nG1 Y-7.25").model
    Model.ofJsonText? model.toJson.compactText = some model ∧
      Model.ofJsonText? model.toJson.indentedText = some model := by
  intro model
  have width : (BuildOptions.pathWidth {}).isFinite = true := rfl
  have readBack : ∀ x ∈ model.doubles, JsonNumber.ReadsBack x := by decide +kernel
  have finite : model.doubles.all Float.isFinite = true := by decide +kernel
  have stays := (all_isFinite_doubles_build_iff width).mp finite
  have keeps {written : String} (isWritten : written ∈ model.jsonTexts) :
      Model.ofJsonText? written = some model :=
    ((ofJsonText?_build width (by decide +kernel) readBack isWritten).1 stays).1
  exact ⟨keeps List.mem_cons_self, keeps (List.mem_cons_of_mem _ List.mem_cons_self)⟩

/-- Two long relative moves overflow, and what the model is written as is refused. -/
theorem ofJsonText?_build_overflowing :
    let model := (build {} "G91\nG1 X1e308\nG1 X1e308").model
    model.pathWidth.isFinite = true ∧
      Model.ofJsonText? model.toJson.compactText = none ∧
        Model.ofJsonText? model.toJson.indentedText = none := by
  intro model
  have fits : ∀ layer ∈ model.layers.toList, ∀ move ∈ layer.moves.toList, move.FitsCounts :=
    fun _ member _ inLayer => fitsCounts_of_mem_build (by decide +kernel) member inLayer
  have readBack : ∀ x ∈ model.doubles, JsonNumber.ReadsBack x := by decide +kernel
  have infinite : model.doubles.all Float.isFinite = false := by decide +kernel
  have refused {written : String} (isWritten : written ∈ model.jsonTexts) :
      Model.ofJsonText? written = none := by
    rw [Model.ofJsonText?_of_mem_jsonTexts fits readBack isWritten, infinite]
    rfl
  exact ⟨by decide +kernel, refused List.mem_cons_self,
    refused (List.mem_cons_of_mem _ List.mem_cons_self)⟩

end LayerPlayback
