import LayerPlayback.Settings.Json
import LayerPlayback.Proofs.Json.Decode

namespace LayerPlayback

/-!
# Configurations survive their JSON form

JSON has no number for an infinite double: the writer puts null in its place, and
the reader refuses that.  All other settings are read back, as far as the doubles
themselves are read back from their numbers.
-/

/-- The settings that are doubles. -/
def ViewerSettings.doubles (settings : ViewerSettings) : List Float :=
  [settings.pathWidth, settings.fallbackLayerStep, settings.currentLayerSlack]

@[simp] theorem CursorMode.ofJson?_toJson (mode : CursorMode) :
    ofJson? mode.toJson = some mode := by
  cases mode <;> rfl

theorem ParserSettings.nodup_names : ParserSettings.names.Nodup := by
  decide

theorem ViewerSettings.nodup_names : ViewerSettings.names.Nodup := by
  decide

/-- Parser settings have no doubles and are always read back. -/
@[simp] theorem ParserSettings.ofJson?_toJson (settings : ParserSettings) :
    ofJson? settings.toJson = some settings := by
  have fields :
      settings.toJson.openRecord? names =
        some [some (.ofChar settings.familyPrefix), some (.bool settings.allowXyzReset)] :=
    Json.named?_keys nodup_names
  simp [ofJson?, fields, Json.defaulted?, Json.bool?]

/-- Viewer settings are read back exactly when their doubles are finite. -/
theorem ViewerSettings.ofJson?_toJson
    {settings : ViewerSettings}
    (readBack : ∀ x ∈ settings.doubles, JsonNumber.ReadsBack x) :
    ofJson? settings.toJson =
      if settings.doubles.all Float.isFinite then some settings else none := by
  have fields :
      settings.toJson.openRecord? names =
        some
          [ some (.ofFloat settings.pathWidth),
            some (.ofFloat settings.fallbackLayerStep),
            some (.ofNat settings.stepPrecisionDigits.toNat),
            some (.ofFloat settings.currentLayerSlack),
            some settings.cursorMode.toJson ] :=
    Json.named?_keys nodup_names
  obtain ⟨width, step, slack, _⟩ : _ ∧ _ ∧ _ ∧ _ := by
    simpa only [doubles, List.forall_mem_cons] using readBack
  simp only [ofJson?, fields, Json.defaulted?, Json.float?_ofFloat width,
    Json.float?_ofFloat step, Json.float?_ofFloat slack, Json.uint32?_ofNat,
    CursorMode.ofJson?_toJson, doubles, List.all_cons, List.all_nil]
  by_cases widthIsFinite : settings.pathWidth.isFinite = true
  · by_cases stepIsFinite : settings.fallbackLayerStep.isFinite = true
    · by_cases slackIsFinite : settings.currentLayerSlack.isFinite = true
      · simp [widthIsFinite, stepIsFinite, slackIsFinite]
      · simp [widthIsFinite, stepIsFinite, slackIsFinite]
    · simp [widthIsFinite, stepIsFinite]
  · simp [widthIsFinite]

namespace Config

theorem nodup_names : names.Nodup := by
  decide

/-- A configuration is read back exactly when the doubles of its viewer settings are finite. -/
theorem ofJson?_toJson
    {config : Config}
    (readBack : ∀ x ∈ config.viewer.doubles, JsonNumber.ReadsBack x) :
    ofJson? config.toJson =
      if config.viewer.doubles.all Float.isFinite then some config else none := by
  have fields :
      config.toJson.openRecord? names =
        some [some config.parser.toJson, some config.viewer.toJson] :=
    Json.named?_keys nodup_names
  simp only [ofJson?, fields, Json.defaulted?, ParserSettings.ofJson?_toJson,
    ViewerSettings.ofJson?_toJson readBack]
  cases config.viewer.doubles.all Float.isFinite <;> rfl

/-- Any configuration can be written, also one that is not valid. -/
theorem isWritable_toJson (config : Config) : config.toJson.IsWritable := by
  have width := Json.isWritable_ofFloat config.viewer.pathWidth
  have step := Json.isWritable_ofFloat config.viewer.fallbackLayerStep
  have digits := JsonNumber.isWellFormed_ofNat config.viewer.stepPrecisionDigits.toNat
  have slack := Json.isWritable_ofFloat config.viewer.currentLayerSlack
  exact ⟨⟨trivial, trivial, trivial⟩, ⟨width, step, digits, slack, trivial, trivial⟩, trivial⟩

/-- A configuration is read back from its text in JSON unless a double is infinite or NaN. -/
theorem ofJsonText?_jsonText
    {config : Config}
    (readBack : ∀ x ∈ config.viewer.doubles, JsonNumber.ReadsBack x) :
    ofJsonText? config.jsonText =
      if config.viewer.doubles.all Float.isFinite then some config else none := by
  rw [ofJsonText?, jsonText, Json.ofText?_indentedText config.isWritable_toJson,
    Option.bind_some, ofJson?_toJson readBack]

end Config

end LayerPlayback
