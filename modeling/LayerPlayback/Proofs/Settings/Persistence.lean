import LayerPlayback.Settings.Storage
import LayerPlayback.Proofs.Settings.Toml
import LayerPlayback.Proofs.Settings.Validation
import LayerPlayback.Proofs.Text.Utf8

namespace LayerPlayback

/-!
# Saved configurations are loaded again

A configuration that is saved is valid, and what is written for it is read back as the
same configuration, which is valid again.  The exception is an infinite path width or
fallback step in JSON: the rules let it through, but JSON has no number for it.
-/

open Binary64

/-- The file with a text. -/
def File.ofText (text : String) : File :=
  .content text.toByteArray.data.toList

/-- What is encoded is text again. -/
theorem File.strictText?_ofText (text : String) : (File.ofText text).strictText? = some text :=
  Utf8.strict?_encoded text

namespace Config

variable {config : Config} {path text : String}

/-- Some rule compares each double, and no comparison with NaN holds. -/
theorem KeepsRules.isNaN_doubles (rules : config.KeepsRules) :
    ∀ x ∈ config.viewer.doubles, x.isNaN = false := by
  simp only [ViewerSettings.doubles, List.forall_mem_cons]
  exact ⟨(lt_iff.mp rules.width).2.1, (lt_iff.mp rules.step).2.1, (le_iff.mp rules.slack).2.1,
    List.forall_mem_nil _⟩

/-- A configuration is saved in the format of its path when it keeps to the rules. -/
theorem saved_eq_ok_iff :
    config.saved path = .ok text ↔
      config.KeepsRules ∧
        ∃ format, ConfigFormat.ofPath path = .ok format ∧ config.textIn format = text := by
  unfold saved
  constructor
  · intro saves
    cases validated : config.validated with
    | error problem =>
        rw [validated] at saves
        cases saves
    | ok valid =>
        obtain ⟨rfl, rules⟩ := validated_eq_ok_iff.mp validated
        rw [validated] at saves
        cases isFormat : ConfigFormat.ofPath path with
        | error problem =>
            rw [isFormat] at saves
            cases saves
        | ok format =>
            rw [isFormat] at saves
            exact ⟨rules, format, rfl, Except.ok.inj saves⟩
  · rintro ⟨rules, format, isFormat, rfl⟩
    rw [validated_eq_ok_iff.mpr ⟨rfl, rules⟩, isFormat]
    rfl

/-- A text at a path is read in the format of the path, and what is read is validated. -/
theorem load_ofText
    {format : ConfigFormat}
    (isFormat : ConfigFormat.ofPath path = .ok format) :
    load path (.ofText text) = (ofTextIn text format).bind validated := by
  unfold load
  rw [isFormat, File.strictText?_ofText]
  rfl

/-- In TOML every valid configuration is loaded again. -/
theorem load_tomlText
    (rules : config.KeepsRules)
    (isToml : ConfigFormat.ofPath path = .ok .toml) :
    load path (.ofText config.tomlText) = .ok config := by
  have isRead : ofTextIn config.tomlText .toml = .ok config := by
    unfold ofTextIn
    rw [ofTomlText?_tomlText rules.family rules.isNaN_doubles]
  rw [load_ofText isToml, isRead]
  exact validated_eq_ok_iff.mpr ⟨rfl, rules⟩

/-- In JSON a valid configuration is loaded again when its doubles are finite. -/
theorem load_jsonText
    (rules : config.KeepsRules)
    (isJson : ConfigFormat.ofPath path = .ok .json)
    (readBack : ∀ x ∈ config.viewer.doubles, JsonNumber.ReadsBack x) :
    load path (.ofText config.jsonText) =
      if config.viewer.doubles.all Float.isFinite then .ok config else .error .malformedJson := by
  rw [load_ofText isJson]
  unfold ofTextIn
  rw [ofJsonText?_jsonText readBack]
  by_cases finite : config.viewer.doubles.all Float.isFinite = true
  · rw [if_pos finite, if_pos finite]
    exact validated_eq_ok_iff.mpr ⟨rfl, rules⟩
  · rw [if_neg finite, if_neg finite]
    rfl

/-- Whether a double of a configuration has no form in the format of a path. -/
def LosesDouble (config : Config) (path : String) : Prop :=
  ConfigFormat.ofPath path = .ok .json ∧ ∃ x ∈ config.viewer.doubles, x.isFinite = false

theorem not_losesDouble_of_all_isFinite
    (finite : config.viewer.doubles.all Float.isFinite = true) :
    ¬ config.LosesDouble path := by
  rintro ⟨_, x, member, infinite⟩
  rw [List.all_eq_true.mp finite x member] at infinite
  cases infinite

/--
A saved configuration is loaded again, unless one of its doubles is lost in JSON: then
what was saved is refused.
-/
theorem load_saved
    (saves : config.saved path = .ok text)
    (readBack :
      ConfigFormat.ofPath path = .ok .json →
        ∀ x ∈ config.viewer.doubles, JsonNumber.ReadsBack x) :
    (¬ config.LosesDouble path → load path (.ofText text) = .ok config) ∧
      (config.LosesDouble path → load path (.ofText text) = .error .malformedJson) := by
  obtain ⟨rules, format, isFormat, rfl⟩ := saved_eq_ok_iff.mp saves
  cases format with
  | toml =>
      refine ⟨fun _ => load_tomlText rules isFormat, ?_⟩
      rintro ⟨isJson, _⟩
      rw [isFormat] at isJson
      cases isJson
  | json =>
      have loaded := load_jsonText rules isFormat (readBack isFormat)
      change (_ → load path (.ofText config.jsonText) = _) ∧
        (_ → load path (.ofText config.jsonText) = _)
      rw [loaded]
      by_cases finite : config.viewer.doubles.all Float.isFinite = true
      · rw [if_pos finite]
        exact ⟨fun _ => rfl, fun loses => absurd loses (not_losesDouble_of_all_isFinite finite)⟩
      · rw [if_neg finite]
        refine ⟨fun keeps => absurd ⟨isFormat, ?_⟩ keeps, fun _ => rfl⟩
        obtain ⟨x, member, infinite⟩ : ∃ x ∈ config.viewer.doubles, ¬ x.isFinite = true := by
          simpa using finite
        exact ⟨x, member, Bool.eq_false_iff.mpr infinite⟩

/-- A configuration in which nothing is as it is by default. -/
def customized : Config :=
  { parser := { familyPrefix := 'm', allowXyzReset := false }
    viewer :=
      { pathWidth := 0.45
        fallbackLayerStep := 0.3
        stepPrecisionDigits := 3
        currentLayerSlack := 0.1
        cursorMode := .layerIndex } }

/-- The same configuration with an infinite path width, which the rules let through. -/
def customizedWide : Config :=
  { customized with viewer := { customized.viewer with pathWidth := infinity } }

/-- What differs from the default everywhere is loaded again, also an infinity from TOML. -/
theorem load_saved_customized :
    (customized.saved "config.json" = .ok customized.jsonText ∧
        load "config.json" (.ofText customized.jsonText) = .ok customized) ∧
      customizedWide.saved "config.toml" = .ok customizedWide.tomlText ∧
        load "config.toml" (.ofText customizedWide.tomlText) = .ok customizedWide := by
  have savesJson : customized.saved "config.json" = .ok customized.jsonText :=
    saved_eq_ok_iff.mpr ⟨problem?_eq_none_iff.mp rfl, .json, rfl, rfl⟩
  have savesToml : customizedWide.saved "config.toml" = .ok customizedWide.tomlText :=
    saved_eq_ok_iff.mpr ⟨problem?_eq_none_iff.mp rfl, .toml, rfl, rfl⟩
  have readBack : ∀ x ∈ customized.viewer.doubles, JsonNumber.ReadsBack x := by
    simp only [customized, ViewerSettings.doubles, List.forall_mem_cons]
    refine ⟨fun _ => ?_, fun _ => ?_, fun _ => ?_, List.forall_mem_nil _⟩ <;> decide +kernel
  have keepsJson : ¬ customized.LosesDouble "config.json" :=
    not_losesDouble_of_all_isFinite rfl
  have notJson : ConfigFormat.ofPath "config.toml" ≠ .ok .json := by
    have isToml : ConfigFormat.ofPath "config.toml" = .ok .toml := rfl
    intro isJson
    cases isToml.symm.trans isJson
  exact
    ⟨⟨savesJson, (load_saved savesJson fun _ => readBack).1 keepsJson⟩, savesToml,
      (load_saved savesToml fun isJson => absurd isJson notJson).1 fun loses =>
        notJson loses.1⟩

/-- The defaults are read back from their JSON numbers. -/
theorem readsBack_default : ∀ x ∈ ({} : ViewerSettings).doubles, JsonNumber.ReadsBack x := by
  simp only [ViewerSettings.doubles, List.forall_mem_cons]
  refine ⟨fun _ => ?_, fun _ => ?_, fun _ => ?_, List.forall_mem_nil _⟩ <;> decide +kernel

/-- An infinite path width is valid, but its JSON form is refused. -/
theorem infiniteWidth_refused :
    ({ viewer := { pathWidth := infinity } } : Config).saved "config.json" =
        .ok ({ viewer := { pathWidth := infinity } } : Config).jsonText ∧
      load "config.json"
          (.ofText ({ viewer := { pathWidth := infinity } } : Config).jsonText) =
        .error .malformedJson := by
  have rules : ({ viewer := { pathWidth := infinity } } : Config).KeepsRules :=
    problem?_eq_none_iff.mp rfl
  have readBack :
      ∀ x ∈ ({ pathWidth := infinity } : ViewerSettings).doubles, JsonNumber.ReadsBack x := by
    simp only [ViewerSettings.doubles, List.forall_mem_cons]
    have others := readsBack_default
    simp only [ViewerSettings.doubles, List.forall_mem_cons] at others
    exact ⟨fun finite => absurd finite Bool.false_ne_true, others.2⟩
  refine ⟨saved_eq_ok_iff.mpr ⟨rules, .json, rfl, rfl⟩, ?_⟩
  exact load_jsonText rules rfl readBack

end Config

end LayerPlayback
