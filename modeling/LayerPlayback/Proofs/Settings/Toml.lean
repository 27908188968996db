import LayerPlayback.Settings.Toml
import LayerPlayback.Proofs.Settings.Json
import LayerPlayback.Proofs.Toml.Document
import LayerPlayback.Proofs.Toml.Reader

namespace LayerPlayback

/-!
# Configurations survive their TOML form

TOML has a name for infinity, so every configuration whose family is a letter and
whose doubles are numbers is read back from its text.
-/

/-- A table is read by the names of its fields when no name comes twice. -/
theorem Toml.record?_keys {fields : List (String × Toml)} (distinct : (fields.map Prod.fst).Nodup) :
    (Toml.table fields).record? (fields.map Prod.fst) =
      some (fields.map fun field => some field.2) := by
  have lookUp : ∀ field ∈ fields, fields.lookup field.1 = some field.2 := by
    intro field member
    obtain ⟨earlier, later, rfl⟩ := List.append_of_mem member
    have fresh := TomlDocument.fresh_of_nodup distinct
    refine List.lookup_eq_some_iff.mpr ⟨earlier, later, rfl, fun other inEarlier => ?_⟩
    rw [bne_iff_ne]
    exact fun same => fresh (same ▸ List.mem_map_of_mem inEarlier)
  change some ((fields.map Prod.fst).map fun name => fields.lookup name) = _
  rw [List.map_map]
  exact congrArg some (List.map_congr_left lookUp)

/-- An unsigned setting is in the range in which the reader accepts integers. -/
theorem Toml.uint32?_integer (value : UInt32) :
    (Toml.integer value.toNat).uint32? = some value := by
  have inRange : (0 : Int) ≤ value.toNat ∧ (value.toNat : Int) < UInt32.size :=
    ⟨Int.natCast_nonneg _, Int.ofNat_lt.mpr value.toNat_lt⟩
  rw [uint32?, if_pos inRange, Int.toNat_natCast]
  exact congrArg some UInt32.ofNat_toNat

theorem Toml.char?_string (letter : Char) : (Toml.string letter.toString).char? = some letter := by
  simp [char?]

theorem CursorMode.ofToml?_label (mode : CursorMode) :
    ofToml? (.string mode.label) = some mode := by
  cases mode <;> rfl

/-- The fields of parser settings. -/
def ParserSettings.tomlFields (settings : ParserSettings) : List (String × Toml) :=
  [ ("family_prefix", .string settings.familyPrefix.toString),
    ("allow_xyz_reset", .bool settings.allowXyzReset) ]

/-- The names that the reader looks up are those that are written, in the same order. -/
theorem ParserSettings.record?_tomlFields (settings : ParserSettings) :
    (Toml.table settings.tomlFields).record? names =
      some
        [ some (.string settings.familyPrefix.toString),
          some (.bool settings.allowXyzReset) ] :=
  Toml.record?_keys nodup_names

/-- Parser settings are read back from their table. -/
theorem ParserSettings.ofToml?_tomlFields (settings : ParserSettings) :
    ofToml? (.table settings.tomlFields) = some settings := by
  unfold ofToml?
  rw [record?_tomlFields]
  dsimp only
  rw [Toml.defaulted?, Toml.defaulted?, Toml.char?_string]
  rfl

/-- The fields of viewer settings. -/
def ViewerSettings.tomlFields (settings : ViewerSettings) : List (String × Toml) :=
  [ ("path_width", .float settings.pathWidth),
    ("fallback_layer_step", .float settings.fallbackLayerStep),
    ("step_precision_digits", .integer settings.stepPrecisionDigits.toNat),
    ("current_layer_slack", .float settings.currentLayerSlack),
    ("cursor_mode", .string settings.cursorMode.label) ]

theorem ViewerSettings.record?_tomlFields (settings : ViewerSettings) :
    (Toml.table settings.tomlFields).record? names =
      some
        [ some (.float settings.pathWidth),
          some (.float settings.fallbackLayerStep),
          some (.integer settings.stepPrecisionDigits.toNat),
          some (.float settings.currentLayerSlack),
          some (.string settings.cursorMode.label) ] :=
  Toml.record?_keys nodup_names

/-- Viewer settings are read back from their table; its doubles are carried over as they are. -/
theorem ViewerSettings.ofToml?_tomlFields (settings : ViewerSettings) :
    ofToml? (.table settings.tomlFields) = some settings := by
  unfold ofToml?
  rw [record?_tomlFields]
  dsimp only
  rw [Toml.defaulted?, Toml.defaulted?, Toml.defaulted?, Toml.defaulted?, Toml.defaulted?,
    Toml.uint32?_integer, CursorMode.ofToml?_label]
  rfl

namespace Config

/-- The sections of a configuration. -/
def tomlSections (config : Config) : List (String × List (String × Toml)) :=
  [("parser", config.parser.tomlFields), ("viewer", config.viewer.tomlFields)]

/-- A configuration is read back from the table of its sections. -/
theorem ofToml?_tomlSections (config : Config) :
    ofToml? (.table (config.tomlSections.map fun table => (table.1, .table table.2))) =
      some config := by
  have fields :
      (Toml.table (config.tomlSections.map fun table => (table.1, .table table.2))).record? names =
        some [some (.table config.parser.tomlFields), some (.table config.viewer.tomlFields)] :=
    Toml.record?_keys nodup_names
  unfold ofToml?
  rw [fields]
  dsimp only
  rw [Toml.defaulted?, Toml.defaulted?, ParserSettings.ofToml?_tomlFields,
    ViewerSettings.ofToml?_tomlFields]
  rfl

/-! ## Lines -/

open TomlReader

theorem toList_tomlLine (key value : String) :
    (tomlLine key value).toList =
      key.toList ++ ' ' :: '=' :: ' ' :: (value.toList ++ ['\n']) := by
  simp [tomlLine]

theorem toList_tomlQuoted (word : String) :
    (tomlQuoted word).toList = '\x22' :: (word.toList ++ ['\x22']) := by
  simp [tomlQuoted]

/-- A line with a setting is an assignment. -/
theorem writesLine_tomlLine
    {key value : String}
    {toml : Toml}
    (isKey : IsBareWord key.toList)
    (writes : WritesScalar value.toList toml) :
    WritesLine (tomlLine key value).toList (some (.assign [] key toml)) := by
  have line := writesLine_assign isKey writes
  rwa [String.ofList_toList, ← toList_tomlLine] at line

/-- A word without quotation marks or escapes is written as it is between quotation marks. -/
theorem writesScalar_tomlQuoted {word : String} (isWord : IsBareWord word.toList) :
    WritesScalar (tomlQuoted word).toList (.string word) := by
  have quoted := writesScalar_word isWord
  rwa [String.ofList_toList, ← toList_tomlQuoted] at quoted

theorem isBareWord_of_all {word : String} (nonempty : word.toList ≠ [])
    (bare : word.toList.all isBareKey = true) :
    IsBareWord word.toList :=
  ⟨nonempty, List.all_eq_true.mp bare⟩

/-- No name of a section or setting needs quotation marks. -/
theorem isBareWord_name
    {name : String}
    (isName : name ∈ names ++ ParserSettings.names ++ ViewerSettings.names) :
    IsBareWord name.toList := by
  have allBare : ∀ name ∈ names ++ ParserSettings.names ++ ViewerSettings.names,
      name.toList ≠ [] ∧ name.toList.all isBareKey = true := by
    decide
  exact isBareWord_of_all (allBare name isName).1 (allBare name isName).2

/-- No label of a cursor mode needs escapes. -/
theorem isBareWord_label (mode : CursorMode) : IsBareWord mode.label.toList := by
  cases mode <;> exact isBareWord_of_all (by decide) (by decide)

/-- The lines of a configuration. -/
def tomlLines (config : Config) : List String :=
  [ "[parser]\n",
    tomlLine "family_prefix" (tomlQuoted config.parser.familyPrefix.toString),
    tomlLine "allow_xyz_reset" (if config.parser.allowXyzReset then "true" else "false"),
    "\n",
    "[viewer]\n",
    tomlLine "path_width" (NumberText.pointed config.viewer.pathWidth),
    tomlLine "fallback_layer_step" (NumberText.pointed config.viewer.fallbackLayerStep),
    tomlLine "step_precision_digits" (toString config.viewer.stepPrecisionDigits.toNat),
    tomlLine "current_layer_slack" (NumberText.pointed config.viewer.currentLayerSlack),
    tomlLine "cursor_mode" (tomlQuoted config.viewer.cursorMode.label) ]

/-- The text of a configuration is that of its lines one after the other. -/
theorem toList_tomlText (config : Config) :
    config.tomlText.toList = (config.tomlLines.map String.toList).flatten := by
  -- A section but the first has an empty line before it.
  have opening : "\n[viewer]\n".toList = "\n".toList ++ "[viewer]\n".toList := rfl
  delta tomlText
  simp only [tomlLines, opening, String.toList_append, List.map_cons, List.map_nil,
    List.flatten_cons, List.flatten_nil, List.append_nil, List.append_assoc]

/-- What the lines of a configuration state. -/
def tomlStatements (config : Config) : List (Option TomlStatement) :=
  [ some (.header [] "parser"),
    some (.assign [] "family_prefix" (.string config.parser.familyPrefix.toString)),
    some (.assign [] "allow_xyz_reset" (.bool config.parser.allowXyzReset)),
    none,
    some (.header [] "viewer"),
    some (.assign [] "path_width" (.float config.viewer.pathWidth)),
    some (.assign [] "fallback_layer_step" (.float config.viewer.fallbackLayerStep)),
    some (.assign [] "step_precision_digits"
      (.integer config.viewer.stepPrecisionDigits.toNat)),
    some (.assign [] "current_layer_slack" (.float config.viewer.currentLayerSlack)),
    some (.assign [] "cursor_mode" (.string config.viewer.cursorMode.label)) ]

/-- Apart from the empty line between them, the lines state the sections with their settings. -/
theorem filterMap_tomlStatements (config : Config) :
    config.tomlStatements.filterMap id =
      config.tomlSections.flatMap TomlDocument.sectionStatements :=
  rfl

theorem writesScalar_bool (truth : Bool) :
    WritesScalar (if truth then "true" else "false").toList (.bool truth) := by
  cases truth with
  | true => exact writesScalar_true
  | false => exact writesScalar_false

/-- A line with a name in brackets is the header of a section. -/
theorem writesLine_headerText
    {name text : String}
    (isWord : IsBareWord name.toList)
    (isText : text.toList = '[' :: (name.toList ++ [']', '\n'])) :
    WritesLine text.toList (some (.header [] name)) := by
  have header := writesLine_header isWord
  rwa [String.ofList_toList, ← isText] at header

/-- A letter needs no escape: this is where it matters that a family is a letter. -/
theorem isBareWord_letter {letter : Char} (alphabetic : letter.isAlpha = true) :
    IsBareWord letter.toString.toList := by
  have bare : isBareKey letter = true := by
    simp [isBareKey, Char.isAlphanum, alphabetic]
  refine isBareWord_of_all ?_ ?_ <;> simp [bare]

/-- An unsigned setting is below the greatest integer of the format. -/
theorem writesScalar_digits (digits : UInt32) :
    WritesScalar (toString digits.toNat).toList (.integer digits.toNat) := by
  have fits : (digits.toNat : Int) ≤ Binary64.greatestInt64 := by
    have below := digits.toNat_lt
    change (digits.toNat : Int) ≤ 2 ^ 63 - 1
    omega
  have text : (toString digits.toNat).toList = NumberText.naturalDigits digits.toNat := by
    rw [Nat.toString_eq_repr, Nat.repr, String.toList_ofList, NumberText.naturalDigits]
  rw [text]
  exact writesScalar_natural fits

/-- The lines of a configuration are its statements. -/
theorem writesLine_tomlLines
    {config : Config}
    (alphabetic : config.parser.familyPrefix.isAlpha = true)
    (numbers : ∀ x ∈ config.viewer.doubles, x.isNaN = false) :
    List.Forall₂ WritesLine (config.tomlLines.map String.toList) config.tomlStatements := by
  obtain ⟨width, step, slack, _⟩ : _ ∧ _ ∧ _ ∧ _ := by
    simpa only [ViewerSettings.doubles, List.forall_mem_cons] using numbers
  have family := writesScalar_tomlQuoted (isBareWord_letter alphabetic)
  have mode := writesScalar_tomlQuoted (isBareWord_label config.viewer.cursorMode)
  unfold tomlLines tomlStatements
  simp only [List.map_cons, List.map_nil]
  exact
    .cons (writesLine_headerText (isBareWord_name (by decide)) (by decide)) <|
    .cons (writesLine_tomlLine (isBareWord_name (by decide)) family) <|
    .cons (writesLine_tomlLine (isBareWord_name (by decide)) (writesScalar_bool _)) <|
    .cons writesLine_empty <|
    .cons (writesLine_headerText (isBareWord_name (by decide)) (by decide)) <|
    .cons (writesLine_tomlLine (isBareWord_name (by decide)) (writesScalar_pointed width)) <|
    .cons (writesLine_tomlLine (isBareWord_name (by decide)) (writesScalar_pointed step)) <|
    .cons (writesLine_tomlLine (isBareWord_name (by decide)) (writesScalar_digits _)) <|
    .cons (writesLine_tomlLine (isBareWord_name (by decide)) (writesScalar_pointed slack)) <|
    .cons (writesLine_tomlLine (isBareWord_name (by decide)) mode) <|
    .nil

/-- A configuration is read back from its text in TOML. -/
theorem ofTomlText?_tomlText
    {config : Config}
    (alphabetic : config.parser.familyPrefix.isAlpha = true)
    (numbers : ∀ x ∈ config.viewer.doubles, x.isNaN = false) :
    ofTomlText? config.tomlText = some config := by
  have opening : "[parser]\n".toList = '[' :: "parser]\n".toList := by decide
  have noMark : Scanner.exactly '\uFEFF' (config.tomlLines.map String.toList).flatten = none := by
    rw [tomlLines, List.map_cons, List.flatten_cons, opening, List.cons_append,
      Scanner.exactly_cons, if_neg (by decide)]
  have lines := document_lines (writesLine_tomlLines alphabetic numbers) noMark
  have distinct : (config.tomlSections.map Prod.fst).Nodup := nodup_names
  have distinctKeys : ∀ table ∈ config.tomlSections, (table.2.map Prod.fst).Nodup := by
    simp only [tomlSections, List.forall_mem_cons]
    exact ⟨ParserSettings.nodup_names, ViewerSettings.nodup_names, List.forall_mem_nil _⟩
  have isTable : Toml.ofText? config.tomlText =
      some (.table (config.tomlSections.map fun table => (table.1, .table table.2))) := by
    rw [Toml.ofText?, Scanner.all?, toList_tomlText, lines, filterMap_tomlStatements]
    exact TomlDocument.value?_sections distinct distinctKeys
  rw [ofTomlText?, isTable, Option.bind_some, ofToml?_tomlSections]

end Config

end LayerPlayback
