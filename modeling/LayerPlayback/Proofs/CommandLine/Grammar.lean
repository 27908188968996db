import LayerPlayback.Proofs.CommandLine.Order

namespace LayerPlayback.CommandLine

/-!
# The grammar of the arguments

Arguments ask for a report exactly when they split into groups: a file, a request for
JSON, a configuration with its path, and a window with two or three numbers.  There is
one file, and a window that leaves its progress out ends the arguments or stands before a
token with two dashes.  What the report is to be about is then read off the groups, the
last configuration and the last window counting.
-/

/-! ## Groups of tokens -/

/-- A token that names a file: a single dash, or a token that does not start with a dash. -/
structure FileToken where
  text : String
  isFile : text = "-" ∨ text.toList.head? ≠ some '-'

/-- Tokens that belong together. -/
inductive Group where
  | file (token : FileToken)
  | json
  | config (path : String)
  | window (texts : WindowTexts)

namespace Group

/-- The tokens of a group. -/
def tokens : Group → List String
  | file token => [token.text]
  | json => ["--json"]
  | config path => ["--config", path]
  | window texts => "--window" :: texts.arguments

/-- The file that a group names. -/
def file? : Group → Option String
  | file token => some token.text
  | _ => none

/-- The path of a configuration that a group names. -/
def config? : Group → Option String
  | config path => some path
  | _ => none

/-- The window that a group writes down. -/
def window? : Group → Option WindowArguments
  | window texts => some texts.window
  | _ => none

/-- Whether a group leaves out a progress, so that the next token could be taken for one. -/
def IsOpen : Group → Prop
  | window texts => texts.progress? = none
  | _ => False

/-- An open group is the last one, or a token with two dashes comes next. -/
def EndsBefore (group : Group) (rest : List String) : Prop :=
  group.IsOpen → ∀ token ∈ rest.head?, ['-', '-'] <+: token.toList

theorem length_tokens_pos (group : Group) : 0 < group.tokens.length := by
  cases group <;> exact Nat.succ_pos _

end Group

/-- Groups of which each one ends where the next one begins. -/
def Separated : List Group → Prop
  | [] => True
  | group :: later => group.EndsBefore (later.flatMap Group.tokens) ∧ Separated later

/-- What groups ask for. -/
structure Asks (groups : List Group) (summary : SummaryArguments) : Prop where
  /-- There is one file. -/
  file : groups.filterMap Group.file? = [summary.file]
  json : summary.json = true ↔ .json ∈ groups
  /-- The last configuration counts. -/
  config : summary.config? = (groups.filterMap Group.config?).getLast?
  /-- The last window counts. -/
  window : summary.window? = (groups.filterMap Group.window?).getLast?

/-! ## What groups ask for behind others -/

/-- What groups ask for, added to what is found already. -/
structure Found.Completes (found : Found) (groups : List Group) (summary : SummaryArguments) :
    Prop where
  file : found.file?.toList ++ groups.filterMap Group.file? = [summary.file]
  json : summary.json = true ↔ found.json = true ∨ .json ∈ groups
  config :
    summary.config? = (found.config?.toList ++ groups.filterMap Group.config?).getLast?
  window :
    summary.window? = (found.window?.toList ++ groups.filterMap Group.window?).getLast?

/-- Behind nothing, groups complete to what they ask for. -/
theorem completes_empty_iff {groups : List Group} {summary : SummaryArguments} :
    ({} : Found).Completes groups summary ↔ Asks groups summary := by
  constructor
  · rintro ⟨file, json, config, window⟩
    exact ⟨file, by simpa using json, config, window⟩
  · rintro ⟨file, json, config, window⟩
    exact ⟨file, by simpa using json, config, window⟩

/-- Also ask for what a group asks for. -/
def Found.take (found : Found) : Group → Found
  | .file token => found.withFile token.text
  | .json => found.withJson
  | .config path => found.withConfig path
  | .window texts => found.withWindow texts.window

/-- Of what is found already and what comes next, the next one is the later one. -/
theorem getLast?_toList_append
    {α : Type}
    (earlier? next? : Option α)
    (later : List α) :
    (earlier?.toList ++ (next?.toList ++ later)).getLast? =
      ((next?.or earlier?).toList ++ later).getLast? := by
  cases earlier? <;> cases next? <;> rfl

theorem getLast?_toList {α : Type} (found? : Option α) :
    (found?.toList ++ []).getLast? = found? := by
  cases found? <;> rfl

namespace Found

variable (found : Found) (group : Group)

theorem file?_take : (found.take group).file? = group.file?.or found.file? := by
  cases group <;> rfl

/-- A configuration that a group names takes the place of an earlier one. -/
theorem config?_take : (found.take group).config? = group.config?.or found.config? := by
  cases group <;> rfl

/-- A window that a group writes down takes the place of an earlier one. -/
theorem window?_take : (found.take group).window? = group.window?.or found.window? := by
  cases group <;> rfl

theorem json_take : (found.take group).json = true ↔ found.json = true ∨ .json = group := by
  cases group <;> simp [take, withFile, withJson, withConfig, withWindow]

variable {found group} {later : List Group} {summary : SummaryArguments}

/-- With no groups left, a report is about what is found. -/
theorem completes_nil_iff :
    found.Completes [] summary ↔ found.finished = .ok (.summarize summary) := by
  obtain ⟨file?, config?, json, window?⟩ := found
  constructor
  · intro completes
    have isFile : file? = some summary.file :=
      Option.toList_eq_singleton_iff.mp ((List.append_nil _).symm.trans completes.file)
    have sameJson : summary.json = json :=
      Bool.eq_iff_iff.mpr (completes.json.trans (or_iff_left List.not_mem_nil))
    have sameConfig : summary.config? = config? := completes.config.trans (getLast?_toList _)
    have sameWindow : summary.window? = window? := completes.window.trans (getLast?_toList _)
    subst isFile sameJson sameConfig sameWindow
    rfl
  · intro finished
    cases file? with
    | none => cases finished
    | some file =>
        cases finished
        exact ⟨rfl, (or_iff_left List.not_mem_nil).symm, (getLast?_toList _).symm,
          (getLast?_toList _).symm⟩

/-- Each group adds what it asks for, and a file only if none is found yet. -/
theorem completes_cons_iff :
    found.Completes (group :: later) summary ↔
      (group.file?.isSome → found.file? = none) ∧ (found.take group).Completes later summary := by
  have file :
      found.file?.toList ++ (group :: later).filterMap Group.file? = [summary.file] ↔
        (group.file?.isSome → found.file? = none) ∧
          (found.take group).file?.toList ++ later.filterMap Group.file? = [summary.file] := by
    rw [filterMap_cons_eq_append, toList_append_eq_singleton_iff, file?_take]
  have json :
      found.json = true ∨ .json ∈ group :: later ↔
        (found.take group).json = true ∨ .json ∈ later := by
    rw [json_take, List.mem_cons, or_assoc]
  have config :
      (found.config?.toList ++ (group :: later).filterMap Group.config?).getLast? =
        ((found.take group).config?.toList ++ later.filterMap Group.config?).getLast? := by
    rw [filterMap_cons_eq_append, getLast?_toList_append, config?_take]
  have window :
      (found.window?.toList ++ (group :: later).filterMap Group.window?).getLast? =
        ((found.take group).window?.toList ++ later.filterMap Group.window?).getLast? := by
    rw [filterMap_cons_eq_append, getLast?_toList_append, window?_take]
  constructor
  · intro completes
    obtain ⟨onlyFile, oneFile⟩ := file.mp completes.file
    exact ⟨onlyFile, oneFile, completes.json.trans json, completes.config.trans config,
      completes.window.trans window⟩
  · rintro ⟨onlyFile, completes⟩
    exact ⟨file.mpr ⟨onlyFile, completes.file⟩, completes.json.trans json.symm,
      completes.config.trans config.symm, completes.window.trans window.symm⟩

end Found

/-! ## Reading one group -/

section Step

variable {found : Found} {rest : List String}

/-- A group is read as a whole when the next one starts where it ends. -/
theorem readFrom_group
    {group : Group}
    (onlyFile : group.file?.isSome → found.file? = none)
    (ends : group.EndsBefore rest) :
    readFrom found (group.tokens ++ rest) = readFrom (found.take group) rest := by
  cases group with
  | file token =>
      exact readFrom_file found (onlyFile rfl) (isOption_eq_false_iff.mpr token.isFile) _
  | json => exact readFrom_json found _
  | config path => exact readFrom_config found path _
  | window texts =>
      exact readFrom_texts found texts fun isOpen next isNext =>
        isLongOption_iff.mpr (ends isOpen next isNext)

/-- What ends well went well in all its parts. -/
theorem exists_of_bind_eq_ok
    {α β : Type}
    {first : Except ArgumentError α}
    {next : α → Except ArgumentError β}
    {result : β}
    (reads : (first >>= next) = .ok result) :
    ∃ value, first = .ok value ∧ next value = .ok result := by
  cases first with
  | error error => cases reads
  | ok value => exact ⟨value, rfl, reads⟩

/-- A number that is accepted is written in the arguments. -/
theorem exists_written_of_number
    {text : String}
    {value : Float}
    (reads : number text = .ok value) :
    ∃ written : WrittenNumber, written.text = text ∧ written.value = value := by
  unfold number at reads
  split at reads
  · next isNumber =>
      cases reads
      exact ⟨⟨text, value, isNumber⟩, rfl, rfl⟩
  · cases reads

/-- A progress is read from the next token, or there is none and the next token has two dashes. -/
theorem exists_progress_of_readProgress
    {progress? : Option Float}
    (reads : readProgress rest = .ok progress?) :
    ∃ written? : Option WrittenNumber,
      written?.map WrittenNumber.value = progress? ∧
        written?.toList.map WrittenNumber.text <+: rest ∧
        (written? = none → ∀ token ∈ rest.head?, ['-', '-'] <+: token.toList) := by
  cases rest with
  | nil =>
      cases reads
      exact ⟨none, rfl, List.nil_prefix, fun _ _ isNext => (Option.not_mem_none _ isNext).elim⟩
  | cons token others =>
      rw [readProgress] at reads
      split at reads
      · next long =>
          cases reads
          refine ⟨none, rfl, List.nil_prefix, ?_⟩
          rintro _ _ ⟨⟩
          exact isLongOption_iff.mp long
      · cases isNumber : number token with
        | error error =>
            rw [isNumber] at reads
            cases reads
        | ok value =>
            rw [isNumber] at reads
            cases reads
            obtain ⟨written, rfl, rfl⟩ := exists_written_of_number isNumber
            exact ⟨some written, rfl, ⟨others, rfl⟩,
              fun missing => (Option.some_ne_none _ missing).elim⟩

/-- A window that is read is written in front of what is left. -/
theorem exists_texts_of_readWindow
    {window : WindowArguments}
    (reads : readWindow rest = .ok window) :
    ∃ (texts : WindowTexts) (others : List String),
      texts.window = window ∧
        texts.arguments ++ others = rest ∧
        rest.drop window.numberCount = others ∧
        (texts.progress? = none → ∀ token ∈ others.head?, ['-', '-'] <+: token.toList) := by
  match rest, reads with
  | [], reads => cases reads
  | [first], reads =>
      rw [readWindow] at reads
      obtain ⟨_, _, refused⟩ := exists_of_bind_eq_ok reads
      cases refused
  | first :: second :: others, reads =>
      rw [readWindow] at reads
      obtain ⟨lowerValue, isLower, reads⟩ := exists_of_bind_eq_ok reads
      obtain ⟨upperValue, isUpper, reads⟩ := exists_of_bind_eq_ok reads
      obtain ⟨progress?, isProgress, reads⟩ := exists_of_bind_eq_ok reads
      cases reads
      obtain ⟨lower, rfl, rfl⟩ := exists_written_of_number isLower
      obtain ⟨upper, rfl, rfl⟩ := exists_written_of_number isUpper
      obtain ⟨written?, rfl, ⟨behind, rfl⟩, ends⟩ := exists_progress_of_readProgress isProgress
      refine ⟨⟨lower, upper, written?⟩, behind, rfl, rfl, ?_, ?_⟩
      · cases written? <;> rfl
      · rintro rfl
        exact ends rfl

/-- What is read of further arguments begins with a group. -/
theorem exists_group_of_readFrom
    {token : String}
    {summary : SummaryArguments}
    (reads : readFrom found (token :: rest) = .ok (.summarize summary)) :
    ∃ (group : Group) (others : List String),
      group.tokens ++ others = token :: rest ∧
        (group.file?.isSome → found.file? = none) ∧
        group.EndsBefore others ∧
        readFrom (found.take group) others = .ok (.summarize summary) := by
  have noFile : (none : Option String).isSome → found.file? = none :=
    fun isSome => (Bool.false_ne_true isSome).elim
  -- The cases are those of the reader, in its order; help, version and errors are no reports.
  unfold readFrom at reads
  split at reads
  · cases reads
  split at reads
  · cases reads
  split at reads
  · next isJson =>
      subst isJson
      exact ⟨.json, rest, rfl, noFile, False.elim, reads⟩
  split at reads
  · next isConfig =>
      subst isConfig
      cases rest with
      | nil => cases reads
      | cons path others => exact ⟨.config path, others, rfl, noFile, False.elim, reads⟩
  split at reads
  · next isWindow =>
      subst isWindow
      split at reads
      · cases reads
      · next window isWindow =>
          obtain ⟨texts, others, rfl, split, dropped, ends⟩ := exists_texts_of_readWindow isWindow
          rw [dropped] at reads
          exact ⟨.window texts, others, congrArg (_ :: ·) split, noFile, ends, reads⟩
  split at reads
  · cases reads
  · next notOption =>
      split at reads
      · cases reads
      · next missing =>
          exact ⟨.file ⟨token, isOption_eq_false_iff.mp (Bool.eq_false_iff.mpr notOption)⟩, rest,
            rfl, fun _ => Option.not_isSome_iff_eq_none.mp missing, False.elim, reads⟩

end Step

/-! ## Reading all groups -/

/-- Reading goes group by group, and a report is about what the groups ask for. -/
theorem readFrom_eq_summarize_iff
    {found : Found}
    {arguments : List String}
    {summary : SummaryArguments} :
    readFrom found arguments = .ok (.summarize summary) ↔
      ∃ groups : List Group,
        groups.flatMap Group.tokens = arguments ∧
          Separated groups ∧ found.Completes groups summary := by
  constructor
  · intro reads
    -- A group takes several tokens at once, so the induction is on the number of tokens left.
    induction length : arguments.length using Nat.strongRecOn generalizing found arguments with
    | ind _ inductionHypothesis =>
        subst length
        cases arguments with
        | nil =>
            rw [readFrom] at reads
            exact ⟨[], rfl, trivial, Found.completes_nil_iff.mpr reads⟩
        | cons token rest =>
            obtain ⟨group, others, split, onlyFile, ends, reads⟩ := exists_group_of_readFrom reads
            have shorter : others.length < (token :: rest).length := by
              rw [← split, List.length_append]
              exact Nat.lt_add_of_pos_left group.length_tokens_pos
            obtain ⟨later, rfl, separated, completes⟩ := inductionHypothesis _ shorter reads rfl
            exact ⟨group :: later, split, ⟨ends, separated⟩,
              Found.completes_cons_iff.mpr ⟨onlyFile, completes⟩⟩
  · rintro ⟨groups, rfl, separated, completes⟩
    induction groups generalizing found with
    | nil =>
        rw [List.flatMap_nil, readFrom]
        exact Found.completes_nil_iff.mp completes
    | cons group later inductionHypothesis =>
        obtain ⟨ends, laterSeparated⟩ := separated
        obtain ⟨onlyFile, laterCompletes⟩ := Found.completes_cons_iff.mp completes
        rw [List.flatMap_cons, readFrom_group onlyFile ends]
        exact inductionHypothesis laterSeparated laterCompletes

/--
A report is asked for exactly when the arguments split into groups with one file among
them, each ending where the next one begins, and the report is about what they ask for.
-/
theorem ofArguments_eq_summarize_iff
    {arguments : List String}
    {summary : SummaryArguments} :
    ofArguments arguments = .ok (.summarize summary) ↔
      ∃ groups : List Group,
        groups.flatMap Group.tokens = arguments ∧ Separated groups ∧ Asks groups summary := by
  simp only [ofArguments, readFrom_eq_summarize_iff, completes_empty_iff]

end LayerPlayback.CommandLine
