import Mathlib.Data.List.Chain
import Mathlib.Data.List.Perm.Basic
import LayerPlayback.CommandLine.Arguments

namespace LayerPlayback.CommandLine

/-!
# The order of the arguments

The file and the options ask for the same in almost every order.  A window without a
progress takes the next argument for one unless it starts with two dashes; so a file
that stands directly behind such a window is not read as a file, and the arguments
are refused.  In all other orders each item is read by itself, and what the items ask
for does not interfere.
-/

/-! ## Dashes -/

/-- No option is a single dash or starts without a dash. -/
theorem isOption_eq_false_iff {text : String} :
    isOption text = false ↔ text = "-" ∨ text.toList.head? ≠ some '-' := by
  rw [← String.toList_inj]
  unfold isOption
  generalize text.toList = characters
  split
  · simp
  · next notOption =>
      refine iff_of_true rfl ?_
      rcases characters with _ | ⟨first, _ | ⟨second, rest⟩⟩
      · exact .inr nofun
      · by_cases dash : first = '-'
        · exact .inl (congrArg (fun character => [character]) dash)
        · exact .inr fun head => dash (Option.some.inj head)
      · exact .inr fun head => notOption second rest (by rw [Option.some.inj head])

/-- A long option starts with two dashes. -/
theorem isLongOption_iff {text : String} :
    isLongOption text = true ↔ ['-', '-'] <+: text.toList := by
  unfold isLongOption
  split
  · next rest shape => exact ⟨fun _ => ⟨rest, shape.symm⟩, fun _ => rfl⟩
  · next notLong =>
      refine ⟨nofun, ?_⟩
      rintro ⟨rest, shape⟩
      exact (notLong rest shape.symm).elim

/-! ## Items -/

/-- A text that stands for a finite number. -/
structure WrittenNumber where
  text : String
  value : Float
  isNumber : NumberLiteral.finite? text.toList = some value

/-- A file name, which does not start with a dash. -/
structure FileName where
  text : String
  noDash : text.toList.head? ≠ some '-'

/-- The numbers of a window as they are written. -/
structure WindowTexts where
  lower : WrittenNumber
  upper : WrittenNumber
  progress? : Option WrittenNumber := none

namespace WrittenNumber

/-- A text that is known to stand for a finite number. -/
def ofText
    (text : String)
    (isNumber : (NumberLiteral.finite? text.toList).isSome) :
    WrittenNumber :=
  ⟨text, (NumberLiteral.finite? text.toList).get isNumber, (Option.some_get isNumber).symm⟩

theorem number_text (written : WrittenNumber) : number written.text = .ok written.value := by
  rw [number, written.isNumber]

/-- A number starts with one dash at most. -/
theorem not_isLongOption (written : WrittenNumber) : isLongOption written.text = false := by
  rw [Bool.eq_false_iff]
  intro long
  obtain ⟨rest, twoDashes⟩ := isLongOption_iff.mp long
  have noNumber : NumberLiteral.finite? ('-' :: '-' :: rest) = none := rfl
  have isNumber := written.isNumber
  rw [← twoDashes] at isNumber
  cases noNumber.symm.trans isNumber

end WrittenNumber

namespace FileName

variable (name : FileName)

theorem not_isOption : isOption name.text = false :=
  isOption_eq_false_iff.mpr (.inr name.noDash)

theorem not_isLongOption : isLongOption name.text = false := by
  rw [Bool.eq_false_iff]
  intro long
  obtain ⟨rest, twoDashes⟩ := isLongOption_iff.mp long
  exact name.noDash (by rw [← twoDashes]; rfl)

end FileName

namespace WindowTexts

/-- The numbers as arguments. -/
def arguments (texts : WindowTexts) : List String :=
  texts.lower.text :: texts.upper.text :: texts.progress?.toList.map WrittenNumber.text

/-- The window that is written. -/
def window (texts : WindowTexts) : WindowArguments :=
  ⟨texts.lower.value, texts.upper.value, texts.progress?.map WrittenNumber.value⟩

end WindowTexts

/-- A file or an option, with the arguments that belong to it. -/
inductive Item where
  | file (name : FileName)
  | json
  | config (path : String)
  | window (texts : WindowTexts)

namespace Item

/-- The arguments of an item. -/
def arguments : Item → List String
  | file name => [name.text]
  | json => ["--json"]
  | config path => ["--config", path]
  | window texts => "--window" :: texts.arguments

/-- The file that an item names. -/
def file? : Item → Option String
  | file name => some name.text
  | _ => none

/-- Whether an item takes the next one for a progress. -/
def swallows : Item → Item → Bool
  | window texts, file _ => texts.progress?.isNone
  | _, _ => false

end Item

/-- Also ask for what an item asks for. -/
def Found.record (found : Found) : Item → Found
  | .file name => found.withFile name.text
  | .json => found.withJson
  | .config path => found.withConfig path
  | .window texts => found.withWindow texts.window

/-! ## One item -/

section Step

variable (found : Found)

theorem readFrom_json (rest : List String) :
    readFrom found ("--json" :: rest) = readFrom found.withJson rest := by
  conv_lhs => unfold readFrom
  rw [if_neg (by decide), if_neg (by decide), if_pos rfl]

/-- The path of a configuration is taken as it is, also when it looks like an option. -/
theorem readFrom_config (path : String) (rest : List String) :
    readFrom found ("--config" :: path :: rest) = readFrom (found.withConfig path) rest := by
  conv_lhs => unfold readFrom
  rw [if_neg (by decide), if_neg (by decide), if_neg (by decide), if_pos rfl]

/-- A window takes as many tokens as it has numbers. -/
theorem readFrom_window (rest : List String) :
    readFrom found ("--window" :: rest) =
      (readWindow rest).bind fun window =>
        readFrom (found.withWindow window) (rest.drop window.numberCount) := by
  conv_lhs => unfold readFrom
  rw [if_neg (by decide), if_neg (by decide), if_neg (by decide), if_neg (by decide), if_pos rfl]
  cases readWindow rest <;> rfl

/-- What is no option names the file. -/
theorem readFrom_file
    (missing : found.file? = none)
    {text : String}
    (noOption : isOption text = false)
    (rest : List String) :
    readFrom found (text :: rest) = readFrom (found.withFile text) rest := by
  have ne {option : String} (isOption' : isOption option = true) : text ≠ option := by
    rintro rfl
    exact Bool.false_ne_true (noOption.symm.trans isOption')
  conv_lhs => unfold readFrom
  rw [if_neg (not_or.mpr ⟨ne rfl, ne rfl⟩), if_neg (not_or.mpr ⟨ne rfl, ne rfl⟩), if_neg (ne rfl),
    if_neg (ne rfl), if_neg (ne rfl), noOption, missing]
  rfl

/-- A window is read up to its two bounds, and then asks for a progress. -/
theorem readFrom_bounds (lower upper : WrittenNumber) (rest : List String) :
    readFrom found ("--window" :: lower.text :: upper.text :: rest) =
      (readProgress rest).bind fun progress? =>
        readFrom
          (found.withWindow ⟨lower.value, upper.value, progress?⟩)
          (rest.drop progress?.toList.length) := by
  have reads :
      readWindow (lower.text :: upper.text :: rest) =
        (readProgress rest).map (⟨lower.value, upper.value, ·⟩) := by
    rw [readWindow, lower.number_text, upper.number_text]
    rfl
  rw [readFrom_window, reads]
  cases readProgress rest with
  | error error => rfl
  | ok progress? => cases progress? <;> rfl

/-- A window without a progress ends before a long option. -/
theorem readFrom_texts
    (texts : WindowTexts)
    {rest : List String}
    (ends : texts.progress? = none → ∀ next ∈ rest.head?, isLongOption next = true) :
    readFrom found ("--window" :: (texts.arguments ++ rest)) =
      readFrom (found.withWindow texts.window) rest := by
  obtain ⟨lower, upper, progress?⟩ := texts
  refine (readFrom_bounds found lower upper _).trans ?_
  cases progress? with
  | some progress =>
      have read : readProgress (progress.text :: rest) = .ok (some progress.value) := by
        rw [readProgress, progress.not_isLongOption, progress.number_text]
        rfl
      exact congrArg (Except.bind · _) read
  | none =>
      have read : readProgress rest = .ok none := by
        cases rest with
        | nil => rfl
        | cons next others => exact if_pos (ends rfl next rfl)
      exact congrArg (Except.bind · _) read

/-- An item is read as what it is, unless it takes the next one for a progress. -/
theorem readFrom_item
    {item : Item}
    {later : List Item}
    (onlyFile : item.file?.isSome → found.file? = none)
    (apart : ∀ next ∈ later.head?, item.swallows next = false) :
    readFrom found ((item :: later).flatMap Item.arguments) =
      readFrom (found.record item) (later.flatMap Item.arguments) := by
  rw [List.flatMap_cons]
  cases item with
  | file name => exact readFrom_file found (onlyFile rfl) name.not_isOption _
  | json => exact readFrom_json found _
  | config path => exact readFrom_config found path _
  | window texts =>
      refine readFrom_texts found texts fun noProgress next isNext => ?_
      cases later with
      | nil => cases isNext
      | cons item others =>
          cases item with
          | file name =>
              have swallows : texts.progress?.isNone = false := apart _ rfl
              rw [noProgress] at swallows
              cases swallows
          | json =>
              cases isNext
              rfl
          | config path =>
              cases isNext
              rfl
          | window texts =>
              cases isNext
              rfl

/-- A window without a progress takes the name of a file for one. -/
theorem readFrom_swallowed (lower upper : WrittenNumber) (name : FileName) (later : List Item) :
    readFrom found
        ((.window ⟨lower, upper, none⟩ :: .file name :: later).flatMap Item.arguments) =
      (number name.text).bind fun progress =>
        readFrom
          (found.withWindow ⟨lower.value, upper.value, some progress⟩)
          (later.flatMap Item.arguments) := by
  refine (readFrom_bounds found lower upper _).trans ?_
  have read :
      readProgress (name.text :: later.flatMap Item.arguments) = (number name.text).map some := by
    rw [readProgress, name.not_isLongOption]
    rfl
  refine (congrArg (Except.bind · _) read).trans ?_
  cases number name.text <;> rfl

end Step

/-! ## Any number of items -/

/-- No file stands directly behind a window without a progress. -/
def Readable (order : List Item) : Prop :=
  order.IsChain fun item next => item.swallows next = false

instance (order : List Item) : Decidable (Readable order) :=
  inferInstanceAs (Decidable (order.IsChain _))

/-- Why arguments are refused whose file is taken for a progress. -/
def FileName.swallowedError (name : FileName) : ArgumentError :=
  match number name.text with
  | .error error => error
  | .ok _ => .missingFile

theorem Found.file?_record (found : Found) (item : Item) :
    (found.record item).file? = (item.file?.or found.file?) := by
  cases item <;> rfl

/-- Items without a file are read one after the other, and no file is found. -/
theorem readFrom_of_no_files
    {found : Found}
    {order : List Item}
    (noFiles : ∀ item ∈ order, item.file? = none) :
    readFrom found (order.flatMap Item.arguments) = (order.foldl Found.record found).finished ∧
      (order.foldl Found.record found).file? = found.file? := by
  induction order generalizing found with
  | nil =>
      rw [List.flatMap_nil, readFrom]
      exact ⟨rfl, rfl⟩
  | cons item later inductionHypothesis =>
      obtain ⟨noFile, laterNoFiles⟩ := List.forall_mem_cons.mp noFiles
      have apart : ∀ next ∈ later.head?, item.swallows next = false := by
        intro next isNext
        have nextNoFile := laterNoFiles next (List.mem_of_mem_head? isNext)
        cases next with
        | file name => cases nextNoFile
        | _ => cases item <;> rfl
      have onlyFile : item.file?.isSome → found.file? = none := by
        rw [noFile]
        exact fun isFile => (Bool.false_ne_true isFile).elim
      obtain ⟨reads, sameFile⟩ := @inductionHypothesis (found.record item) laterNoFiles
      rw [Found.file?_record, noFile, Option.none_or] at sameFile
      exact ⟨(readFrom_item found onlyFile apart).trans reads, sameFile⟩

theorem filterMap_cons_eq_append
    {α β : Type}
    (f : α → Option β)
    (item : α)
    (later : List α) :
    (item :: later).filterMap f = (f item).toList ++ later.filterMap f := by
  rw [List.filterMap_cons]
  cases f item <;> rfl

/-- Of what is found already and what comes next, a single one can be there. -/
theorem toList_append_eq_singleton_iff
    {α : Type}
    {earlier? next? : Option α}
    {later : List α}
    {only : α} :
    earlier?.toList ++ (next?.toList ++ later) = [only] ↔
      (next?.isSome → earlier? = none) ∧ (next?.or earlier?).toList ++ later = [only] := by
  cases earlier? <;> cases next? <;> simp

/-- One file is found or still to come. -/
def OneFile (found : Found) (order : List Item) (name : FileName) : Prop :=
  found.file?.toList ++ order.filterMap Item.file? = [name.text]

/-- The one file is found now or later: behind a file there is no second one. -/
theorem OneFile.cons
    {found : Found}
    {item : Item}
    {later : List Item}
    {name : FileName}
    (oneFile : OneFile found (item :: later) name) :
    (item.file?.isSome → found.file? = none) ∧ OneFile (found.record item) later name := by
  unfold OneFile at oneFile ⊢
  rw [filterMap_cons_eq_append, toList_append_eq_singleton_iff] at oneFile
  rw [Found.file?_record]
  exact oneFile

/-- A file that is swallowed stands directly behind a window without a progress. -/
theorem exists_of_not_apart
    {item : Item}
    {later : List Item}
    (notApart : ¬ ∀ next ∈ later.head?, item.swallows next = false) :
    ∃ lower upper name after,
      item = .window ⟨lower, upper, none⟩ ∧ later = .file name :: after := by
  cases later with
  | nil => exact (notApart fun _ isNext => (Option.not_mem_none _ isNext).elim).elim
  | cons next after =>
      have swallows : item.swallows next = true := by
        refine eq_true_of_ne_false fun apart => notApart ?_
        rintro _ ⟨⟩
        exact apart
      cases item with
      | window texts =>
          cases next with
          | file name =>
              obtain ⟨lower, upper, progress?⟩ := texts
              cases progress? with
              | none => exact ⟨lower, upper, name, after, rfl, rfl⟩
              | some progress => cases swallows
          | _ => cases swallows
      | _ => cases swallows

/-- Behind a window without a progress, the only file is refused as a number, or is missing. -/
theorem readFrom_only_file
    {found : Found}
    (lower upper : WrittenNumber)
    {file name : FileName}
    {after : List Item}
    (oneFile :
      OneFile found (.window ⟨lower, upper, none⟩ :: .file file :: after) name) :
    readFrom found
        ((.window ⟨lower, upper, none⟩ :: .file file :: after).flatMap Item.arguments) =
      .error name.swallowedError := by
  obtain ⟨_, oneFile⟩ := oneFile.cons
  obtain ⟨missing, oneFile⟩ := oneFile.cons
  have notFound : found.file? = none := missing rfl
  obtain ⟨sameName, noFiles⟩ := List.cons.inj oneFile
  have noFiles : ∀ item ∈ after, item.file? = none := List.filterMap_eq_nil_iff.mp noFiles
  have sameError : name.swallowedError = file.swallowedError := by
    unfold FileName.swallowedError
    rw [← sameName]
  rw [readFrom_swallowed, sameError, FileName.swallowedError]
  cases number file.text with
  | error error => rfl
  | ok progress =>
      obtain ⟨reads, stillMissing⟩ :=
        @readFrom_of_no_files
          (found.withWindow ⟨lower.value, upper.value, some progress⟩) after noFiles
      refine reads.trans ?_
      rw [Found.finished, stillMissing.trans notFound]

/--
With one file among them, items ask for what each of them asks for, unless the file
stands directly behind a window without a progress.
-/
theorem readFrom_items
    {found : Found}
    {order : List Item}
    {name : FileName}
    (oneFile : OneFile found order name) :
    readFrom found (order.flatMap Item.arguments) =
      if Readable order then
        (order.foldl Found.record found).finished
      else
        .error name.swallowedError := by
  induction order generalizing found with
  | nil =>
      have readable : Readable [] := List.IsChain.nil
      rw [List.flatMap_nil, readFrom, if_pos readable]
      rfl
  | cons item later inductionHypothesis =>
      by_cases apart : ∀ next ∈ later.head?, item.swallows next = false
      · obtain ⟨onlyFile, laterOneFile⟩ := oneFile.cons
        have readable : Readable (item :: later) ↔ Readable later :=
          List.isChain_cons.trans (and_iff_right apart)
        rw [readFrom_item found onlyFile apart, inductionHypothesis laterOneFile, List.foldl_cons]
        simp only [readable]
      · have notReadable : ¬ Readable (item :: later) :=
          fun readable => apart (List.isChain_cons.mp readable).1
        obtain ⟨lower, upper, file, after, rfl, rfl⟩ := exists_of_not_apart apart
        rw [if_neg notReadable]
        exact readFrom_only_file lower upper oneFile

/-! ## Choices of options -/

/-- A file and options, each at most once. -/
structure Choice where
  file : FileName
  config? : Option String := none
  json : Bool := false
  window? : Option WindowTexts := none

namespace Choice

/-- The items of a choice, the file first. -/
def items (choice : Choice) : List Item :=
  .file choice.file
    :: (choice.config?.toList.map .config
      ++ (if choice.json then [.json] else [])
      ++ choice.window?.toList.map .window)

/-- What a choice asks for. -/
def summary (choice : Choice) : SummaryArguments :=
  ⟨choice.file.text, choice.config?, choice.json, choice.window?.map WindowTexts.window⟩

/-- Whether an item belongs to a choice. -/
def Has (choice : Choice) : Item → Prop
  | .file name => name = choice.file
  | .json => choice.json = true
  | .config path => choice.config? = some path
  | .window texts => choice.window? = some texts

variable {choice : Choice}

theorem has_of_mem_items {item : Item} (member : item ∈ choice.items) : choice.Has item := by
  rw [items, List.mem_cons, List.mem_append, List.mem_append] at member
  rcases member with rfl | (inConfig | inJson) | inWindow
  · rfl
  · obtain ⟨path, isPath, rfl⟩ := List.mem_map.mp inConfig
    exact Option.mem_toList.mp isPath
  · split at inJson
    · next json =>
        rw [List.mem_singleton.mp inJson]
        exact json
    · cases inJson
  · obtain ⟨texts, isTexts, rfl⟩ := List.mem_map.mp inWindow
    exact Option.mem_toList.mp isTexts

/-- The items of a choice ask for different things, so their order does not matter. -/
theorem record_comm
    {first second : Item}
    (hasFirst : choice.Has first)
    (hasSecond : choice.Has second)
    (found : Found) :
    (found.record first).record second = (found.record second).record first := by
  cases first with
  | file name =>
      cases second with
      | file other => rw [hasFirst.trans hasSecond.symm]
      | _ => rfl
  | json => cases second <;> rfl
  | config path =>
      cases second with
      | config other => rw [Option.some.inj (hasFirst.symm.trans hasSecond)]
      | _ => rfl
  | window texts =>
      cases second with
      | window other => rw [Option.some.inj (hasFirst.symm.trans hasSecond)]
      | _ => rfl

/-- What a choice asks for is found from its items. -/
theorem finished_items (choice : Choice) :
    (choice.items.foldl Found.record {}).finished = .ok (.summarize choice.summary) := by
  obtain ⟨file, config?, json, window?⟩ := choice
  cases config? <;> cases json <;> cases window? <;> rfl

theorem oneFile_items (choice : Choice) : OneFile {} choice.items choice.file := by
  obtain ⟨file, config?, json, window?⟩ := choice
  cases config? <;> cases json <;> cases window? <;> rfl

end Choice

/--
A file and options ask for the same in every order, except that a file which stands
directly behind a window without a progress is refused.
-/
theorem ofArguments_order
    (choice : Choice)
    {order : List Item}
    (isOrder : order.Perm choice.items) :
    ofArguments (order.flatMap Item.arguments) =
      if Readable order then
        .ok (.summarize choice.summary)
      else
        .error choice.file.swallowedError := by
  have oneFile : OneFile {} order choice.file := by
    have files := isOrder.filterMap Item.file?
    have inItems : choice.items.filterMap Item.file? = [choice.file.text] :=
      choice.oneFile_items
    rw [inItems] at files
    exact List.perm_singleton.mp files
  have sameFound :
      order.foldl Found.record {} = choice.items.foldl Found.record {} :=
    (isOrder.symm.foldl_eq'
      (fun _ isFirst _ isSecond found =>
        Choice.record_comm (Choice.has_of_mem_items isFirst) (Choice.has_of_mem_items isSecond)
          found)
      {}).symm
  rw [ofArguments, readFrom_items oneFile, sameFound, choice.finished_items]

/-- A file may stand last, with another option between it and the window. -/
theorem ofArguments_order_fileLast :
    let choice : Choice :=
      { file := ⟨"part.gcode", by decide⟩
        json := true
        window? := some ⟨.ofText "0" (by decide +kernel), .ofText "2" (by decide +kernel), none⟩ }
    let order := choice.items.reverse
    order.Perm choice.items ∧
      order.flatMap Item.arguments = ["--window", "0", "2", "--json", "part.gcode"] ∧
      ofArguments (order.flatMap Item.arguments) = .ok (.summarize choice.summary) := by
  intro choice order
  have isOrder : order.Perm choice.items := List.reverse_perm _
  exact ⟨isOrder, rfl, (ofArguments_order choice isOrder).trans (if_pos (by decide))⟩

/-- Not every order will do: `--window 0 2 part.gcode` takes the file for a progress. -/
theorem not_ofArguments_order_anywhere :
    ¬ ∀ (choice : Choice) (first second : List Item),
      first.Perm choice.items →
        second.Perm choice.items →
          ∃ summary,
            ofArguments (first.flatMap Item.arguments) = .ok (.summarize summary) ∧
              ofArguments (second.flatMap Item.arguments) = .ok (.summarize summary) := by
  intro anyOrder
  let name : FileName := ⟨"part.gcode", by decide⟩
  let lower : WrittenNumber := .ofText "0" (by decide +kernel)
  let upper : WrittenNumber := .ofText "2" (by decide +kernel)
  let choice : Choice := { file := name, window? := some ⟨lower, upper, none⟩ }
  obtain ⟨summary, _, reads⟩ :=
    anyOrder choice choice.items choice.items.reverse (.refl _) (List.reverse_perm _)
  have noNumber : number name.text = .error (.malformedNumber name.text) := by
    have notRead : NumberLiteral.finite? name.text.toList = none :=
      Option.isNone_iff_eq_none.mp (by decide +kernel)
    rw [number, notRead]
  have swallowed := readFrom_swallowed {} lower upper name []
  rw [noNumber] at swallowed
  cases swallowed.symm.trans reads

end LayerPlayback.CommandLine
