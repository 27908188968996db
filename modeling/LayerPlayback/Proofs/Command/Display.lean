import LayerPlayback.Proofs.Command.Arguments
import LayerPlayback.Proofs.Command.LexicalNoise
import LayerPlayback.Proofs.Number.PlainText
import LayerPlayback.Proofs.Text.UpperCaseForms

namespace LayerPlayback

/-!
# Displayed commands are read back

A command is written as its code and its words in the order of their letters, each behind
a blank.  The code and the letters come from a line in upper case, so upper case leaves
them, and like the numbers they have no blanks and none of the marks that cut a line short.
So a displayed command is split into what it was put together from.  The one exception is
a code that is a line number: in front of a line it is skipped.
-/

/-! ## Words in order -/

namespace Words

theorem insertEntry_of_below
    {letter : Char}
    {value : Float}
    {entries : List (Char × Float)}
    (below : ∀ entry ∈ entries, entry.1 < letter) :
    insertEntry letter value entries = entries ++ [(letter, value)] := by
  induction entries with
  | nil => rfl
  | cons first rest inductionHypothesis =>
      obtain ⟨firstBelow, restBelow⟩ := List.forall_mem_cons.mp below
      rw [insertEntry, if_neg (Char.lt_asymm firstBelow), if_neg (Char.ne_of_lt firstBelow).symm,
        inductionHypothesis restBelow, List.cons_append]

/-- Values that are inserted in the order of their letters are kept in that order. -/
theorem entries_foldl_insert
    {words : Words}
    {later : List (Char × Float)}
    (ascending :
      (words.entries ++ later).Pairwise fun earlier later => earlier.1 < later.1) :
    (later.foldl (fun words entry => words.insert entry.1 entry.2) words).entries =
      words.entries ++ later := by
  induction later generalizing words with
  | nil => rw [List.foldl_nil, List.append_nil]
  | cons first rest inductionHypothesis =>
      obtain ⟨-, -, below⟩ := List.pairwise_append.mp ascending
      have appended : (words.insert first.1 first.2).entries = words.entries ++ [first] :=
        insertEntry_of_below fun entry member => below entry member first List.mem_cons_self
      have shape : words.entries ++ first :: rest = words.entries ++ [first] ++ rest := by simp
      rw [List.foldl_cons, shape, ← appended]
      rw [shape, ← appended] at ascending
      exact inductionHypothesis ascending

/-- Words that come in the order of their letters keep this order. -/
theorem entries_ofList
    {entries : List (Char × Float)}
    (ascending : entries.Pairwise fun earlier later => earlier.1 < later.1) :
    (ofList entries).entries = entries :=
  entries_foldl_insert ascending

/-- Words are determined by their values. -/
theorem eq_of_entries_eq {words other : Words} (same : words.entries = other.entries) :
    words = other := by
  cases words
  cases other
  cases same
  rfl

/-- Words are made of their values. -/
theorem ofList_entries (words : Words) : ofList words.entries = words :=
  eq_of_entries_eq (entries_ofList words.ascending)

end Words

namespace Decoder

/-! ## Arguments that are written -/

/-- A value as an argument: its letter and its number. -/
def writtenArgument (entry : Char × Float) : List Char :=
  entry.1 :: NumberText.plainCharacters entry.2

/-- The plain text of a finite double is an argument value. -/
theorem value?_plainCharacters {x : Float} (finite : x.isFinite = true) :
    value? (NumberText.plainCharacters x) = some x :=
  value?_eq_some_iff.mpr
    (.number (NumberText.plainCharacters_ne_nil finite) (NumberText.finite?_plainCharacters finite))

section Finite

variable {entries : List (Char × Float)} (finite : ∀ entry ∈ entries, entry.2.isFinite = true)

include finite

/-- Arguments that are written are read back as the words they were written for. -/
theorem argumentWords_written : argumentWords (entries.map writtenArgument) = .ofList entries := by
  rw [argumentWords, Words.ofList, List.foldl_map]
  refine List.foldl_ext _ _ _ fun words entry member => ?_
  rw [writtenArgument, addArgument, value?_plainCharacters (finite entry member)]

/-- Nothing is reported for arguments that are written. -/
theorem argumentDiagnostics_written (lineNumber : Nat) :
    (entries.map writtenArgument).filterMap (argumentDiagnostic? lineNumber) = [] := by
  refine List.filterMap_eq_nil_iff.mpr (List.forall_mem_map.mpr fun entry member => ?_)
  rw [writtenArgument, argumentDiagnostic?, value?_plainCharacters (finite entry member)]

end Finite

/-! ## Settled words -/

/-- A character that a line can have in its words, and that upper case leaves as it is. -/
structure IsSettled (character : Char) : Prop where
  upper : UpperCase.ofCharacter character = [character]
  notBlank : Blank.isBlank character = false
  isContent : isContent character = true

/--
The words of a line are settled: they were put in upper case and cut off at comments and
blanks.
-/
theorem isSettled_of_mem
    {line word : List Char}
    (oneLine : '\n' ∉ line)
    (isWord : word ∈ codeAndArguments line)
    {character : Char}
    (member : character ∈ word) :
    IsSettled character := by
  have blankBehind : BlankBehindComments (UpperCase.ofCharacters line) :=
    blankBehindComments_of_oneLine (UpperCase.notMem_ofCharacters (by decide) oneLine)
  have inWords := mem_words_of_mem_codeAndArguments isWord
  rw [words_body blankBehind] at inWords
  obtain ⟨inContent, notBlank⟩ := Blank.mem_of_mem_words inWords member
  obtain ⟨_, _, isForm⟩ := List.mem_flatMap.mp ((List.takeWhile_sublist _).mem inContent)
  exact ⟨UpperCase.ofCharacter_of_mem isForm, notBlank, List.mem_takeWhile_imp inContent⟩

/-- Numbers are written with settled characters only. -/
theorem isSettled_of_isPlainCharacter
    {character : Char}
    (isPlain : NumberText.IsPlainCharacter character) :
    IsSettled character := by
  rcases isPlain with (isDigit | rfl) | rfl
  · have alphanumeric : character.isAlphanum = true := by simp [Char.isAlphanum, isDigit]
    have ascii := UpperCase.toNat_lt_of_isAlphanum alphanumeric
    refine ⟨?_, Blank.isBlank_of_isAlphanum alphanumeric, ?_⟩
    · rw [UpperCase.ofCharacter, if_pos ascii, UpperCase.toUpper_of_isDigit isDigit]
    · by_contra isMark
      simp only [isContent, Bool.and_eq_true, decide_eq_true_eq, not_and_or, not_not] at isMark
      rcases isMark with rfl | rfl <;> cases isDigit
  · exact ⟨by decide, by decide, by decide⟩
  · exact ⟨by decide, by decide, by decide⟩

/-- A word of settled characters. -/
structure IsSettledWord (word : List Char) : Prop where
  nonempty : word ≠ []
  settled : ∀ character ∈ word, IsSettled character

/-- Words in a line, each behind a blank, apart from the first one. -/
def joined (first : List Char) (others : List (List Char)) : List Char :=
  first ++ others.flatMap (' ' :: ·)

section Joined

variable {first : List Char} {others : List (List Char)} (isFirst : IsSettledWord first)
  (areOthers : ∀ word ∈ others, IsSettledWord word)

include isFirst areOthers

/-- Words with a blank between them are told apart again. -/
theorem words_joined : Blank.words (joined first others) = first :: others := by
  unfold joined
  induction others generalizing first with
  | nil =>
      exact Blank.words_append_of_ends isFirst.nonempty
        (fun character member => (isFirst.settled character member).notBlank) (Scanner.ends_nil _)
  | cons second rest inductionHypothesis =>
      obtain ⟨isSecond, areRest⟩ := List.forall_mem_cons.mp areOthers
      have behindBlank (line : List Char) : Blank.words (' ' :: line) = Blank.words line :=
        Blank.words_blanks_append (List.forall_mem_singleton.mpr rfl) line
      rw [List.flatMap_cons, List.cons_append,
        Blank.words_append_of_ends isFirst.nonempty
          (fun character member => (isFirst.settled character member).notBlank)
          (Scanner.ends_cons rfl _),
        behindBlank, inductionHypothesis isSecond areRest]

/-- Settled words have nothing that would be cut off. -/
theorem body_joined : body (joined first others) = joined first others := by
  have left :
      ∀ character ∈ joined first others,
        UpperCase.ofCharacter character = [character] ∧ isContent character = true := by
    intro character member
    rcases List.mem_append.mp member with inFirst | behind
    · have isSettled := isFirst.settled character inFirst
      exact ⟨isSettled.upper, isSettled.isContent⟩
    · obtain ⟨word, isOther, inWord⟩ := List.mem_flatMap.mp behind
      rcases List.mem_cons.mp inWord with rfl | inOther
      · exact ⟨by decide, by decide⟩
      · have isSettled := (areOthers word isOther).settled character inOther
        exact ⟨isSettled.upper, isSettled.isContent⟩
  have upper := UpperCase.ofCharacters_of_settled fun character member => (left character member).1
  have noComment : ';' ∉ joined first others :=
    fun member => Bool.false_ne_true (left ';' member).2
  have noChecksum : '*' ∉ joined first others :=
    fun member => Bool.false_ne_true (left '*' member).2
  rw [← upper] at noComment noChecksum
  have whole := body_append noComment noChecksum []
  have nothing : body [] = [] := rfl
  rwa [nothing, List.append_nil, List.append_nil, upper] at whole

/-- Settled words that are joined are split again. -/
theorem codeAndArguments_joined :
    codeAndArguments (joined first others) = withoutLineNumber (first :: others) := by
  rw [codeAndArguments, body_joined isFirst areOthers, words_joined isFirst areOthers]

end Joined

/-! ## Displayed commands -/

/-- A command whose code and values are written as words that upper case and marks leave. -/
structure IsWritable (family : Char) (command : Command) : Prop where
  operation : command.operation = .ofCharacters family command.code.toList
  finite : ∀ entry ∈ command.words.entries, entry.2.isFinite = true
  code : IsSettledWord command.code.toList
  arguments : ∀ entry ∈ command.words.entries, IsSettledWord (writtenArgument entry)

/-- A command is displayed as its code and its arguments in the order of their letters. -/
theorem toList_display (command : Command) :
    command.display.toList =
      joined command.code.toList (command.words.entries.map writtenArgument) := by
  rw [Command.display, String.toList_ofList, joined, List.flatMap_map]
  rfl

namespace IsWritable

variable {family : Char} {command : Command} (isWritable : IsWritable family command)

include isWritable

/-- A displayed command has its own code and arguments, once a line number is skipped. -/
theorem codeAndArguments_display :
    codeAndArguments command.display.toList =
      withoutLineNumber (command.code.toList :: command.words.entries.map writtenArgument) := by
  rw [toList_display,
    codeAndArguments_joined isWritable.code (List.forall_mem_map.mpr isWritable.arguments)]

/-- From its code and its words as they are written, the command is decoded again. -/
theorem decodeWords_code :
    decodeWords family command.lineNumber
        (command.code.toList :: command.words.entries.map writtenArgument) =
      { command? := some command, diagnostics := [] } := by
  rw [decodeWords, argumentWords_written isWritable.finite,
    argumentDiagnostics_written isWritable.finite, Words.ofList_entries, String.ofList_toList,
    ← isWritable.operation]

/-- Without its code, its first word is taken for one, and there is one word less. -/
theorem decodeWords_arguments_ne :
    (decodeWords family command.lineNumber
        (command.words.entries.map writtenArgument)).command? ≠ some command := by
  intro same
  have finite := isWritable.finite
  have ascending := command.words.ascending
  cases entries : command.words.entries with
  | nil =>
      rw [entries] at same
      cases same
  | cons first rest =>
      rw [entries] at same finite ascending
      have sameWords : argumentWords (rest.map writtenArgument) = command.words :=
        congrArg Command.words (Option.some.inj same)
      have sameEntries := Words.entries_ofList (List.pairwise_cons.mp ascending).2
      rw [← argumentWords_written (List.forall_mem_cons.mp finite).2, sameWords, entries]
        at sameEntries
      exact List.cons_ne_self _ _ sameEntries

end IsWritable

/-- What a line without a newline is decoded to is writable. -/
theorem isWritable_of_decode
    {decoder : Decoder}
    {line : String}
    {lineNumber : Nat}
    {command : Command}
    (oneLine : '\n' ∉ line.toList)
    (decoded : (decoder.decode line lineNumber).command? = some command) :
    command.lineNumber = lineNumber ∧ IsWritable decoder.family command := by
  have isSettled {word : List Char} (isWord : word ∈ codeAndArguments line.toList) :
      ∀ character ∈ word, IsSettled character :=
    fun _ member => isSettled_of_mem oneLine isWord member
  have nonempty {word : List Char} (isWord : word ∈ codeAndArguments line.toList) : word ≠ [] :=
    ne_nil_of_mem_codeAndArguments isWord
  unfold decode at decoded
  cases found : codeAndArguments line.toList with
  | nil =>
      rw [found] at decoded
      cases decoded
  | cons code arguments =>
      rw [found] at decoded isSettled nonempty
      cases decoded
      have isFinite {entry : Char × Float} (member : entry ∈ (argumentWords arguments).entries) :
          entry.2.isFinite = true :=
        isFinite_argumentWords arguments entry.1 entry.2 (Words.mem_entries_iff.mp member)
      refine ⟨rfl, ?_, fun entry => isFinite, ?_, fun entry member => ?_⟩
      · rw [String.toList_ofList]
      · rw [String.toList_ofList]
        exact ⟨nonempty List.mem_cons_self, isSettled List.mem_cons_self⟩
      · -- A letter that has a value heads one of the words of the line.
        obtain ⟨characters, ⟨before, after, rfl, -⟩, -⟩ :=
          get?_argumentWords.mp (Words.mem_entries_iff.mp member)
        have isWord :
            entry.1 :: characters ∈ code :: (before ++ (entry.1 :: characters) :: after) :=
          List.mem_cons_of_mem _ (List.mem_append_right _ List.mem_cons_self)
        exact ⟨List.cons_ne_nil _ _, List.forall_mem_cons.mpr
          ⟨isSettled isWord entry.1 List.mem_cons_self, fun character inNumber =>
            isSettled_of_isPlainCharacter
              (NumberText.isPlainCharacter_of_mem (isFinite member) inNumber)⟩⟩

/-- A decoded command is displayed as a line that gives it again, unless its code is skipped. -/
theorem decode_display
    {decoder : Decoder}
    {line : String}
    {lineNumber : Nat}
    {command : Command}
    (oneLine : '\n' ∉ line.toList)
    (decoded : (decoder.decode line lineNumber).command? = some command) :
    decoder.decode command.display lineNumber = { command? := some command, diagnostics := [] } ↔
      isLineNumber command.code.toList = false := by
  obtain ⟨rfl, isWritable⟩ := isWritable_of_decode oneLine decoded
  rw [decode, isWritable.codeAndArguments_display, withoutLineNumber]
  cases isNumber : isLineNumber command.code.toList with
  | false => exact iff_of_true isWritable.decodeWords_code rfl
  | true =>
      refine iff_of_false (fun same => ?_) Bool.noConfusion
      exact isWritable.decodeWords_arguments_ne (congrArg DecodedLine.command? same)

/-- A sign as a letter, line numbers among the words, a negative zero, and a dropped word. -/
theorem decode_display_normalized :
    let line := "n3 g01 x-0 y2z µ.5 n7 -3*51;c"
    let display := "G01 -3 N7 X-0 Μ0.5"
    '\n' ∉ line.toList ∧
      ∃ command : Command,
        ((ofLetter 'g').decode line 9).command? = some command ∧
          command.display = display ∧
            (ofLetter 'g').decode display 9 = { command? := some command, diagnostics := [] } := by
  intro line display
  have oneLine : '\n' ∉ line.toList := by decide
  obtain ⟨command, decoded⟩ :
      ∃ command, ((ofLetter 'g').decode line 9).command? = some command :=
    Option.isSome_iff_exists.mp (by decide +kernel)
  have shown :
      ((ofLetter 'g').decode line 9).command?.map
          (fun command => (command.display, isLineNumber command.code.toList)) =
        some (display, false) := by
    decide +kernel
  rw [decoded, Option.map_some, Option.some.injEq, Prod.mk.injEq] at shown
  obtain ⟨isDisplay, isCode⟩ := shown
  have again := (decode_display oneLine decoded).mpr isCode
  rw [isDisplay] at again
  exact ⟨oneLine, command, decoded, isDisplay, again⟩

end Decoder

end LayerPlayback
