import Mathlib
import LayerPlayback.Proofs.Command.Codes
import LayerPlayback.Proofs.Command.Renumbering
import LayerPlayback.Proofs.Number.Digits
import LayerPlayback.Proofs.Text.Blank
import LayerPlayback.Settings.Validation

namespace LayerPlayback

/-!
# The family letter is a name

The number of a code selects the operation, and the family letter only says whose
commands these are.  The exception is the letter of line numbers: in front of digits it
makes a line number, which is skipped before the family is looked at, so the commands of
a family of that letter are not found.
-/

/-! ## The words of a line -/

namespace Decoder

theorem withoutComment_append
    {before : List Char}
    (noComment : ';' ∉ before)
    (rest : List Char) :
    withoutComment (before ++ rest) = before ++ withoutComment rest := by
  have uncommented := Scanner.forall_ne_of_notMem noComment
  rw [withoutComment, List.takeWhile_append_of_pos uncommented,
    List.dropWhile_append_of_pos uncommented, List.append_assoc, withoutComment]

/-- What stands before the comment and the checksum is interpreted as it is. -/
theorem body_append
    {before : List Char}
    (noComment : ';' ∉ UpperCase.ofCharacters before)
    (noChecksum : '*' ∉ UpperCase.ofCharacters before)
    (rest : List Char) :
    body (before ++ rest) = UpperCase.ofCharacters before ++ body rest := by
  have unchecked := Scanner.forall_ne_of_notMem noChecksum
  rw [body, UpperCase.ofCharacters_append, withoutComment_append noComment,
    List.takeWhile_append_of_pos unchecked, body]

/-- A code of letters and digits is the first word; a line number is skipped. -/
theorem codeAndArguments_append
    {code rest : List Char}
    (nonempty : code ≠ [])
    (alphanumeric : ∀ character ∈ code, character.isAlphanum = true)
    (ends : Scanner.Ends (fun character => !Blank.isBlank character) (body rest)) :
    codeAndArguments (code ++ rest) =
      withoutLineNumber (code.map Char.toUpper :: Blank.words (body rest)) := by
  have upper := UpperCase.ofCharacters_of_isAlphanum alphanumeric
  have upperAlphanumeric :
      ∀ character ∈ UpperCase.ofCharacters code, character.isAlphanum = true := by
    rw [upper]
    intro character member
    obtain ⟨original, isOriginal, rfl⟩ := List.mem_map.mp member
    exact UpperCase.isAlphanum_toUpper (alphanumeric original isOriginal)
  have noComment : ';' ∉ UpperCase.ofCharacters code :=
    fun member => Bool.false_ne_true (upperAlphanumeric ';' member)
  have noChecksum : '*' ∉ UpperCase.ofCharacters code :=
    fun member => Bool.false_ne_true (upperAlphanumeric '*' member)
  have unbroken : ∀ character ∈ UpperCase.ofCharacters code, Blank.isBlank character = false :=
    fun character member => Blank.isBlank_of_isAlphanum (upperAlphanumeric character member)
  have upperNonempty : UpperCase.ofCharacters code ≠ [] := by simp [upper, nonempty]
  rw [codeAndArguments, body_append noComment noChecksum,
    Blank.words_append_of_ends upperNonempty unbroken ends, upper]

/-! ## Lines of a family -/

/-- A program line: a letter with digits, and arguments, each behind a blank. -/
def commandLine (letter : Char) (digits : List Char) (arguments : List String) : String :=
  String.ofList (letter :: digits ++ arguments.flatMap fun argument => ' ' :: argument.toList)

/-- The words that stand behind the first one of a program line. -/
def furtherWords (arguments : List String) : List (List Char) :=
  Blank.words (body (arguments.flatMap fun argument => ' ' :: argument.toList))

variable {letter : Char} {digits : List Char}

/-- Of the letters only one starts a line number. -/
theorem isLineNumber_iff (isNumber : NumberLiteral.isDigits digits = true) :
    isLineNumber (letter :: digits) = true ↔ letter = 'N' := by
  by_cases same : letter = 'N'
  · subst same
    simp [isLineNumber, isNumber]
  · simp [isLineNumber, same]

/-- A line that is written from its parts has these parts, up to a line number. -/
theorem codeAndArguments_commandLine
    (isLetter : letter.isAlpha = true)
    (isNumber : NumberLiteral.isDigits digits = true)
    (arguments : List String) :
    codeAndArguments (commandLine letter digits arguments).toList =
      withoutLineNumber ((letter.toUpper :: digits) :: furtherWords arguments) := by
  obtain ⟨_, isDigit⟩ := NumberLiteral.isDigits_iff.mp isNumber
  have alphanumeric : ∀ character ∈ letter :: digits, character.isAlphanum = true := by
    refine List.forall_mem_cons.mpr ⟨?_, fun digit member => ?_⟩
    · simp [Char.isAlphanum, isLetter]
    · simp [Char.isAlphanum, isDigit digit member]
  have ends :
      Scanner.Ends (fun character => !Blank.isBlank character)
        (body (arguments.flatMap fun argument => ' ' :: argument.toList)) := by
    cases arguments with
    | nil => exact Scanner.ends_nil _
    | cons first rest =>
        have noComment : ';' ∉ UpperCase.ofCharacters [' '] := by decide
        have noChecksum : '*' ∉ UpperCase.ofCharacters [' '] := by decide
        rw [List.flatMap_cons, List.cons_append, ← List.singleton_append,
          body_append noComment noChecksum]
        exact Scanner.ends_cons rfl _
  rw [commandLine, String.toList_ofList,
    codeAndArguments_append (List.cons_ne_nil _ _) alphanumeric ends, List.map_cons,
    UpperCase.map_toUpper_of_isDigit isDigit,
    furtherWords]

/-- The number of a code selects the operation, unless the letter makes it a line number. -/
theorem decode_commandLine
    (isLetter : letter.isAlpha = true)
    (otherLetter : letter.toUpper ≠ 'N')
    (isNumber : NumberLiteral.isDigits digits = true)
    (arguments : List String)
    (lineNumber : Nat) :
    (ofLetter letter).decode (commandLine letter digits arguments) lineNumber =
      ⟨some
          ⟨lineNumber, String.ofList (letter.toUpper :: digits),
            .ofNumber (NumberLiteral.digitsValue digits),
            argumentWords (furtherWords arguments)⟩,
        (furtherWords arguments).filterMap (argumentDiagnostic? lineNumber)⟩ := by
  have isCode : ¬ isLineNumber (letter.toUpper :: digits) = true :=
    fun isTrue => otherLetter ((isLineNumber_iff isNumber).mp isTrue)
  have operation :
      Operation.ofCharacters letter.toUpper (letter.toUpper :: digits) =
        .ofNumber (NumberLiteral.digitsValue digits) := by
    simp [Operation.ofCharacters, Operation.ofDigits_of_isDigits isNumber]
  rw [decode, codeAndArguments_commandLine isLetter isNumber, withoutLineNumber, if_neg isCode,
    decodeWords, ofLetter, operation]

/-- A line of the family of line numbers is decoded without its code. -/
theorem decode_commandLine_lineNumber
    (isLetter : letter.isAlpha = true)
    (ofLineNumbers : letter.toUpper = 'N')
    (isNumber : NumberLiteral.isDigits digits = true)
    (arguments : List String)
    (lineNumber : Nat) :
    (ofLetter letter).decode (commandLine letter digits arguments) lineNumber =
      decodeWords 'N' lineNumber (furtherWords arguments) := by
  rw [decode, codeAndArguments_commandLine isLetter isNumber, withoutLineNumber,
    if_pos ((isLineNumber_iff isNumber).mpr ofLineNumbers), ofLetter, ofLineNumbers]

/--
A letter that is but the name of a family: with it, every number selects the operation
that it selects with the usual letter, and the further words are read alike.
-/
def NamesFamily (letter : Char) : Prop :=
  ∀ (digits : List Char) (arguments : List String) (lineNumber : Nat),
    NumberLiteral.isDigits digits = true →
    ∃ operation words diagnostics,
      (ofLetter 'G').decode (commandLine 'G' digits arguments) lineNumber =
          ⟨some ⟨lineNumber, String.ofList ('G' :: digits), operation, words⟩, diagnostics⟩ ∧
        (ofLetter letter).decode (commandLine letter digits arguments) lineNumber =
          ⟨some ⟨lineNumber, String.ofList (letter.toUpper :: digits), operation, words⟩,
            diagnostics⟩

/-- A letter is the name of its family exactly if it is not the letter of line numbers. -/
theorem namesFamily_iff (isLetter : letter.isAlpha = true) :
    NamesFamily letter ↔ letter.toUpper ≠ 'N' := by
  constructor
  · intro names ofLineNumbers
    have one : NumberLiteral.isDigits ['1'] = true := rfl
    obtain ⟨_, _, _, _, decoded⟩ := names ['1'] [] 1 one
    rw [decode_commandLine_lineNumber isLetter ofLineNumbers one] at decoded
    cases congrArg DecodedLine.command? decoded
  · intro otherLetter digits arguments lineNumber isNumber
    have usual : 'G'.toUpper ≠ 'N' := by decide
    exact ⟨_, _, _, decode_commandLine rfl usual isNumber arguments lineNumber,
      decode_commandLine isLetter otherLetter isNumber arguments lineNumber⟩

/-- A letter other than that of line numbers names its family in lower case, too. -/
theorem namesFamily_lowerCase : 'm'.isAlpha = true ∧ NamesFamily 'm' := by
  have isLetter : 'm'.isAlpha = true := rfl
  exact ⟨isLetter, (namesFamily_iff isLetter).mpr (by decide)⟩

/-- The letter of line numbers is valid for a family, but a move of that family is not found. -/
theorem not_namesFamily_lineNumber :
    ({ parser := { familyPrefix := 'N' } } : Config).isValid = true ∧
      ((ofLetter 'N').decode "N1 X5" 1).command?.map Command.operation = some (.unknown false) ∧
      ((ofLetter 'G').decode "G1 X5" 1).command?.map Command.operation =
        some (.linearMove false) ∧
      ¬ NamesFamily 'N' := by
  refine ⟨rfl, by decide +kernel, by decide +kernel, fun names => ?_⟩
  obtain ⟨_, _, _, _, decoded⟩ := names ['1'] [] 1 rfl
  cases congrArg DecodedLine.command? decoded

end Decoder

end LayerPlayback
