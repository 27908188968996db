import LayerPlayback.Proofs.Command.FiniteWords
import Mathlib.Data.List.Induction
import Mathlib.Tactic.ByContra

namespace LayerPlayback

/-!
# What the arguments of a command say

Every argument of a command counts in two ways.  The last one of a letter says whether
the letter has a value and which, whatever was said before; and each malformed one is
reported, whether it is the last of its letter or not.  Both are said here by rules of
their own, without the loop that goes through the arguments.
-/

/-- Stored entries are the values that are found. -/
theorem Words.mem_entries_iff {words : Words} {letter : Char} {value : Float} :
    (letter, value) ∈ words.entries ↔ words.get? letter = some value := by
  obtain ⟨entries, ascending⟩ := words
  change _ ∈ entries ↔ entries.lookup letter = some value
  induction entries with
  | nil => simp
  | cons first rest inductionHypothesis =>
      obtain ⟨below, restAscending⟩ := List.pairwise_cons.mp ascending
      rw [List.mem_cons, List.lookup_cons]
      by_cases same : letter = first.1
      · have notLater : (letter, value) ∉ rest :=
          fun member => Char.lt_irrefl _ (same ▸ below _ member)
        subst same
        simp [notLater, Prod.ext_iff, eq_comm]
      · simp [same, Prod.ext_iff, inductionHypothesis restAscending, beq_eq_false_iff_ne.mpr same]

namespace Decoder

/-! ## Values -/

/-- The value that the characters behind a letter denote. -/
inductive Denotes : List Char → Float → Prop where
  | bare : Denotes [] 1.0
  | number
      {characters : List Char}
      {value : Float}
      (notBare : characters ≠ [])
      (isNumber : NumberLiteral.finite? characters = some value) :
      Denotes characters value

/-- What is behind the letter denotes a value, which is zero when nothing is there. -/
theorem value?_eq_some_iff {characters : List Char} {value : Float} :
    value? characters = some value ↔ Denotes characters value := by
  constructor
  · intro valued
    cases characters with
    | nil =>
        cases valued
        exact .bare
    | cons first rest => exact .number (List.cons_ne_nil _ _) valued
  · intro denotes
    cases denotes with
    | bare => rfl
    | number notBare isNumber =>
        obtain ⟨first, rest, rfl⟩ := List.exists_cons_of_ne_nil notBare
        exact isNumber

/-- Only something that is no finite number is malformed. -/
theorem value?_eq_none_iff {characters : List Char} :
    value? characters = none ↔
      characters ≠ [] ∧ NumberLiteral.finite? characters = none := by
  cases characters <;> simp [value?]

/-! ## The last argument of a letter -/

/-- The last argument of a letter has these characters behind it. -/
def IsLast (letter : Char) (characters : List Char) (arguments : List (List Char)) : Prop :=
  ∃ before after : List (List Char),
    arguments = before ++ (letter :: characters) :: after ∧
      ∀ argument ∈ after, argument.head? ≠ some letter

/-- One more argument is the last one of its own letter and changes no other letter's. -/
theorem isLast_concat
    {letter : Char}
    {characters argument : List Char}
    {arguments : List (List Char)} :
    IsLast letter characters (arguments ++ [argument]) ↔
      if argument.head? = some letter then
        argument = letter :: characters
      else
        IsLast letter characters arguments := by
  constructor
  · rintro ⟨before, after, shape, others⟩
    rcases List.eq_nil_or_concat after with rfl | ⟨between, last, rfl⟩
    · obtain ⟨-, same⟩ := List.append_inj' shape rfl
      obtain rfl := List.singleton_inj.mp same
      simp
    · rw [List.concat_eq_append, ← List.cons_append, ← List.append_assoc] at shape
      obtain ⟨earlier, same⟩ := List.append_inj' shape rfl
      obtain rfl := List.singleton_inj.mp same
      rw [if_neg (others argument (by simp))]
      exact ⟨before, between, earlier, fun later member => others later (by simp [member])⟩
  · intro isLast
    split at isLast
    case isTrue ofLetter => exact ⟨arguments, [], isLast ▸ rfl, List.forall_mem_nil _⟩
    case isFalse ofOther =>
      obtain ⟨before, after, rfl, others⟩ := isLast
      refine ⟨before, after ++ [argument], by simp, fun later member => ?_⟩
      rcases List.mem_append.mp member with earlier | isArgument
      · exact others later earlier
      · rwa [List.mem_singleton.mp isArgument]

/-- Of two words with one letter, the last one counts. -/
theorem get?_addArgument (words : Words) (argument : List Char) (letter : Char) :
    (addArgument words argument).get? letter =
      if argument.head? = some letter then value? argument.tail else words.get? letter := by
  cases argument with
  | nil => rfl
  | cons first characters =>
      rw [addArgument]
      cases valued : value? characters <;>
        simp [Words.get?_insert, Words.get?_erase, valued, eq_comm]

/-- The last argument of a letter says what its value is, and that is all that counts. -/
theorem get?_argumentWords
    {arguments : List (List Char)}
    {letter : Char}
    {value : Float} :
    (argumentWords arguments).get? letter = some value ↔
      ∃ characters, IsLast letter characters arguments ∧ Denotes characters value := by
  unfold argumentWords
  induction arguments using List.reverseRecOn with
  | nil =>
      rw [List.foldl_nil, Words.get?_empty]
      refine iff_of_false (Option.some_ne_none value).symm ?_
      rintro ⟨characters, ⟨before, after, shape, -⟩, -⟩
      simp at shape
  | append_singleton arguments argument inductionHypothesis =>
      rw [List.foldl_append, List.foldl_cons, List.foldl_nil, get?_addArgument]
      simp only [isLast_concat]
      split
      case isTrue ofLetter =>
        obtain ⟨characters, rfl⟩ := List.head?_eq_some_iff.mp ofLetter
        simp [value?_eq_some_iff]
      case isFalse => exact inductionHypothesis

/-! ## Reports -/

/-- What is wrong with some arguments, in their order. -/
inductive MalformedIn (lineNumber : Nat) : List (List Char) → List Diagnostic → Prop where
  | nil : MalformedIn lineNumber [] []
  /-- A letter by itself has a value, and so has one with a finite number. -/
  | wellFormed
      {letter : Char}
      {characters : List Char}
      {rest : List (List Char)}
      {reports : List Diagnostic}
      (hasValue : characters = [] ∨ (NumberLiteral.finite? characters).isSome = true)
      (others : MalformedIn lineNumber rest reports) :
      MalformedIn lineNumber ((letter :: characters) :: rest) reports
  | malformed
      {letter : Char}
      {characters : List Char}
      {rest : List (List Char)}
      {reports : List Diagnostic}
      (notBare : characters ≠ [])
      (noNumber : NumberLiteral.finite? characters = none)
      (others : MalformedIn lineNumber rest reports) :
      MalformedIn lineNumber ((letter :: characters) :: rest)
        (.malformedArgument lineNumber letter (String.ofList characters) :: reports)

/-- Decoding finds what is wrong with words, none of which is empty. -/
theorem malformedIn_filterMap
    (lineNumber : Nat)
    {arguments : List (List Char)}
    (nonempty : ∀ argument ∈ arguments, argument ≠ []) :
    MalformedIn lineNumber arguments (arguments.filterMap (argumentDiagnostic? lineNumber)) := by
  induction arguments with
  | nil => exact .nil
  | cons argument rest inductionHypothesis =>
      obtain ⟨notEmpty, restNonempty⟩ := List.forall_mem_cons.mp nonempty
      obtain ⟨letter, characters, rfl⟩ := List.exists_cons_of_ne_nil notEmpty
      have others := inductionHypothesis restNonempty
      rw [List.filterMap_cons, argumentDiagnostic?]
      cases valued : value? characters with
      | none =>
          obtain ⟨notBare, noNumber⟩ := value?_eq_none_iff.mp valued
          exact .malformed notBare noNumber others
      | some value =>
          refine .wellFormed ?_ others
          by_contra noValue
          rw [not_or, Bool.not_eq_true, Option.isSome_eq_false_iff, Option.isNone_iff_eq_none]
            at noValue
          rw [value?_eq_none_iff.mpr noValue] at valued
          cases valued

theorem mem_words_of_mem_codeAndArguments
    {line word : List Char}
    (member : word ∈ codeAndArguments line) :
    word ∈ Blank.words (body line) := by
  unfold codeAndArguments withoutLineNumber at member
  split at member
  · cases member
  · next first rest isWords =>
      rw [isWords]
      split at member
      · exact List.mem_cons_of_mem _ member
      · exact member

theorem ne_nil_of_mem_codeAndArguments
    {line word : List Char}
    (member : word ∈ codeAndArguments line) :
    word ≠ [] := by
  simpa using (List.mem_filter.mp (mem_words_of_mem_codeAndArguments member)).2

/-- The words of a line behind its code. -/
def lineArguments (line : String) : List (List Char) :=
  (codeAndArguments line.toList).tail

/-- Exactly the malformed words of a line are reported, with its number. -/
theorem malformedIn_decode (decoder : Decoder) (line : String) (lineNumber : Nat) :
    MalformedIn lineNumber (lineArguments line) (decoder.decode line lineNumber).diagnostics := by
  have nonempty : ∀ word ∈ codeAndArguments line.toList, word ≠ [] :=
    fun _ member => ne_nil_of_mem_codeAndArguments member
  unfold decode lineArguments
  cases words : codeAndArguments line.toList with
  | nil => exact .nil
  | cons code arguments =>
      rw [words] at nonempty
      exact malformedIn_filterMap lineNumber (List.forall_mem_cons.mp nonempty).2

/-! ## Lines -/

/-- The words of a line are its code and its arguments, behind a line number if there is one. -/
inductive Splits (line code : List Char) (arguments : List (List Char)) : Prop where
  | unnumbered
      (words : Blank.words (body line) = code :: arguments)
      (isCode : isLineNumber code = false) :
      Splits line code arguments
  | numbered
      {number : List Char}
      (words : Blank.words (body line) = number :: code :: arguments)
      (isNumber : isLineNumber number = true) :
      Splits line code arguments

/-- A line splits into its code and its arguments as words. -/
theorem splits_of_codeAndArguments
    {line code : List Char}
    {arguments : List (List Char)}
    (found : codeAndArguments line = code :: arguments) :
    Splits line code arguments := by
  unfold codeAndArguments withoutLineNumber at found
  split at found
  · cases found
  · next first rest isWords =>
      split at found
      case isTrue isNumber =>
        rw [found] at isWords
        exact .numbered isWords isNumber
      case isFalse notNumber =>
        obtain ⟨rfl, rfl⟩ := List.cons_eq_cons.mp found
        exact .unnumbered isWords (Bool.eq_false_iff.mpr notNumber)

/-- What a command and the reports of its line have to do with its arguments. -/
structure ReadsArguments
    (command : Command)
    (arguments : List (List Char))
    (reports : List Diagnostic) : Prop where
  finite : ∀ entry ∈ command.words.entries, entry.2.isFinite = true
  words :
    ∀ letter value,
      command.word? letter = some value ↔
        ∃ characters, IsLast letter characters arguments ∧ Denotes characters value
  reports : MalformedIn command.lineNumber arguments reports

/-- A line that holds a command is read argument by argument, whatever repeats and fails. -/
theorem readsArguments_decode
    {decoder : Decoder}
    {line : String}
    {lineNumber : Nat}
    {command : Command}
    (decoded : (decoder.decode line lineNumber).command? = some command) :
    command.lineNumber = lineNumber ∧
      ∃ code arguments,
        Splits line.toList code arguments ∧
          command.code = String.ofList code ∧
            ReadsArguments command arguments (decoder.decode line lineNumber).diagnostics := by
  have reports := malformedIn_decode decoder line lineNumber
  unfold decode lineArguments at reports
  unfold decode at decoded ⊢
  cases found : codeAndArguments line.toList with
  | nil =>
      rw [found] at decoded
      cases decoded
  | cons code arguments =>
      rw [found] at decoded reports
      cases decoded
      refine ⟨rfl, code, arguments, splits_of_codeAndArguments found, rfl, ?_⟩
      exact {
        finite := fun entry member =>
          isFinite_argumentWords arguments entry.1 entry.2 (Words.mem_entries_iff.mp member)
        words := fun _ _ => get?_argumentWords
        reports := reports
      }

/-- A bare word, a malformed one and a good one each override what was said before. -/
theorem readsArguments_decode_repeated :
    let line := "n3 g1 x2 x y2 y2z e1e400 e.5 ; f"
    ∃ command : Command,
      ((ofLetter 'G').decode line 7).command? = some command ∧
        (command.word? 'X' = some 1.0 ∧ command.word? 'Y' = none ∧ command.word? 'E' = some 0.5) ∧
        ∃ code arguments,
          Splits line.toList code arguments ∧
            ReadsArguments command arguments
              [.malformedArgument 7 'Y' "2Z", .malformedArgument 7 'E' "1E400"] := by
  intro line
  obtain ⟨command, decoded⟩ :
      ∃ command, ((ofLetter 'G').decode line 7).command? = some command :=
    Option.isSome_iff_exists.mp (by decide +kernel)
  have values :
      ((ofLetter 'G').decode line 7).command?.map
          (fun command => (command.word? 'X', command.word? 'Y', command.word? 'E')) =
        some (some 1.0, none, some 0.5) := by
    decide +kernel
  have reports :
      ((ofLetter 'G').decode line 7).diagnostics =
        [.malformedArgument 7 'Y' "2Z", .malformedArgument 7 'E' "1E400"] := by
    decide +kernel
  obtain ⟨-, code, arguments, splits, -, reads⟩ := readsArguments_decode decoded
  rw [reports] at reads
  rw [decoded] at values
  simp only [Option.map_some, Option.some.injEq, Prod.mk.injEq] at values
  exact ⟨command, decoded, values, code, arguments, splits, reads⟩

end Decoder

end LayerPlayback
