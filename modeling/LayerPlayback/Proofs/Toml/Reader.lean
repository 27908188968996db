import LayerPlayback.Toml.Reader
import LayerPlayback.Proofs.Toml.Numbers

namespace LayerPlayback

open Scanner

namespace TomlReader

/-- A letter of a key is a visible ASCII character. -/
theorem toNat_of_isBareKey {letter : Char} (bare : isBareKey letter = true) :
    0x20 < letter.toNat ∧ letter.toNat < 0x7F := by
  simp only [isBareKey, Char.isAlphanum, Char.isAlpha, Char.isUpper, Char.isLower, Char.isDigit,
    Bool.or_eq_true, Bool.and_eq_true, decide_eq_true_eq, ge_iff_le, UInt32.le_iff_toNat_le] at bare
  unfold Char.toNat
  rcases bare with (((upper | lower) | digit) | rfl) | rfl
  · exact ⟨Nat.lt_of_lt_of_le (by decide) upper.1, Nat.lt_of_le_of_lt upper.2 (by decide)⟩
  · exact ⟨Nat.lt_of_lt_of_le (by decide) lower.1, Nat.lt_of_le_of_lt lower.2 (by decide)⟩
  · exact ⟨Nat.lt_of_lt_of_le (by decide) digit.1, Nat.lt_of_le_of_lt digit.2 (by decide)⟩
  · decide
  · decide

theorem ne_of_isBareKey {letter other : Char} (bare : isBareKey letter = true)
    (notBare : isBareKey other = false) : letter ≠ other := by
  rintro rfl
  rw [bare] at notBare
  cases notBare

/-- Characters of bare keys need no escape between quotation marks. -/
theorem isBasic_of_isBareKey {letter : Char} (bare : isBareKey letter = true) :
    TomlQuoted.isBasic letter = true := by
  have visible := toNat_of_isBareKey bare
  have notQuote : letter ≠ '\x22' := ne_of_isBareKey bare rfl
  have notBackslash : letter ≠ '\\' := ne_of_isBareKey bare rfl
  have plain : TomlQuoted.isPlain letter = true := by
    simp only [TomlQuoted.isPlain, Bool.or_eq_true, Bool.and_eq_true, decide_eq_true_eq]
    omega
  simp [TomlQuoted.isBasic, plain, notQuote, notBackslash]

end TomlReader

namespace TomlQuoted

open TomlReader (isBareKey)

/-- A word without escapes is taken up to the closing quotation mark. -/
theorem basic_word
    {word : List Char}
    (bare : ∀ letter ∈ word, isBareKey letter = true)
    (rest : List Char) :
    basic ('\x22' :: (word ++ '\x22' :: rest)) = some (word, rest) := by
  have takes : ∀ letter ∈ word, ∀ others,
      (character isBasic <|> escaped) (letter :: others) = some (letter, others) := by
    intro letter member others
    simp [TomlReader.isBasic_of_isBareKey (bare letter member)]
  have refuses : (character isBasic <|> escaped) ('\x22' :: rest) = none := by
    have special : isBasic '\x22' = false := rfl
    simp [special, escaped]
  simp [basic, many_of_repeats (repeats_word takes refuses)]

/-- A word in double quotes is taken as the word. -/
theorem value_word
    {word : List Char}
    (nonempty : word ≠ [])
    (bare : ∀ letter ∈ word, isBareKey letter = true)
    (rest : List Char) :
    value ('\x22' :: (word ++ '\x22' :: rest)) = some (word, rest) := by
  have oneLine : basicOverLines ('\x22' :: (word ++ '\x22' :: rest)) = none := by
    obtain ⟨first, others, rfl⟩ := List.exists_cons_of_ne_nil nonempty
    have notQuote : first ≠ '\x22' := TomlReader.ne_of_isBareKey (bare first List.mem_cons_self) rfl
    simp [basicOverLines, overLines, notQuote]
  simp [value, oneLine, basic_word bare]

/-- A value that does not start with a quote is no string. -/
theorem value_of_no_quote
    {first : Char}
    (notDouble : first ≠ '\x22')
    (notSingle : first ≠ '\x27')
    (rest : List Char) :
    value (first :: rest) = none := by
  simp [value, basicOverLines, basic, literalOverLines, literal, overLines, notDouble, notSingle]

end TomlQuoted

namespace TomlReader

open TomlQuoted (isSpace newline)

theorem isBareKey_of_isSpace {blank : Char} (isBlank : isSpace blank = true) :
    isBareKey blank = false := by
  simp only [isSpace, Bool.or_eq_true, decide_eq_true_eq] at isBlank
  rcases isBlank with rfl | rfl <;> rfl

theorem isSpace_of_isBareKey {letter : Char} (bare : isBareKey letter = true) :
    isSpace letter = false := by
  cases isBlank : isSpace letter with
  | false => rfl
  | true =>
      rw [isBareKey_of_isSpace isBlank] at bare
      cases bare

/-- Spaces are taken up to the first character that is none. -/
theorem spaces_append
    {gap rest : List Char}
    (blank : ∀ letter ∈ gap, isSpace letter = true)
    (ends : Ends isSpace rest) :
    spaces (gap ++ rest) = some ((), rest) := by
  simp [spaces, run_append blank ends]

theorem spaces_of_ends {rest : List Char} (ends : Ends isSpace rest) :
    spaces rest = some ((), rest) :=
  spaces_append (List.forall_mem_nil _) ends

/-- A word that can be a key without quotes. -/
structure IsBareWord (word : List Char) : Prop where
  nonempty : word ≠ []
  bare : ∀ letter ∈ word, isBareKey letter = true

theorem IsBareWord.exists_cons {word : List Char} (isWord : IsBareWord word) :
    ∃ first others, word = first :: others ∧ isBareKey first = true := by
  obtain ⟨first, others, rfl⟩ := List.exists_cons_of_ne_nil isWord.nonempty
  exact ⟨first, others, rfl, isWord.bare first List.mem_cons_self⟩

/-- A bare word is a key by itself. -/
theorem simpleKey_word
    {word rest : List Char}
    (isWord : IsBareWord word)
    (ends : Ends isBareKey rest) :
    simpleKey (word ++ rest) = some (String.ofList word, rest) := by
  have taken := run1_append isWord.nonempty isWord.bare ends
  obtain ⟨first, others, rfl, bare⟩ := isWord.exists_cons
  have notDouble : first ≠ '\x22' := ne_of_isBareKey bare rfl
  have notSingle : first ≠ '\x27' := ne_of_isBareKey bare rfl
  rw [List.cons_append] at taken ⊢
  simp [simpleKey, TomlQuoted.basic, TomlQuoted.literal, notDouble, notSingle, taken]

/-- A word is taken as a key of one part, with the blanks behind it. -/
theorem key_word
    {word gap others : List Char}
    {next : Char}
    (isWord : IsBareWord word)
    (blank : ∀ letter ∈ gap, isSpace letter = true)
    (notBlank : isSpace next = false)
    (notDot : next ≠ '.')
    (notBare : isBareKey next = false) :
    key (word ++ (gap ++ next :: others)) = some (([], String.ofList word), next :: others) := by
  have endsWord : Ends isBareKey (gap ++ next :: others) := by
    cases gap with
    | nil => exact ends_cons notBare _
    | cons first rest => exact ends_cons (isBareKey_of_isSpace (blank first List.mem_cons_self)) _
  have leading :
      spaces (word ++ (gap ++ next :: others)) =
        some ((), word ++ (gap ++ next :: others)) := by
    obtain ⟨first, rest, rfl, bare⟩ := isWord.exists_cons
    exact spaces_of_ends (ends_cons (isSpace_of_isBareKey bare) _)
  have trailing := spaces_append blank (ends_cons notBlank others)
  have onePart :
      (do spaces; let part ← simpleKey; spaces; return part : Scanner String)
          (word ++ (gap ++ next :: others)) =
        some (String.ofList word, next :: others) := by
    simp [leading, simpleKey_word isWord endsWord, trailing]
  have noDot : exactly '.' (next :: others) = none := by
    simp [notDot]
  rw [key, bind_apply, keyParts, bind_apply, separated_of_one onePart noDot]
  rfl

/-- A piece of text with a line end that is one line of a document. -/
structure WritesLine (characters : List Char) (statement? : Option TomlStatement) : Prop where
  nonempty : characters ≠ []
  taken : ∀ rest, line (characters ++ rest) = some (statement?, rest)

theorem lineEnd_newline (rest : List Char) : lineEnd ('\n' :: rest) = some ((), rest) := by
  have noBlank : spaces ('\n' :: rest) = some ((), '\n' :: rest) :=
    spaces_of_ends (ends_cons rfl rest)
  simp [lineEnd, noBlank, comment, newline]

/-- What starts neither a comment nor a line break is no empty line. -/
theorem emptyLine_of_ne
    {first : Char}
    (notComment : first ≠ '#')
    (notNewline : first ≠ '\n')
    (notReturn : first ≠ '\r')
    (rest : List Char) :
    emptyLine (first :: rest) = none := by
  simp [emptyLine, comment, newline, notComment, notNewline, notReturn]

theorem writesLine_empty : WritesLine ['\n'] none where
  nonempty := List.cons_ne_nil _ _
  taken rest := by
    have noBlank : spaces ('\n' :: rest) = some ((), '\n' :: rest) :=
      spaces_of_ends (ends_cons rfl rest)
    simp [line, noBlank, emptyLine, comment, newline]

/-- The header of a table. -/
theorem writesLine_header {word : List Char} (isWord : IsBareWord word) :
    WritesLine ('[' :: (word ++ [']', '\n'])) (some (.header [] (String.ofList word))) where
  nonempty := List.cons_ne_nil _ _
  taken rest := by
    have noBlank (others : List Char) : spaces ('[' :: others) = some ((), '[' :: others) :=
      spaces_of_ends (ends_cons rfl others)
    have isKey :
        key (word ++ ']' :: '\n' :: rest) = some (([], String.ofList word), ']' :: '\n' :: rest) :=
      @key_word word [] _ ']' isWord (List.forall_mem_nil _) rfl (by decide) rfl
    have notElement : elementHeader ('[' :: (word ++ ']' :: '\n' :: rest)) = none := by
      obtain ⟨first, others, rfl, bare⟩ := isWord.exists_cons
      have notBracket : first ≠ '[' := ne_of_isBareKey bare rfl
      simp [elementHeader, notBracket]
    have isHeader :
        header ('[' :: (word ++ ']' :: '\n' :: rest)) =
          some (.header [] (String.ofList word), rest) := by
      simp [header, isKey, lineEnd_newline]
    have notEmpty (others : List Char) : emptyLine ('[' :: others) = none :=
      emptyLine_of_ne (by decide) (by decide) (by decide) others
    rw [List.cons_append, List.append_assoc, List.cons_append, List.singleton_append, line,
      bind_apply, noBlank, Option.bind_some, orElse_apply, notEmpty]
    simp [notElement, isHeader]

/-- A text without brackets and braces that is a value when its line ends after it. -/
structure WritesScalar (characters : List Char) (toml : Toml) : Prop where
  starts :
    ∃ first others,
      characters = first :: others ∧ isSpace first = false ∧ first ≠ '[' ∧ first ≠ '\x7b'
  taken : ∀ rest, scalar (characters ++ '\n' :: rest) = some (toml, '\n' :: rest)

/-- A scalar is read back up to the end of its line, however deep values may be nested. -/
theorem WritesScalar.value
    {characters : List Char}
    {toml : Toml}
    (writes : WritesScalar characters toml)
    (levels : Nat)
    (rest : List Char) :
    TomlReader.value levels (characters ++ '\n' :: rest) = some (toml, '\n' :: rest) := by
  have taken := writes.taken rest
  obtain ⟨first, others, rfl, _, notBracket, notBrace⟩ := writes.starts
  rw [List.cons_append] at taken ⊢
  cases levels with
  | zero => exact taken
  | succ levels => simp [TomlReader.value, array, inlineTable, notBracket, notBrace, taken]

theorem isSpace_of_mem_gap : ∀ letter ∈ [' '], isSpace letter = true :=
  List.all_eq_true.mp rfl

/-- An assignment of a scalar. -/
theorem writesLine_assign
    {word characters : List Char}
    {toml : Toml}
    (isWord : IsBareWord word)
    (writes : WritesScalar characters toml) :
    WritesLine (word ++ ' ' :: '=' :: ' ' :: (characters ++ ['\n']))
      (some (.assign [] (String.ofList word) toml)) where
  nonempty := by simp
  taken rest := by
    have isKey :
        key (word ++ ' ' :: '=' :: ' ' :: (characters ++ '\n' :: rest)) =
          some (([], String.ofList word), '=' :: ' ' :: (characters ++ '\n' :: rest)) :=
      @key_word word [' '] _ '=' isWord isSpace_of_mem_gap rfl (by decide) rfl
    have blank :
        spaces (' ' :: (characters ++ '\n' :: rest)) = some ((), characters ++ '\n' :: rest) := by
      obtain ⟨first, others, rfl, notBlank, _⟩ := writes.starts
      exact @spaces_append [' '] _ isSpace_of_mem_gap (ends_cons notBlank _)
    have isValue := writes.value greatestDepth rest
    have isAssignment :
        assignment (word ++ ' ' :: '=' :: ' ' :: (characters ++ '\n' :: rest)) =
          some (.assign [] (String.ofList word) toml, rest) := by
      simp [assignment, isKey, blank, isValue, lineEnd_newline]
    obtain ⟨first, others, rfl, bare⟩ := isWord.exists_cons
    have noBlank (others : List Char) : spaces (first :: others) = some ((), first :: others) :=
      spaces_of_ends (ends_cons (isSpace_of_isBareKey bare) others)
    have notComment : first ≠ '#' := ne_of_isBareKey bare rfl
    have notNewline : first ≠ '\n' := ne_of_isBareKey bare rfl
    have notReturn : first ≠ '\r' := ne_of_isBareKey bare rfl
    have notBracket : first ≠ '[' := ne_of_isBareKey bare rfl
    have notEmpty (others : List Char) : emptyLine (first :: others) = none :=
      emptyLine_of_ne notComment notNewline notReturn others
    rw [List.cons_append] at isAssignment
    simp [line, noBlank, notEmpty, elementHeader, header, notBracket, isAssignment]

/-! ## Scalars -/

/-- A word in quotes. -/
theorem writesScalar_word {word : List Char} (isWord : IsBareWord word) :
    WritesScalar ('\x22' :: (word ++ ['\x22'])) (.string (String.ofList word)) where
  starts := ⟨'\x22', _, rfl, rfl, by decide, by decide⟩
  taken rest := by
    have taken := TomlQuoted.value_word isWord.nonempty isWord.bare ('\n' :: rest)
    simp [scalar, taken]

theorem writesScalar_true : WritesScalar ['t', 'r', 'u', 'e'] (.bool true) where
  starts := ⟨'t', _, rfl, rfl, by decide, by decide⟩
  taken rest := by
    have notQuoted (others : List Char) : TomlQuoted.value ('t' :: others) = none :=
      TomlQuoted.value_of_no_quote (by decide) (by decide) others
    simp [scalar, notQuoted, bool]

theorem writesScalar_false : WritesScalar ['f', 'a', 'l', 's', 'e'] (.bool false) where
  starts := ⟨'f', _, rfl, rfl, by decide, by decide⟩
  taken rest := by
    have notQuoted (others : List Char) : TomlQuoted.value ('f' :: others) = none :=
      TomlQuoted.value_of_no_quote (by decide) (by decide) others
    simp [scalar, notQuoted, bool]

/-- What a number starts with: a digit, a sign, or the name of infinity. -/
def StartsNumber (first : Char) : Prop :=
  first.isDigit = true ∨ first = '-' ∨ first = 'i'

/-- A number starts with none of the marks that other values start with. -/
theorem StartsNumber.ne
    {first other : Char}
    (starts : StartsNumber first)
    (notDigit : other.isDigit = false)
    (notDash : other ≠ '-')
    (notI : other ≠ 'i') :
    first ≠ other := by
  rintro rfl
  rcases starts with isDigit | isDash | isI
  · rw [isDigit] at notDigit
    cases notDigit
  · exact notDash isDash
  · exact notI isI

/-- A scalar that starts as a number is left to the reader of numbers. -/
theorem writesScalar_of_number
    {characters : List Char}
    {toml : Toml}
    (starts : ∃ first others, characters = first :: others ∧ StartsNumber first)
    (taken : ∀ rest,
      TomlNumber.value (characters ++ '\n' :: rest) = some (toml, '\n' :: rest)) :
    WritesScalar characters toml := by
  obtain ⟨first, others, rfl, isNumber⟩ := starts
  have notBlank : isSpace first = false := by
    have notSpace : first ≠ ' ' := isNumber.ne rfl (by decide) (by decide)
    have notTab : first ≠ '\t' := isNumber.ne rfl (by decide) (by decide)
    simp [isSpace, notSpace, notTab]
  have notDouble : first ≠ '\x22' := isNumber.ne rfl (by decide) (by decide)
  have notSingle : first ≠ '\x27' := isNumber.ne rfl (by decide) (by decide)
  have notT : first ≠ 't' := isNumber.ne rfl (by decide) (by decide)
  have notF : first ≠ 'f' := isNumber.ne rfl (by decide) (by decide)
  refine ⟨⟨first, others, rfl, notBlank, isNumber.ne rfl (by decide) (by decide),
    isNumber.ne rfl (by decide) (by decide)⟩, ?_⟩
  intro rest
  have isTaken := taken rest
  rw [List.cons_append] at isTaken ⊢
  simp [scalar, TomlQuoted.value_of_no_quote notDouble notSingle, bool, notT, notF, isTaken]

/-- A natural number is written as an integer when it fits into 64 bits with a sign. -/
theorem writesScalar_natural
    {number : Nat}
    (fits : (number : Int) ≤ Binary64.greatestInt64) :
    WritesScalar (NumberText.naturalDigits number) (.integer number) := by
  refine writesScalar_of_number ?_ (TomlNumber.value_naturalDigits fits)
  obtain ⟨first, others, shape, isDigit⟩ := NumberText.startsWithDigit_naturalDigits number []
  exact ⟨first, others, by rw [← shape, List.append_nil], .inl isDigit⟩

/-- Every double but NaN is taken from its pointed text. -/
theorem writesScalar_pointed {x : Float} (number : x.isNaN = false) :
    WritesScalar (NumberText.pointed x).toList (.float x) := by
  by_cases finite : x.isFinite = true
  · obtain ⟨whole, places, text, areDigits, reads⟩ := NumberText.exists_pointed finite
    rw [text] at reads ⊢
    refine writesScalar_of_number ?_ fun rest => ?_
    · obtain ⟨first, others, shape, isDigit⟩ :=
        NumberText.startsWithDigit_naturalDigits whole ('.' :: places)
      rw [shape]
      cases Binary64.isNegative x with
      | true => exact ⟨'-', _, rfl, .inr (.inl rfl)⟩
      | false => exact ⟨first, others, rfl, .inl isDigit⟩
    · have taken := TomlNumber.value_pointed areDigits reads finite rest
      simpa only [List.append_assoc, List.cons_append] using taken
  · have infinite := Bool.eq_false_iff.mpr finite
    have isInfinity := Binary64.abs_signed number
    rw [Binary64.abs_eq_infinity number infinite] at isInfinity
    rw [NumberText.toList_pointed_of_infinite number infinite]
    refine writesScalar_of_number ?_ fun rest => ?_
    · cases Binary64.isNegative x with
      | true => exact ⟨'-', _, rfl, .inr (.inl rfl)⟩
      | false => exact ⟨'i', _, rfl, .inr (.inr rfl)⟩
    · have taken := TomlNumber.value_infinity (Binary64.isNegative x) rest
      rw [isInfinity] at taken
      simpa only [List.append_assoc, List.cons_append, List.nil_append] using taken

/-! ## Documents -/

/-- A line must take something, so the repetition of lines ends with the text. -/
theorem line_nil : line [] = none :=
  rfl

/-- Lines are read one after the other, each with its own statement. -/
theorem repeats_line
    {pieces : List (List Char)}
    {statements : List (Option TomlStatement)}
    (write : List.Forall₂ WritesLine pieces statements) :
    Repeats line pieces.flatten statements [] := by
  induction write with
  | nil => exact .done line_nil
  | @cons piece statement? laterPieces laterStatements first _ inductionHypothesis =>
      have shorter : laterPieces.flatten.length < (piece ++ laterPieces.flatten).length := by
        have := List.length_pos_of_ne_nil first.nonempty
        rw [List.length_append]
        omega
      exact .more (first.taken laterPieces.flatten) shorter inductionHypothesis

/-- A text of lines is taken as their statements. -/
theorem document_lines
    {pieces : List (List Char)}
    {statements : List (Option TomlStatement)}
    (write : List.Forall₂ WritesLine pieces statements)
    (noMark : exactly '\uFEFF' pieces.flatten = none) :
    document pieces.flatten = some (statements.filterMap id, []) := by
  have lines := many_of_repeats (repeats_line write)
  have noBlank : spaces [] = some ((), []) := rfl
  have noComment : comment [] = none := rfl
  simp [document, noMark, lines, noBlank, noComment]

end TomlReader

end LayerPlayback
