import LayerPlayback.Proofs.Text.Scanner
import LayerPlayback.Proofs.Text.UpperCase

namespace LayerPlayback.Blank

/-!
# Words between blanks

Any blanks between two texts separate their words, and blanks at the ends of a text
belong to none.
-/

theorem isBlank_of_isAlphanum {character : Char} (alphanumeric : character.isAlphanum = true) :
    isBlank character = false :=
  UpperCase.forall_ascii (fun character => character.isAlphanum → isBlank character = false)
    (by decide) (UpperCase.toNat_lt_of_isAlphanum alphanumeric) alphanumeric

theorem mem_of_mem_splitOnP
    {piece characters : List Char}
    {character : Char}
    (isPiece : piece ∈ characters.splitOnP isBlank)
    (member : character ∈ piece) :
    character ∈ characters ∧ isBlank character = false := by
  induction characters generalizing piece with
  | nil =>
      rw [List.splitOnP_nil, List.mem_singleton] at isPiece
      subst isPiece
      cases member
  | cons first rest inductionHypothesis =>
      have later {other : List Char} (isOther : other ∈ rest.splitOnP isBlank)
          (inOther : character ∈ other) : character ∈ first :: rest ∧ isBlank character = false :=
        (inductionHypothesis isOther inOther).imp_left (List.mem_cons_of_mem _)
      rw [List.splitOnP_cons_eq_if_modifyHead] at isPiece
      split at isPiece
      case isTrue =>
        rcases List.mem_cons.mp isPiece with rfl | isOther
        · cases member
        · exact later isOther member
      case isFalse notBlank =>
        obtain ⟨head, others, pieces⟩ :=
          List.exists_cons_of_ne_nil (List.splitOnP_ne_nil isBlank rest)
        rw [pieces, List.modifyHead_cons] at isPiece
        rw [pieces] at later
        rcases List.mem_cons.mp isPiece with rfl | isOther
        · rcases List.mem_cons.mp member with rfl | inHead
          · exact ⟨List.mem_cons_self, Bool.eq_false_iff.mpr notBlank⟩
          · exact later List.mem_cons_self inHead
        · exact later (List.mem_cons_of_mem _ isOther) member

/-- Words are made of characters of the text that are not blank. -/
theorem mem_of_mem_words
    {word characters : List Char}
    {character : Char}
    (isWord : word ∈ words characters)
    (member : character ∈ word) :
    character ∈ characters ∧ isBlank character = false :=
  mem_of_mem_splitOnP (List.mem_filter.mp isWord).1 member

/-- A word in front of a blank, or of nothing, is the first word. -/
theorem words_append_of_ends
    {word rest : List Char}
    (nonempty : word ≠ [])
    (unbroken : ∀ character ∈ word, isBlank character = false)
    (ends : Scanner.Ends (fun character => !isBlank character) rest) :
    words (word ++ rest) = word :: words rest := by
  cases rest with
  | nil =>
      rw [words, List.append_nil, List.splitOnP_eq_singleton unbroken]
      simp [nonempty, words]
  | cons blank others =>
      have isBlank : isBlank blank = true := by simpa using ends blank rfl
      have skipped : (blank :: others).splitOnP Blank.isBlank =
          [] :: others.splitOnP Blank.isBlank :=
        List.splitOnP_append_cons [] others isBlank
      rw [words, List.splitOnP_append_cons_of_forall_mem unbroken blank isBlank, words, skipped]
      simp [nonempty]

/-- A blank ends a word, so words on its two sides are found apart. -/
theorem words_append_cons
    {blank : Char}
    (isBlank : isBlank blank = true)
    (before after : List Char) :
    words (before ++ blank :: after) = words before ++ words after := by
  rw [words, List.splitOnP_append_cons _ _ isBlank, List.filter_append, words, words]

/-- Blanks in front of a text are in none of its words. -/
theorem words_blanks_append
    {blanks : List Char}
    (blank : ∀ character ∈ blanks, isBlank character = true)
    (characters : List Char) :
    words (blanks ++ characters) = words characters := by
  induction blanks with
  | nil => rfl
  | cons first rest inductionHypothesis =>
      obtain ⟨isFirst, isRest⟩ := List.forall_mem_cons.mp blank
      rw [List.cons_append, ← List.nil_append (first :: (rest ++ characters)),
        words_append_cons isFirst, inductionHypothesis isRest]
      rfl

/-- Any blanks between two texts separate their words alike. -/
theorem words_append_gap
    {gap : List Char}
    (nonempty : gap ≠ [])
    (blank : ∀ character ∈ gap, isBlank character = true)
    (before after : List Char) :
    words (before ++ gap ++ after) = words before ++ words after := by
  obtain ⟨first, rest, rfl⟩ := List.exists_cons_of_ne_nil nonempty
  obtain ⟨isFirst, isRest⟩ := List.forall_mem_cons.mp blank
  rw [List.append_assoc, List.cons_append, words_append_cons isFirst,
    words_blanks_append isRest]

/-- Blanks at the end add no word. -/
theorem words_append_blanks
    {blanks : List Char}
    (blank : ∀ character ∈ blanks, isBlank character = true)
    (characters : List Char) :
    words (characters ++ blanks) = words characters := by
  by_cases none : blanks = []
  · rw [none, List.append_nil]
  · have separated := words_append_gap none blank characters []
    have noWords : words [] = [] := rfl
    rwa [List.append_nil, noWords, List.append_nil] at separated

end LayerPlayback.Blank
