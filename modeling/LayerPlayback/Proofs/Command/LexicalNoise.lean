import LayerPlayback.Proofs.Command.FamilyLetter

namespace LayerPlayback.Decoder

/-!
# Lexical noise

The case of letters, the width of gaps, blanks at the ends, comments, checksums and line
numbers change nothing in what a line decodes to, however they are combined.  The one
exception is a comment that is ended by a newline and followed by a second one: a line
is expected to have one comment, and the second one is read as words.

Newlines can only be among the blanks at the ends of a line.  The invariant that carries
the rewritings is that what stands behind a comment and such a newline is blank, up to
an asterisk.
-/

/-- Blanks, at least one, that do not end a line. -/
structure IsGap (gap : List Char) : Prop where
  nonempty : gap ≠ []
  blank : ∀ character ∈ gap, Blank.isBlank character = true
  oneLine : '\n' ∉ gap

/-- Rewritings of a line that leave what it says. -/
inductive Noise : List Char → List Char → Prop where
  | letterCase
      {line other : List Char}
      (same : line.map Char.toUpper = other.map Char.toUpper) :
      Noise line other
  | gap
      {before gap other after : List Char}
      (nonempty : gap ≠ [])
      (blank : ∀ character ∈ gap, Blank.isBlank character = true)
      (isGap : IsGap other) :
      Noise (before ++ gap ++ after) (before ++ other ++ after)
  | leading
      {line blanks : List Char}
      (blank : ∀ character ∈ blanks, Blank.isBlank character = true) :
      Noise line (blanks ++ line)
  | trailing
      {line blanks : List Char}
      (blank : ∀ character ∈ blanks, Blank.isBlank character = true) :
      Noise line (line ++ blanks)
  /-- The line has no comment that is ended by a newline. -/
  | comment
      {line text : List Char}
      (unended : '\n' ∉ line.dropWhile (· ≠ ';'))
      (oneLine : '\n' ∉ text) :
      Noise line (line ++ ';' :: text)
  | checksum
      {line text : List Char}
      (oneLine : '\n' ∉ text) :
      Noise line (line ++ '*' :: text)
  /-- The line has no line number yet; a second one would be read as the code. -/
  | lineNumber
      {line digits gap : List Char}
      (unnumbered : ∀ word ∈ (Blank.words (body line)).head?, isLineNumber word = false)
      (isNumber : NumberLiteral.isDigits digits = true)
      (isGap : IsGap gap) :
      Noise line ('N' :: digits ++ gap ++ line)

/-! ## Content -/

/-- Whether a character starts neither a comment nor a checksum. -/
def isContent (character : Char) : Bool :=
  character ≠ ';' && character ≠ '*'

/-- What stands in front of the first semicolon and of the first asterisk. -/
def content (characters : List Char) : List Char :=
  characters.takeWhile isContent

theorem isContent_of_isBlank {blank : Char} (isBlank : Blank.isBlank blank = true) :
    isContent blank = true := by
  by_contra isMark
  simp only [isContent, Bool.and_eq_true, decide_eq_true_eq, not_and_or, not_not] at isMark
  rcases isMark with rfl | rfl <;> cases isBlank

theorem notMem_of_isBlank
    {blanks : List Char}
    (blank : ∀ character ∈ blanks, Blank.isBlank character = true) :
    ';' ∉ blanks ∧ '*' ∉ blanks :=
  ⟨fun member => Bool.false_ne_true (blank ';' member),
    fun member => Bool.false_ne_true (blank '*' member)⟩

/-- Text without a mark is content as a whole. -/
theorem content_append_of_isContent
    {before : List Char}
    (isWhole : ∀ character ∈ before, isContent character = true)
    (after : List Char) :
    content (before ++ after) = before ++ content after :=
  List.takeWhile_append_of_pos isWhole

/-- The content of a text ends in the text, or all of the text is content. -/
theorem content_append (before : List Char) :
    (∀ after, content (before ++ after) = content before) ∨
      ∀ character ∈ before, isContent character = true := by
  by_cases isWhole : (content before).length = before.length
  · refine .inr (List.takeWhile_eq_self_iff.mp ?_)
    exact (List.takeWhile_prefix isContent).eq_of_length isWhole
  · exact .inl fun after => List.takeWhile_append.trans (if_neg isWhole)

/-- The first mark ends the content. -/
theorem content_append_mark
    {mark : Char}
    (isMark : isContent mark = false)
    (before after : List Char) :
    content (before ++ mark :: after) = content before := by
  rcases content_append before with ends | isWhole
  · exact ends _
  · calc
      content (before ++ mark :: after) = before :=
        Scanner.takeWhile_append_of_ends isWhole (Scanner.ends_cons isMark after)
      _ = content before := (List.takeWhile_eq_self_iff.mpr isWhole).symm

/-- Without a comment, the content ends at the first asterisk. -/
theorem content_eq_takeWhile {characters : List Char} (noComment : ';' ∉ characters) :
    content characters = characters.takeWhile (· ≠ '*') := by
  have uncommented := Scanner.forall_ne_of_notMem noComment
  calc
    content characters = (characters.takeWhile (· ≠ ';')).takeWhile (· ≠ '*') := by
      rw [content, List.takeWhile_takeWhile]
      congr 1
      funext character
      simp [isContent, Bool.and_comm]
    _ = characters.takeWhile (· ≠ '*') := by rw [List.takeWhile_eq_self_iff.mpr uncommented]

/-- Gaps in a content separate the same words. -/
theorem words_content_gap
    {gap other : List Char}
    (nonempty : gap ≠ [])
    (blank : ∀ character ∈ gap, Blank.isBlank character = true)
    (isGap : IsGap other)
    (before after : List Char) :
    Blank.words (content (before ++ (other ++ after))) =
      Blank.words (content (before ++ (gap ++ after))) := by
  rcases content_append before with ends | isWhole
  · rw [ends, ends]
  · have separated {blanks : List Char}
        (someBlank : blanks ≠ [])
        (blank : ∀ character ∈ blanks, Blank.isBlank character = true) :
        Blank.words (content (before ++ (blanks ++ after))) =
          Blank.words before ++ Blank.words (content after) := by
      have blankContent := fun character member => isContent_of_isBlank (blank character member)
      rw [content_append_of_isContent isWhole, content_append_of_isContent blankContent,
        ← List.append_assoc, Blank.words_append_gap someBlank blank]
    rw [separated nonempty blank, separated isGap.nonempty isGap.blank]

/-- Blanks at the end give no words, whether or not they are content. -/
theorem words_content_trailing
    {blanks : List Char}
    (blank : ∀ character ∈ blanks, Blank.isBlank character = true)
    (characters : List Char) :
    Blank.words (content (characters ++ blanks)) = Blank.words (content characters) := by
  rcases content_append characters with ends | isWhole
  · rw [ends]
  · have blankContent := fun character member => isContent_of_isBlank (blank character member)
    rw [content_append_of_isContent isWhole, content, List.takeWhile_eq_self_iff.mpr blankContent,
      content, List.takeWhile_eq_self_iff.mpr isWhole, Blank.words_append_blanks blank]

/-! ## What newlines leave behind comments -/

/-- Only blanks stand in front of the first asterisk. -/
def IsBlankLine (characters : List Char) : Prop :=
  ∀ character ∈ characters.takeWhile (· ≠ '*'), Blank.isBlank character = true

theorem isBlankLine_of_isBlank
    {blanks : List Char}
    (blank : ∀ character ∈ blanks, Blank.isBlank character = true) :
    IsBlankLine blanks :=
  fun character member => blank character ((List.takeWhile_sublist _).mem member)

/-- The second part only counts when the first one has no asterisk. -/
theorem isBlankLine_append {before after : List Char} :
    IsBlankLine (before ++ after) ↔
      IsBlankLine before ∧ ('*' ∉ before → IsBlankLine after) := by
  unfold IsBlankLine
  by_cases hasChecksum : '*' ∈ before
  · obtain ⟨front, back, rfl, noChecksum⟩ := List.eq_append_cons_of_mem hasChecksum
    have ends (rest : List Char) : (front ++ '*' :: rest).takeWhile (· ≠ '*') = front :=
      Scanner.takeWhile_append_of_ends (Scanner.forall_ne_of_notMem noChecksum)
        (Scanner.ends_cons rfl rest)
    rw [List.append_assoc, List.cons_append, ends, ends]
    exact (and_iff_left fun none => absurd hasChecksum none).symm
  · have isWhole := Scanner.forall_ne_of_notMem hasChecksum
    rw [List.takeWhile_append_of_pos isWhole, List.forall_mem_append,
      List.takeWhile_eq_self_iff.mpr isWhole, forall_prop_of_true hasChecksum]

/-- What stands behind a comment and a newline is blank, up to an asterisk. -/
def BlankBehindComments (characters : List Char) : Prop :=
  ∀ before after, characters = before ++ '\n' :: after → ';' ∈ before → IsBlankLine after

theorem blankBehindComments_of_oneLine {characters : List Char} (oneLine : '\n' ∉ characters) :
    BlankBehindComments characters := by
  rintro before after rfl
  exact absurd (List.mem_append_right _ List.mem_cons_self) oneLine

/-- A character of two texts stands in the first one or in the second one. -/
theorem append_eq_append_cons
    {first second before after : List Char}
    {character : Char}
    (same : first ++ second = before ++ character :: after) :
    (∃ rest, first = before ++ character :: rest ∧ after = rest ++ second) ∨
      ∃ rest, before = first ++ rest ∧ second = rest ++ character :: after := by
  rcases List.append_eq_append_iff.mp same with ⟨rest, isBefore, isSecond⟩ | ⟨rest, isFirst, isAfter⟩
  · exact .inr ⟨rest, isBefore, isSecond⟩
  · rcases List.cons_eq_append_iff.mp isAfter with ⟨rfl, isSecond⟩ | ⟨others, rfl, isAfter⟩
    · exact .inr ⟨[], by simpa using isFirst.symm, isSecond⟩
    · exact .inl ⟨others, isFirst, List.tail_eq_of_cons_eq isAfter⟩

namespace BlankBehindComments

/-- Text without a comment in front brings no new comment. -/
theorem prepend
    {front line : List Char}
    (blankBehind : BlankBehindComments line)
    (noComment : ';' ∉ front) :
    BlankBehindComments (front ++ line) := by
  intro before after shape hasComment
  rcases append_eq_append_cons shape with ⟨rest, rfl, -⟩ | ⟨rest, rfl, isLine⟩
  · exact absurd (List.mem_append_left _ hasComment) noComment
  · exact blankBehind rest after isLine ((List.mem_append.mp hasComment).resolve_left noComment)

theorem append
    {line back : List Char}
    (blankBehind : BlankBehindComments line)
    (blank : IsBlankLine back)
    (furtherBlank : ∀ before after, back = before ++ '\n' :: after → IsBlankLine after) :
    BlankBehindComments (line ++ back) := by
  intro before after shape hasComment
  rcases append_eq_append_cons shape with ⟨rest, rfl, rfl⟩ | ⟨rest, -, isBack⟩
  · exact isBlankLine_append.mpr ⟨blankBehind before rest rfl hasComment, fun _ => blank⟩
  · exact furtherBlank rest after isBack

/-- Blanks at the end keep the invariant, newlines among them included. -/
theorem append_blanks
    {line blanks : List Char}
    (blankBehind : BlankBehindComments line)
    (blank : ∀ character ∈ blanks, Blank.isBlank character = true) :
    BlankBehindComments (line ++ blanks) := by
  refine blankBehind.append (isBlankLine_of_isBlank blank) fun before after shape => ?_
  refine isBlankLine_of_isBlank fun character member => blank character ?_
  rw [shape]
  exact List.mem_append_right _ (List.mem_cons_of_mem _ member)

/-- A checksum without a newline keeps the invariant. -/
theorem append_checksum
    {line text : List Char}
    (blankBehind : BlankBehindComments line)
    (oneLine : '\n' ∉ text) :
    BlankBehindComments (line ++ '*' :: text) := by
  refine blankBehind.append (List.forall_mem_nil _) fun before after shape => ?_
  have isFeed : '\n' ∈ '*' :: text := shape ▸ List.mem_append_right _ List.mem_cons_self
  exact absurd ((List.mem_cons.mp isFeed).resolve_left (by decide)) oneLine

/-- A gap can be another one: where it held newlines, less is left behind comments. -/
theorem replace_gap
    {front gap other back : List Char}
    (blankBehind : BlankBehindComments (front ++ (gap ++ back)))
    (blank : ∀ character ∈ gap, Blank.isBlank character = true)
    (isGap : IsGap other) :
    BlankBehindComments (front ++ (other ++ back)) := by
  intro before after shape hasComment
  rcases append_eq_append_cons shape with ⟨rest, rfl, rfl⟩ | ⟨rest, rfl, inner⟩
  · have old := blankBehind before (rest ++ (gap ++ back)) (by simp) hasComment
    rw [isBlankLine_append, isBlankLine_append] at old ⊢
    refine ⟨old.1, fun none => ⟨isBlankLine_of_isBlank isGap.blank, fun _ => ?_⟩⟩
    exact (old.2 none).2 (notMem_of_isBlank blank).2
  · rcases append_eq_append_cons inner with ⟨others, rfl, -⟩ | ⟨others, rfl, rfl⟩
    · exact absurd (by simp) isGap.oneLine
    · refine blankBehind (front ++ (gap ++ others)) after (by simp) ?_
      have noComment := (notMem_of_isBlank isGap.blank).1
      simp only [List.mem_append, noComment, false_or] at hasComment ⊢
      exact hasComment.imp_right .inr

/-- What is left of a comment and of the lines behind it is blank, up to an asterisk. -/
theorem isBlankLine_dropWhile
    {before comment : List Char}
    (blankBehind : BlankBehindComments (before ++ ';' :: comment)) :
    IsBlankLine ((';' :: comment).dropWhile (· ≠ '\n')) := by
  by_cases hasFeed : '\n' ∈ comment
  · obtain ⟨text, after, rfl, oneLine⟩ := List.eq_append_cons_of_mem hasFeed
    have commentOneLine : '\n' ∉ ';' :: text := by simp [oneLine]
    rw [← List.cons_append,
      Scanner.dropWhile_append_of_ends (Scanner.forall_ne_of_notMem commentOneLine)
        (Scanner.ends_cons rfl after)]
    have feed : IsBlankLine ['\n'] := isBlankLine_of_isBlank (List.forall_mem_singleton.mpr rfl)
    have blank : IsBlankLine after := blankBehind (before ++ ';' :: text) after (by simp) (by simp)
    exact isBlankLine_append.mpr ⟨feed, fun _ => blank⟩
  · have commentOneLine : '\n' ∉ ';' :: comment := by simp [hasFeed]
    rw [List.dropWhile_eq_nil_iff.mpr (Scanner.forall_ne_of_notMem commentOneLine)]
    exact List.forall_mem_nil _

end BlankBehindComments

/-- A comment that a newline does not end leaves nothing behind it. -/
theorem blankBehindComments_append_comment
    {line text : List Char}
    (unended : '\n' ∉ line.dropWhile (· ≠ ';'))
    (oneLine : '\n' ∉ text) :
    BlankBehindComments (line ++ ';' :: text) := by
  intro before after shape hasComment
  rcases append_eq_append_cons shape with ⟨rest, rfl, -⟩ | ⟨rest, -, isComment⟩
  · obtain ⟨front, comment, rfl, noComment⟩ := List.eq_append_cons_of_mem hasComment
    rw [List.append_assoc, List.cons_append,
      Scanner.dropWhile_append_of_ends (Scanner.forall_ne_of_notMem noComment)
        (Scanner.ends_cons rfl _)] at unended
    exact absurd (by simp) unended
  · have isFeed : '\n' ∈ ';' :: text := isComment ▸ List.mem_append_right _ List.mem_cons_self
    exact absurd ((List.mem_cons.mp isFeed).resolve_left (by decide)) oneLine

/-- Upper case brings up no newline behind a comment. -/
theorem unended_ofCharacters
    {line : List Char}
    (unended : '\n' ∉ line.dropWhile (· ≠ ';')) :
    '\n' ∉ (UpperCase.ofCharacters line).dropWhile (· ≠ ';') := by
  have split := @List.takeWhile_append_dropWhile _ (fun character => decide (character ≠ ';')) line
  have noComment : ';' ∉ line.takeWhile (· ≠ ';') :=
    fun member => by simpa using List.mem_takeWhile_imp member
  have upperNoComment := UpperCase.notMem_ofCharacters (by decide) noComment
  have upperUnended := UpperCase.notMem_ofCharacters (by decide) unended
  rw [← split, UpperCase.ofCharacters_append,
    List.dropWhile_append_of_pos (Scanner.forall_ne_of_notMem upperNoComment)]
  exact fun member => upperUnended ((List.dropWhile_sublist _).mem member)

/-! ## The words of a line -/

/-- A blank line at the end gives no more words. -/
theorem words_takeWhile_append
    {back : List Char}
    (blank : IsBlankLine back)
    (front : List Char) :
    Blank.words ((front ++ back).takeWhile (· ≠ '*')) =
      Blank.words (front.takeWhile (· ≠ '*')) := by
  rw [List.takeWhile_append]
  split
  · next isWhole =>
      have same :=
        (List.takeWhile_prefix fun character => decide (character ≠ '*')).eq_of_length isWhole
      rw [same, Blank.words_append_blanks blank]
  · rfl

/-- All words of a line are in its content. -/
theorem words_body
    {line : List Char}
    (blankBehind : BlankBehindComments (UpperCase.ofCharacters line)) :
    Blank.words (body line) = Blank.words (content (UpperCase.ofCharacters line)) := by
  unfold body
  by_cases hasComment : ';' ∈ UpperCase.ofCharacters line
  · obtain ⟨before, comment, shape, noComment⟩ := List.eq_append_cons_of_mem hasComment
    rw [shape] at blankBehind ⊢
    rw [withoutComment_append_of_ends noComment (Scanner.ends_cons rfl _),
      content_append_mark rfl, content_eq_takeWhile noComment,
      words_takeWhile_append blankBehind.isBlankLine_dropWhile]
  · rw [withoutComment_of_notMem hasComment, content_eq_takeWhile hasComment]

/-- Blanks in front stay in front of the body. -/
theorem body_blanks_append
    {blanks : List Char}
    (blank : ∀ character ∈ blanks, Blank.isBlank character = true)
    (line : List Char) :
    body (blanks ++ line) = blanks ++ body line := by
  have upper := UpperCase.ofCharacters_of_isBlank blank
  obtain ⟨noComment, noChecksum⟩ := notMem_of_isBlank blank
  rw [← upper] at noComment noChecksum
  rw [body_append noComment noChecksum, upper]

theorem isAlphanum_of_mem_lineNumber
    {digits : List Char}
    (isNumber : NumberLiteral.isDigits digits = true) :
    ∀ character ∈ 'N' :: digits, character.isAlphanum = true := by
  obtain ⟨-, isDigit⟩ := NumberLiteral.isDigits_iff.mp isNumber
  exact List.forall_mem_cons.mpr
    ⟨rfl, fun digit member => by simp [Char.isAlphanum, isDigit digit member]⟩

/-- A line number in front is skipped, provided that the line has none yet. -/
theorem codeAndArguments_lineNumber
    {line digits gap : List Char}
    (unnumbered : ∀ word ∈ (Blank.words (body line)).head?, isLineNumber word = false)
    (isNumber : NumberLiteral.isDigits digits = true)
    (isGap : IsGap gap) :
    codeAndArguments ('N' :: digits ++ (gap ++ line)) = codeAndArguments line := by
  obtain ⟨-, isDigit⟩ := NumberLiteral.isDigits_iff.mp isNumber
  have alphanumeric := isAlphanum_of_mem_lineNumber isNumber
  have upper : ('N' :: digits).map Char.toUpper = 'N' :: digits := by
    rw [List.map_cons, UpperCase.map_toUpper_of_isDigit isDigit]
    rfl
  have ends : Scanner.Ends (fun character => !Blank.isBlank character) (body (gap ++ line)) := by
    obtain ⟨first, rest, rfl⟩ := List.exists_cons_of_ne_nil isGap.nonempty
    rw [body_blanks_append isGap.blank, List.cons_append]
    exact Scanner.ends_cons (by simp [isGap.blank first List.mem_cons_self]) _
  have isLineNumber : isLineNumber ('N' :: digits) = true := isNumber
  rw [codeAndArguments_append (List.cons_ne_nil _ _) alphanumeric ends, upper, withoutLineNumber,
    if_pos isLineNumber, body_blanks_append isGap.blank, Blank.words_blanks_append isGap.blank,
    codeAndArguments]
  cases words : Blank.words (body line) with
  | nil => rfl
  | cons first rest =>
      rw [words] at unnumbered
      rw [withoutLineNumber, unnumbered first rfl]
      rfl

/-! ## Rewritings -/

/-- A rewriting keeps the invariant, the code and the arguments of a line. -/
structure Keeps (line other : List Char) : Prop where
  blankBehind : BlankBehindComments (UpperCase.ofCharacters other)
  codeAndArguments : codeAndArguments other = codeAndArguments line

/-- A rewriting that changes no word of the content keeps the code and the arguments. -/
theorem keeps_of_content
    {line other : List Char}
    (blankBehind : BlankBehindComments (UpperCase.ofCharacters line))
    (otherBlankBehind : BlankBehindComments (UpperCase.ofCharacters other))
    (same :
      Blank.words (content (UpperCase.ofCharacters other)) =
        Blank.words (content (UpperCase.ofCharacters line))) :
    Keeps line other where
  blankBehind := otherBlankBehind
  codeAndArguments := by
    unfold Decoder.codeAndArguments
    rw [words_body otherBlankBehind, words_body blankBehind, same]

/-- Every rewriting keeps the invariant; this is the step of the run. -/
theorem Noise.keeps
    {line other : List Char}
    (noise : Noise line other)
    (blankBehind : BlankBehindComments (UpperCase.ofCharacters line)) :
    Keeps line other := by
  cases noise with
  | letterCase same =>
      have upper : UpperCase.ofCharacters other = UpperCase.ofCharacters line := by
        rw [← UpperCase.ofCharacters_map_toUpper, ← same, UpperCase.ofCharacters_map_toUpper]
      exact keeps_of_content blankBehind (upper ▸ blankBehind) (by rw [upper])
  | @gap before gap other after nonempty blank isGap =>
      have upper {blanks : List Char}
          (blank : ∀ character ∈ blanks, Blank.isBlank character = true) :
          UpperCase.ofCharacters (before ++ blanks ++ after) =
            UpperCase.ofCharacters before ++ (blanks ++ UpperCase.ofCharacters after) := by
        rw [List.append_assoc, UpperCase.ofCharacters_append, UpperCase.ofCharacters_append,
          UpperCase.ofCharacters_of_isBlank blank]
      refine keeps_of_content blankBehind ?_ ?_
      · rw [upper blank] at blankBehind
        rw [upper isGap.blank]
        exact blankBehind.replace_gap blank isGap
      · rw [upper blank, upper isGap.blank]
        exact words_content_gap nonempty blank isGap _ _
  | leading blank =>
      constructor
      · have noComment := (notMem_of_isBlank blank).1
        rw [UpperCase.ofCharacters_append]
        exact blankBehind.prepend (UpperCase.notMem_ofCharacters (by decide) noComment)
      · unfold codeAndArguments
        rw [body_blanks_append blank, Blank.words_blanks_append blank]
  | trailing blank =>
      refine keeps_of_content blankBehind ?_ ?_ <;>
        rw [UpperCase.ofCharacters_append, UpperCase.ofCharacters_of_isBlank blank]
      · exact blankBehind.append_blanks blank
      · exact words_content_trailing blank _
  | comment unended oneLine =>
      refine keeps_of_content blankBehind ?_ ?_ <;>
        rw [UpperCase.ofCharacters_append, UpperCase.ofCharacters_cons_mark (by decide)]
      · exact blankBehindComments_append_comment (unended_ofCharacters unended)
          (UpperCase.notMem_ofCharacters (by decide) oneLine)
      · rw [content_append_mark rfl]
  | checksum oneLine =>
      refine keeps_of_content blankBehind ?_ ?_ <;>
        rw [UpperCase.ofCharacters_append, UpperCase.ofCharacters_cons_mark (by decide)]
      · exact blankBehind.append_checksum (UpperCase.notMem_ofCharacters (by decide) oneLine)
      · rw [content_append_mark rfl]
  | @lineNumber _ digits gap unnumbered isNumber isGap =>
      rw [List.append_assoc]
      refine ⟨?_, codeAndArguments_lineNumber unnumbered isNumber isGap⟩
      -- In front of the line there is no comment, so the invariant is about the line alone.
      have numberNoComment : ';' ∉ 'N' :: digits :=
        fun member => Bool.false_ne_true (isAlphanum_of_mem_lineNumber isNumber ';' member)
      have gapNoComment := (notMem_of_isBlank isGap.blank).1
      rw [UpperCase.ofCharacters_append, UpperCase.ofCharacters_append]
      exact (blankBehind.prepend (UpperCase.notMem_ofCharacters (by decide) gapNoComment)).prepend
        (UpperCase.notMem_ofCharacters (by decide) numberNoComment)

/-- Any number of rewritings keeps what one rewriting keeps. -/
theorem keeps_of_noise
    {line other : List Char}
    (noise : Relation.ReflTransGen Noise line other)
    (blankBehind : BlankBehindComments (UpperCase.ofCharacters line)) :
    Keeps line other := by
  induction noise with
  | refl => exact ⟨blankBehind, rfl⟩
  | tail _ last inductionHypothesis =>
      have kept := last.keeps inductionHypothesis.blankBehind
      exact ⟨kept.blankBehind, kept.codeAndArguments.trans inductionHypothesis.codeAndArguments⟩

/-- Noise changes nothing in what a line decodes to. -/
theorem decode_of_noise
    {line other : String}
    (oneLine : '\n' ∉ line.toList)
    (noise : Relation.ReflTransGen Noise line.toList other.toList)
    (decoder : Decoder)
    (lineNumber : Nat) :
    decoder.decode other lineNumber = decoder.decode line lineNumber := by
  have blankBehind : BlankBehindComments (UpperCase.ofCharacters line.toList) :=
    blankBehindComments_of_oneLine (UpperCase.notMem_ofCharacters (by decide) oneLine)
  rw [decode, (keeps_of_noise noise blankBehind).codeAndArguments, decode]

/-- A host sends a line with everything that can be added to it. -/
theorem decode_of_noise_hostLine :
    let line := "g1  x2"
    let other := "\tN07 G1 X2*51;fast\n"
    ('\n' ∉ line.toList ∧ Relation.ReflTransGen Noise line.toList other.toList) ∧
      ∀ decoder : Decoder, decoder.decode other 1 = decoder.decode line 1 := by
  intro line other
  have isGap : IsGap [' '] := ⟨by decide, List.all_eq_true.mp rfl, by decide⟩
  have letterCase : Noise line.toList "G1  X2".toList := .letterCase (by decide)
  have gap : Noise "G1  X2".toList "G1 X2".toList :=
    @Noise.gap ['G', '1'] [' ', ' '] [' '] ['X', '2'] (by decide) (List.all_eq_true.mp rfl) isGap
  have lineNumber : Noise "G1 X2".toList "N07 G1 X2".toList :=
    @Noise.lineNumber "G1 X2".toList ['0', '7'] [' '] (by decide +kernel) (by decide) isGap
  have checksum : Noise "N07 G1 X2".toList "N07 G1 X2*51".toList :=
    @Noise.checksum "N07 G1 X2".toList ['5', '1'] (by decide)
  have comment : Noise "N07 G1 X2*51".toList "N07 G1 X2*51;fast".toList :=
    @Noise.comment "N07 G1 X2*51".toList "fast".toList (by decide) (by decide)
  have leading : Noise "N07 G1 X2*51;fast".toList "\tN07 G1 X2*51;fast".toList :=
    @Noise.leading "N07 G1 X2*51;fast".toList ['\t'] (List.all_eq_true.mp rfl)
  have trailing : Noise "\tN07 G1 X2*51;fast".toList "\tN07 G1 X2*51;fast\n".toList :=
    @Noise.trailing "\tN07 G1 X2*51;fast".toList ['\n'] (List.all_eq_true.mp rfl)
  have oneLine : '\n' ∉ line.toList := by decide
  have noise : Relation.ReflTransGen Noise line.toList other.toList :=
    ((((((Relation.ReflTransGen.single letterCase).tail gap).tail lineNumber).tail checksum).tail
      comment).tail leading).tail trailing
  exact ⟨⟨oneLine, noise⟩, fun decoder => decode_of_noise oneLine noise decoder 1⟩

/-- Behind a comment and a newline, a second comment is read as words, and its value counts. -/
theorem decode_secondComment :
    let line := "G1 X1;first"
    '\n' ∉ line.toList ∧
      Noise line.toList (line ++ "\n").toList ∧
        '\n' ∉ "second X2".toList ∧
          ((ofLetter 'G').decode line 1).command?.map (fun command => command.word? 'X') =
              some (some 1.0) ∧
            ((ofLetter 'G').decode (line ++ "\n" ++ ";second X2") 1).command?.map
                (fun command => command.word? 'X') =
              some (some 2.0) := by
  refine ⟨by decide, ?_, by decide, by decide +kernel, by decide +kernel⟩
  exact @Noise.trailing "G1 X1;first".toList ['\n'] (List.all_eq_true.mp rfl)

end LayerPlayback.Decoder
