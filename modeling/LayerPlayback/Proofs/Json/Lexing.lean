import LayerPlayback.Json.Token
import LayerPlayback.Json.Writer
import LayerPlayback.Proofs.Json.Numbers

namespace LayerPlayback

/-!
# Written JSON is split into its tokens

A piece of text writes some tokens when the lexer reads these from it wherever it
stands, as long as no bare word goes on behind it.  Pieces are put together with
blanks and punctuation, so both written forms of a value have the same tokens.
-/

namespace JsonLexer

/-- The tokens that a lexer finds in the rest of a text. -/
def lexed? (lexer : JsonLexer) (characters : List Char) : Option (List JsonToken) :=
  (characters.foldlM step lexer).bind finished?

/-- A piece of text from which some tokens are read, whatever surrounds it. -/
def Writes (characters : List Char) (tokens : List JsonToken) : Prop :=
  ∀ reversed rest, Scanner.Ends isBare rest →
    lexed? ⟨reversed, .between⟩ (characters ++ rest) =
      lexed? ⟨tokens.reverse ++ reversed, .between⟩ rest

/-- The lexer goes over a text character by character, and fails where a step fails. -/
theorem lexed?_cons (lexer : JsonLexer) (character : Char) (rest : List Char) :
    lexed? lexer (character :: rest) =
      (step lexer character).bind fun next => lexed? next rest := by
  unfold lexed?
  rw [List.foldlM_cons]
  change ((step lexer character).bind _).bind _ = _
  rw [Option.bind_assoc]

theorem lexed?_cons_of_step
    {lexer next : JsonLexer}
    {character : Char}
    (steps : step lexer character = some next)
    (rest : List Char) :
    lexed? lexer (character :: rest) = lexed? next rest := by
  rw [lexed?_cons, steps, Option.bind_some]

/-! ## Blanks and punctuation -/

/-- Spaces between tokens leave no trace. -/
theorem lexed?_spaces
    {gap : List Char}
    (spaces : ∀ character ∈ gap, isSpace character = true)
    (reversed : List JsonToken)
    (rest : List Char) :
    lexed? ⟨reversed, .between⟩ (gap ++ rest) = lexed? ⟨reversed, .between⟩ rest := by
  induction gap with
  | nil => rfl
  | cons first more inductionHypothesis =>
      obtain ⟨firstSpace, moreSpaces⟩ := List.forall_mem_cons.mp spaces
      rw [List.cons_append, lexed?_cons_of_step, inductionHypothesis moreSpaces]
      simp only [step, stepBetween, if_pos firstSpace]

/-- A space ends a word without quotation marks. -/
theorem isBare_of_isSpace {character : Char} (space : isSpace character = true) :
    isBare character = false := by
  simp only [isSpace, Bool.or_eq_true, decide_eq_true_eq] at space
  rcases space with ((rfl | rfl) | rfl) | rfl <;> rfl

theorem isSpace_of_mem_lineBreak (depth : Nat) :
    ∀ character ∈ Json.lineBreak depth, isSpace character = true := by
  intro character member
  rcases List.mem_cons.mp member with rfl | inIndent
  · rfl
  · rw [List.eq_of_mem_replicate inIndent]
    rfl

/-- A punctuation character is a token by itself. -/
structure Punctuates (character : Char) (token : JsonToken) : Prop where
  token : punctuation? character = some token
  notSpace : isSpace character = false
  notQuote : character ≠ '\x22'
  notBare : isBare character = false

/-- A mark of its own is a token at once. -/
theorem Punctuates.lexed?
    {character : Char}
    {token : JsonToken}
    (punctuates : Punctuates character token)
    (reversed : List JsonToken)
    (rest : List Char) :
    lexed? ⟨reversed, .between⟩ (character :: rest) =
      lexed? ⟨token :: reversed, .between⟩ rest := by
  obtain ⟨isToken, notSpace, notQuote, notBare⟩ := punctuates
  apply lexed?_cons_of_step
  simp [step, stepBetween, isToken, notSpace, notQuote, notBare]

/-- A mark ends the word in front of it. -/
theorem Punctuates.ends
    {character : Char}
    {token : JsonToken}
    (punctuates : Punctuates character token)
    (rest : List Char) :
    Scanner.Ends isBare (character :: rest) :=
  Scanner.ends_cons punctuates.notBare rest

/-- A bare word does not go on with blanks, nor with the punctuation behind them. -/
theorem Punctuates.ends_spaces
    {character : Char}
    {token : JsonToken}
    (punctuates : Punctuates character token)
    {gap : List Char}
    (spaces : ∀ character ∈ gap, isSpace character = true)
    (rest : List Char) :
    Scanner.Ends isBare (gap ++ character :: rest) := by
  cases gap with
  | nil => exact punctuates.ends rest
  | cons first more =>
      exact Scanner.ends_cons (isBare_of_isSpace (List.forall_mem_cons.mp spaces).1) _

theorem punctuates_openArray : Punctuates '[' .openArray := ⟨rfl, rfl, by decide, rfl⟩

theorem punctuates_closeArray : Punctuates ']' .closeArray := ⟨rfl, rfl, by decide, rfl⟩

theorem punctuates_openObject : Punctuates '\x7b' .openObject := ⟨rfl, rfl, by decide, rfl⟩

theorem punctuates_closeObject : Punctuates '\x7d' .closeObject := ⟨rfl, rfl, by decide, rfl⟩

theorem punctuates_colon : Punctuates ':' .colon := ⟨rfl, rfl, by decide, rfl⟩

theorem punctuates_comma : Punctuates ',' .comma := ⟨rfl, rfl, by decide, rfl⟩

/-! ## Bare words -/

/-- The characters of a bare word are gathered in reverse until something ends it. -/
theorem lexed?_bare
    {word : List Char}
    (bare : ∀ character ∈ word, isBare character = true)
    (reversed : List JsonToken)
    (before : List Char)
    (rest : List Char) :
    lexed? ⟨reversed, .bare before⟩ (word ++ rest) =
      lexed? ⟨reversed, .bare (word.reverse ++ before)⟩ rest := by
  induction word generalizing before with
  | nil => rfl
  | cons first more inductionHypothesis =>
      obtain ⟨firstBare, moreBare⟩ := List.forall_mem_cons.mp bare
      have steps :
          step ⟨reversed, .bare before⟩ first = some ⟨reversed, .bare (first :: before)⟩ := by
        simp only [step, if_pos firstBare]
      rw [List.cons_append, lexed?_cons_of_step steps, inductionHypothesis moreBare,
        List.reverse_cons, List.append_assoc]
      rfl

/-- A bare word is read when something else follows. -/
theorem writes_bare
    {word : List Char}
    {value : Json}
    (nonempty : word ≠ [])
    (bare : ∀ character ∈ word, isBare character = true)
    (isValue : bareValue? word = some value) :
    Writes word [.scalar value] := by
  intro reversed rest ends
  obtain ⟨first, more, rfl⟩ := List.exists_cons_of_ne_nil nonempty
  obtain ⟨firstBare, moreBare⟩ := List.forall_mem_cons.mp bare
  have notSpace : isSpace first = false := by
    refine Bool.eq_false_iff.mpr fun space => ?_
    rw [isBare_of_isSpace space] at firstBare
    cases firstBare
  have notQuote : first ≠ '\x22' := by
    rintro rfl
    cases firstBare
  have starts :
      step ⟨reversed, .between⟩ first = some ⟨reversed, .bare [first]⟩ := by
    simp [step, stepBetween, notSpace, notQuote, firstBare]
  have whole : (more.reverse ++ [first]).reverse = first :: more := by simp
  rw [List.cons_append, lexed?_cons_of_step starts, lexed?_bare moreBare]
  -- A word is only known to be complete at the end of the text or at what follows it.
  cases rest with
  | nil =>
      change ((some (⟨reversed, .bare (more.reverse ++ [first])⟩ : JsonLexer)).bind finished?) =
        (some (⟨.scalar value :: reversed, .between⟩ : JsonLexer)).bind finished?
      simp only [Option.bind_some, finished?, whole, isValue, Option.map_some]
  | cons next later =>
      have nextNotBare : isBare next = false := ends next rfl
      rw [lexed?_cons, lexed?_cons]
      simp only [step, nextNotBare, whole, isValue, Option.bind_some, Bool.false_eq_true,
        if_false]
      rfl

/-! ## Strings -/

/-- The pieces that a character of a string may be read as. -/
inductive IsPieceOf : Char → JsonQuoted.Piece → Prop where
  | character (character : Char) : IsPieceOf character (.character character)
  | unit {character : Char} (control : character.toNat < 0x20) :
      IsPieceOf character (.unit character.toNat)

/-- Each digit of an escape stands for its own value. -/
theorem hexValue?_hexDigit {value : Nat} (small : value < 16) :
    JsonQuoted.hexValue? (JsonQuoted.hexDigit value) = some value := by
  have all : ∀ digit < 16, JsonQuoted.hexValue? (JsonQuoted.hexDigit digit) = some digit := by
    decide
  exact all value small

/-- An escape by a letter is read as the character that the letter stands for. -/
theorem lexed?_letterEscape
    {letter character : Char}
    (notNumbered : letter ≠ 'u')
    (escapes : JsonQuoted.unescape? letter = some character)
    (reversed : List JsonToken)
    (pieces : List JsonQuoted.Piece)
    (rest : List Char) :
    lexed? ⟨reversed, .quoted pieces⟩ ('\\' :: letter :: rest) =
      lexed? ⟨reversed, .quoted (.character character :: pieces)⟩ rest := by
  have opens :
      step ⟨reversed, .quoted pieces⟩ '\\' = some ⟨reversed, .escape pieces⟩ :=
    rfl
  have steps :
      step ⟨reversed, .escape pieces⟩ letter =
        some ⟨reversed, .quoted (.character character :: pieces)⟩ := by
    simp [step, stepEscape, notNumbered, escapes]
  rw [lexed?_cons_of_step opens, lexed?_cons_of_step steps]

/-- An escape by number is read as the code unit of the number. -/
theorem lexed?_numberedEscape
    {code : Nat}
    (control : code < 0x20)
    (reversed : List JsonToken)
    (pieces : List JsonQuoted.Piece)
    (rest : List Char) :
    lexed? ⟨reversed, .quoted pieces⟩
        ('\\' :: 'u' :: '0' :: '0' :: JsonQuoted.hexDigit (code / 16)
          :: JsonQuoted.hexDigit (code % 16) :: rest) =
      lexed? ⟨reversed, .quoted (.unit code :: pieces)⟩ rest := by
  have opens :
      step ⟨reversed, .quoted pieces⟩ '\\' = some ⟨reversed, .escape pieces⟩ :=
    rfl
  have numbers :
      step ⟨reversed, .escape pieces⟩ 'u' = some ⟨reversed, .hex pieces 0 4⟩ :=
    rfl
  have first : step ⟨reversed, .hex pieces 0 4⟩ '0' = some ⟨reversed, .hex pieces 0 3⟩ := rfl
  have second : step ⟨reversed, .hex pieces 0 3⟩ '0' = some ⟨reversed, .hex pieces 0 2⟩ := rfl
  have third :
      step ⟨reversed, .hex pieces 0 2⟩ (JsonQuoted.hexDigit (code / 16)) =
        some ⟨reversed, .hex pieces (code / 16) 1⟩ := by
    simp [step, stepHex, hexValue?_hexDigit (by omega : code / 16 < 16)]
  have fourth :
      step ⟨reversed, .hex pieces (code / 16) 1⟩ (JsonQuoted.hexDigit (code % 16)) =
        some ⟨reversed, .quoted (.unit code :: pieces)⟩ := by
    have restored : 16 * (code / 16) + code % 16 = code := by omega
    simp [step, stepHex, hexValue?_hexDigit (by omega : code % 16 < 16), restored]
  rw [lexed?_cons_of_step opens, lexed?_cons_of_step numbers, lexed?_cons_of_step first,
    lexed?_cons_of_step second, lexed?_cons_of_step third, lexed?_cons_of_step fourth]

/-- A written character is read as one of its pieces. -/
theorem exists_piece (character : Char) :
    ∃ piece,
      IsPieceOf character piece ∧
        ∀ reversed pieces rest,
          lexed? ⟨reversed, .quoted pieces⟩ (JsonQuoted.escape character ++ rest) =
            lexed? ⟨reversed, .quoted (piece :: pieces)⟩ rest := by
  have byLetter {letter character : Char}
      (notNumbered : letter ≠ 'u')
      (escapes : JsonQuoted.unescape? letter = some character) :
      ∃ piece,
        IsPieceOf character piece ∧
          ∀ reversed pieces rest,
            lexed? ⟨reversed, .quoted pieces⟩ (['\\', letter] ++ rest) =
              lexed? ⟨reversed, .quoted (piece :: pieces)⟩ rest :=
    ⟨.character character, .character character, lexed?_letterEscape notNumbered escapes⟩
  unfold JsonQuoted.escape
  split
  · exact byLetter (by decide) rfl
  · exact byLetter (by decide) rfl
  · exact byLetter (by decide) rfl
  · exact byLetter (by decide) rfl
  · exact byLetter (by decide) rfl
  · exact byLetter (by decide) rfl
  · exact byLetter (by decide) rfl
  · next notQuote notBackslash _ _ _ _ _ =>
      by_cases control : character.toNat < 0x20
      · rw [if_pos control]
        exact ⟨.unit character.toNat, .unit control, lexed?_numberedEscape control⟩
      · rw [if_neg control]
        refine ⟨.character character, .character character, fun reversed pieces rest => ?_⟩
        apply lexed?_cons_of_step
        simp only [step, stepQuoted, if_neg notQuote, if_neg notBackslash, if_neg control]

/-- The code unit of a control character is assembled to the character by itself. -/
theorem assemble?_unit
    {code : Nat}
    (control : code < 0x20)
    (pieces : List JsonQuoted.Piece) :
    JsonQuoted.assemble? (.unit code :: pieces) =
      (JsonQuoted.assemble? pieces).map (Char.ofNat code :: ·) := by
  have notHigh : JsonQuoted.isHighSurrogate code = false := by
    simp [JsonQuoted.isHighSurrogate]
    omega
  have notLow : JsonQuoted.isLowSurrogate code = false := by
    simp [JsonQuoted.isLowSurrogate]
    omega
  cases pieces with
  | nil => simp [JsonQuoted.assemble?, notHigh, notLow]
  | cons next others =>
      cases next <;> simp [JsonQuoted.assemble?, notHigh, notLow]

/-- Pieces of a text are put together to the text. -/
theorem assemble?_of_forall₂
    {characters : List Char}
    {pieces : List JsonQuoted.Piece}
    (arePieces : List.Forall₂ IsPieceOf characters pieces) :
    JsonQuoted.assemble? pieces = some characters := by
  induction arePieces with
  | nil => rfl
  | cons isPiece _ inductionHypothesis =>
      cases isPiece with
      | character => rw [JsonQuoted.assemble?, inductionHypothesis, Option.map_some]
      | unit control =>
          rw [assemble?_unit control, inductionHypothesis, Option.map_some, Char.ofNat_toNat]

/-- Each character is taken as one piece, whether it is escaped or stands for itself. -/
theorem exists_pieces (characters : List Char) :
    ∃ pieces,
      List.Forall₂ IsPieceOf characters pieces ∧
        ∀ reversed before rest,
          lexed? ⟨reversed, .quoted before⟩ (characters.flatMap JsonQuoted.escape ++ rest) =
            lexed? ⟨reversed, .quoted (pieces.reverse ++ before)⟩ rest := by
  induction characters with
  | nil => exact ⟨[], .nil, fun _ _ _ => rfl⟩
  | cons first more inductionHypothesis =>
      obtain ⟨piece, isPiece, readsFirst⟩ := exists_piece first
      obtain ⟨pieces, arePieces, readsMore⟩ := inductionHypothesis
      refine ⟨piece :: pieces, .cons isPiece arePieces, fun reversed before rest => ?_⟩
      rw [List.flatMap_cons, List.append_assoc, readsFirst, readsMore]
      simp

/-- A string is read from its quoted form, whatever follows. -/
theorem lexed?_quoted (text : String) (reversed : List JsonToken) (rest : List Char) :
    lexed? ⟨reversed, .between⟩ (JsonQuoted.encode text.toList ++ rest) =
      lexed? ⟨.scalar (.string text) :: reversed, .between⟩ rest := by
  obtain ⟨pieces, arePieces, reads⟩ := exists_pieces text.toList
  have opens :
      step ⟨reversed, .between⟩ '\x22' = some ⟨reversed, .quoted []⟩ :=
    rfl
  have closes :
      step ⟨reversed, .quoted (pieces.reverse ++ [])⟩ '\x22' =
        some ⟨.scalar (.string text) :: reversed, .between⟩ := by
    have value : quotedValue (pieces.reverse ++ []).reverse = .string text := by
      simp [quotedValue, assemble?_of_forall₂ arePieces]
    simp only [step, stepQuoted, if_true, value]
  unfold JsonQuoted.encode
  rw [List.cons_append, List.cons_append, lexed?_cons_of_step opens, List.append_assoc, reads,
    List.cons_append, lexed?_cons_of_step closes]
  rfl

/-- A text with its escapes is a single token, whatever characters it has. -/
theorem writes_quoted (text : String) :
    Writes (JsonQuoted.encode text.toList) [.scalar (.string text)] :=
  fun reversed rest _ => lexed?_quoted text reversed rest

end JsonLexer

end LayerPlayback
