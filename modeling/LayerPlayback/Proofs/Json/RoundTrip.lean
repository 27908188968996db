import LayerPlayback.Json.Reader
import LayerPlayback.Proofs.Json.Lexing

namespace LayerPlayback

/-!
# JSON values survive their text

A value without ill-formed parts is the only one that is read from either of its
texts.  The proof goes through the tokens of the value: the writer writes them, and
the reader takes them for the value inside any arrays and objects that are open.
-/

namespace Json

mutual

/-- A value that has a written form: its numbers have digits, and all its texts are text. -/
def IsWritable : Json → Prop
  | .number written => written.IsWellFormed
  | .array items => AreWritable items
  | .object fields => HasWritableFields fields
  | .illFormed => False
  | _ => True

/-- Items that have written forms. -/
def AreWritable : List Json → Prop
  | [] => True
  | item :: rest => item.IsWritable ∧ AreWritable rest

/-- Fields whose values have written forms. -/
def HasWritableFields : List (String × Json) → Prop
  | [] => True
  | (_, value) :: rest => value.IsWritable ∧ HasWritableFields rest

end

/-- Pieces of tokens with commas between them. -/
def commaSeparated (pieces : List (List JsonToken)) : List JsonToken :=
  [JsonToken.comma].intercalate pieces

mutual

/-- The tokens of a value. -/
def tokens : Json → List JsonToken
  | .array items => .openArray :: commaSeparated (itemTokens items) ++ [.closeArray]
  | .object fields => .openObject :: commaSeparated (fieldTokens fields) ++ [.closeObject]
  | scalar => [.scalar scalar]

/-- The tokens of each item. -/
def itemTokens : List Json → List (List JsonToken)
  | [] => []
  | item :: rest => item.tokens :: itemTokens rest

/-- The tokens of each field. -/
def fieldTokens : List (String × Json) → List (List JsonToken)
  | [] => []
  | (key, value) :: rest =>
      (.scalar (.string key) :: .colon :: value.tokens) :: fieldTokens rest

end

end Json

namespace JsonLexer

open Json (commaSeparated separated lineBreak block)

/-- Pieces with commas and blanks between them write their tokens with commas between them. -/
theorem writes_separated
    {gap : List Char}
    (spaces : ∀ character ∈ gap, isSpace character = true)
    {pieces : List (List Char)}
    {tokens : List (List JsonToken)}
    (write : List.Forall₂ Writes pieces tokens) :
    Writes (separated (',' :: gap) pieces) (commaSeparated tokens) := by
  induction write with
  | nil => exact fun reversed rest _ => rfl
  | @cons piece words morePieces moreWords first more inductionHypothesis =>
      cases more with
      | nil =>
          simpa [separated, commaSeparated] using first
      | @cons nextPiece nextWords laterPieces laterWords next later =>
          intro reversed rest ends
          have restWritten := inductionHypothesis (.comma :: (words.reverse ++ reversed)) rest ends
          have pieceText :
              separated (',' :: gap) (piece :: nextPiece :: laterPieces) ++ rest =
                piece ++ (',' :: (gap ++
                  (separated (',' :: gap) (nextPiece :: laterPieces) ++ rest))) := by
            simp [separated, List.intercalate]
          have pieceTokens :
              (commaSeparated (words :: nextWords :: laterWords)).reverse ++ reversed =
                (commaSeparated (nextWords :: laterWords)).reverse
                  ++ (.comma :: (words.reverse ++ reversed)) := by
            simp [commaSeparated, List.intercalate]
          rw [pieceText, pieceTokens, first reversed _ (punctuates_comma.ends _),
            punctuates_comma.lexed?, lexed?_spaces spaces, restWritten]

/-- Pieces between brackets and blanks write their tokens between those of the brackets. -/
theorem writes_bracketed
    {opening closing : Char}
    {openToken closeToken : JsonToken}
    (opens : Punctuates opening openToken)
    (closes : Punctuates closing closeToken)
    {before between behind : List Char}
    (beforeSpaces : ∀ character ∈ before, isSpace character = true)
    (betweenSpaces : ∀ character ∈ between, isSpace character = true)
    (behindSpaces : ∀ character ∈ behind, isSpace character = true)
    {pieces : List (List Char)}
    {tokens : List (List JsonToken)}
    (write : List.Forall₂ Writes pieces tokens) :
    Writes (opening :: before ++ separated (',' :: between) pieces ++ behind ++ [closing])
      (openToken :: commaSeparated tokens ++ [closeToken]) := by
  intro reversed rest _
  have inner :=
    writes_separated betweenSpaces write (openToken :: reversed) (behind ++ (closing :: rest))
      (closes.ends_spaces behindSpaces rest)
  have text :
      (opening :: before ++ separated (',' :: between) pieces ++ behind ++ [closing]) ++ rest =
        opening :: (before ++
          (separated (',' :: between) pieces ++ (behind ++ (closing :: rest)))) := by
    simp
  rw [text, opens.lexed?, lexed?_spaces beforeSpaces, inner, lexed?_spaces behindSpaces,
    closes.lexed?]
  simp

/-- Pieces on lines of their own write their tokens between those of the brackets. -/
theorem writes_block
    {opening closing : Char}
    {openToken closeToken : JsonToken}
    (opens : Punctuates opening openToken)
    (closes : Punctuates closing closeToken)
    (depth : Nat)
    {pieces : List (List Char)}
    {tokens : List (List JsonToken)}
    (write : List.Forall₂ Writes pieces tokens) :
    Writes (block opening closing depth pieces)
      (openToken :: commaSeparated tokens ++ [closeToken]) := by
  cases write with
  | nil =>
      exact writes_bracketed opens closes (List.forall_mem_nil _) (@List.forall_mem_nil Char _)
        (List.forall_mem_nil _) .nil
  | cons first more =>
      exact writes_bracketed opens closes (isSpace_of_mem_lineBreak (depth + 1))
        (isSpace_of_mem_lineBreak (depth + 1)) (isSpace_of_mem_lineBreak depth) (.cons first more)

/-- Pieces between brackets without blanks write their tokens between those of the brackets. -/
theorem writes_brackets
    {opening closing : Char}
    {openToken closeToken : JsonToken}
    (opens : Punctuates opening openToken)
    (closes : Punctuates closing closeToken)
    {pieces : List (List Char)}
    {tokens : List (List JsonToken)}
    (write : List.Forall₂ Writes pieces tokens) :
    Writes (opening :: separated [','] pieces ++ [closing])
      (openToken :: commaSeparated tokens ++ [closeToken]) := by
  have bracketed :=
    writes_bracketed opens closes (List.forall_mem_nil _) (@List.forall_mem_nil Char _)
      (List.forall_mem_nil _) write
  rwa [List.append_nil] at bracketed

theorem writes_null : Writes ['n', 'u', 'l', 'l'] [.scalar .null] :=
  writes_bare (List.cons_ne_nil _ _) (List.all_eq_true.mp rfl) rfl

theorem writes_true : Writes ['t', 'r', 'u', 'e'] [.scalar (.bool true)] :=
  writes_bare (List.cons_ne_nil _ _) (List.all_eq_true.mp rfl) rfl

theorem writes_false : Writes ['f', 'a', 'l', 's', 'e'] [.scalar (.bool false)] :=
  writes_bare (List.cons_ne_nil _ _) (List.all_eq_true.mp rfl) rfl

/-- A key with a colon and blanks writes its tokens in front of those of the value. -/
theorem writes_field
    (key : String)
    {gap : List Char}
    (spaces : ∀ character ∈ gap, isSpace character = true)
    {characters : List Char}
    {tokens : List JsonToken}
    (write : Writes characters tokens) :
    Writes (JsonQuoted.encode key.toList ++ ':' :: (gap ++ characters))
      (.scalar (.string key) :: .colon :: tokens) := by
  intro reversed rest ends
  have text :
      (JsonQuoted.encode key.toList ++ ':' :: (gap ++ characters)) ++ rest =
        JsonQuoted.encode key.toList ++ (':' :: (gap ++ (characters ++ rest))) := by
    simp
  rw [text, lexed?_quoted, punctuates_colon.lexed?, lexed?_spaces spaces, write _ rest ends]
  simp

theorem isSpace_of_mem_blank : ∀ character ∈ [' '], isSpace character = true :=
  List.all_eq_true.mp rfl

theorem isBare_of_isDigit {digit : Char} (isDigit : digit.isDigit = true) :
    isBare digit = true := by
  simp [isBare, Char.isAlphanum, isDigit]

theorem isBare_of_mem_fractionText
    {fraction : List Char}
    (digits : ∀ digit ∈ fraction, digit.isDigit = true) :
    ∀ character ∈ JsonNumber.fractionText fraction, isBare character = true := by
  intro character member
  unfold JsonNumber.fractionText at member
  by_cases noFraction : fraction.isEmpty = true
  · rw [if_pos noFraction] at member
    cases member
  · rw [if_neg noFraction] at member
    rcases List.mem_cons.mp member with rfl | isDigit
    · rfl
    · exact isBare_of_isDigit (digits character isDigit)

theorem isBare_of_mem_exponentText
    {exponent? : Option JsonExponent}
    (digits : ∀ exponent ∈ exponent?, NumberLiteral.isDigits exponent.digits = true) :
    ∀ character ∈ JsonNumber.exponentText exponent?, isBare character = true := by
  intro character member
  cases exponent? with
  | none => cases member
  | some exponent =>
      have areDigits := (NumberLiteral.isDigits_iff.mp (digits exponent rfl)).2
      rcases List.mem_cons.mp member with rfl | member
      · rfl
      · rcases List.mem_cons.mp member with rfl | isDigit
        · cases exponent.negative <;> rfl
        · exact isBare_of_isDigit (areDigits character isDigit)

/-- A number has no character that would end a bare word early. -/
theorem isBare_of_mem_characters
    {number : JsonNumber}
    (wellFormed : number.IsWellFormed) :
    ∀ character ∈ number.characters, isBare character = true := by
  obtain ⟨whole, fraction, exponent⟩ := wellFormed
  unfold JsonNumber.isWholePart at whole
  rw [Bool.and_eq_true, NumberLiteral.isDigits_iff] at whole
  intro character member
  rw [JsonNumber.characters_eq, List.mem_append, List.mem_append, List.mem_append] at member
  rcases member with inSign | inWhole | inFraction | inExponent
  · by_cases negative : number.negative = true
    · rw [if_pos negative, List.mem_singleton] at inSign
      rw [inSign]
      rfl
    · rw [if_neg negative] at inSign
      cases inSign
  · exact isBare_of_isDigit (whole.1.2 character inWhole)
  · exact isBare_of_mem_fractionText fraction character inFraction
  · exact isBare_of_mem_exponentText exponent character inExponent

/-- The characters of a number are a single token. -/
theorem writes_number {number : JsonNumber} (wellFormed : number.IsWellFormed) :
    Writes number.characters [.scalar (.number number)] := by
  have read := JsonNumber.ofCharacters?_characters wellFormed
  have isValue : bareValue? number.characters = some (.number number) := by
    unfold bareValue?
    split
    · next word =>
        rw [word] at read
        cases read
    · next word =>
        rw [word] at read
        cases read
    · next word =>
        rw [word] at read
        cases read
    · rw [read, Option.map_some]
  have nonempty : number.characters ≠ [] := by
    intro isNil
    rw [isNil] at read
    cases read
  exact writes_bare nonempty (isBare_of_mem_characters wellFormed) isValue

mutual

/-- The indented form of a value writes its tokens. -/
theorem writes_indented (depth : Nat) :
    ∀ json : Json, json.IsWritable → Writes (json.indented depth) json.tokens
  | .null, _ => writes_null
  | .bool true, _ => writes_true
  | .bool false, _ => writes_false
  | .number _, wellFormed => writes_number wellFormed
  | .string text, _ => writes_quoted text
  | .array items, writable =>
      writes_block punctuates_openArray punctuates_closeArray depth
        (writes_indentedItems depth items writable)
  | .object fields, writable =>
      writes_block punctuates_openObject punctuates_closeObject depth
        (writes_indentedFields depth fields writable)
  | .illFormed, writable => writable.elim

/-- Item by item, the indented form writes the tokens. -/
theorem writes_indentedItems (depth : Nat) :
    ∀ items : List Json, Json.AreWritable items →
      List.Forall₂ Writes (Json.indentedItems depth items) (Json.itemTokens items)
  | [], _ => .nil
  | item :: rest, ⟨first, others⟩ =>
      .cons (writes_indented (depth + 1) item first) (writes_indentedItems depth rest others)

/-- Field by field, the indented form writes the tokens. -/
theorem writes_indentedFields (depth : Nat) :
    ∀ fields : List (String × Json), Json.HasWritableFields fields →
      List.Forall₂ Writes (Json.indentedFields depth fields) (Json.fieldTokens fields)
  | [], _ => .nil
  | (key, value) :: rest, ⟨first, others⟩ =>
      .cons (writes_field key isSpace_of_mem_blank (writes_indented (depth + 1) value first))
        (writes_indentedFields depth rest others)

end

mutual

/-- The compact form of a value writes its tokens. -/
theorem writes_compact : ∀ json : Json, json.IsWritable → Writes json.compact json.tokens
  | .null, _ => writes_null
  | .bool true, _ => writes_true
  | .bool false, _ => writes_false
  | .number _, wellFormed => writes_number wellFormed
  | .string text, _ => writes_quoted text
  | .array items, writable =>
      writes_brackets punctuates_openArray punctuates_closeArray
        (writes_compactItems items writable)
  | .object fields, writable =>
      writes_brackets punctuates_openObject punctuates_closeObject
        (writes_compactFields fields writable)
  | .illFormed, writable => writable.elim

theorem writes_compactItems :
    ∀ items : List Json, Json.AreWritable items →
      List.Forall₂ Writes (Json.compactItems items) (Json.itemTokens items)
  | [], _ => .nil
  | item :: rest, ⟨first, others⟩ =>
      .cons (writes_compact item first) (writes_compactItems rest others)

theorem writes_compactFields :
    ∀ fields : List (String × Json), Json.HasWritableFields fields →
      List.Forall₂ Writes (Json.compactFields fields) (Json.fieldTokens fields)
  | [], _ => .nil
  | (key, value) :: rest, ⟨first, others⟩ =>
      .cons (writes_field key (List.forall_mem_nil _) (writes_compact value first))
        (writes_compactFields rest others)

end

end JsonLexer

namespace JsonReader

open Json (commaSeparated)

/-- Tokens that are read as a value, whatever is open and whatever follows. -/
structure Reads (tokens : List JsonToken) (json : Json) : Prop where
  value :
    ∀ stack rest,
      (tokens ++ rest).foldlM step (.value stack) = rest.foldlM step (.complete json stack)
  /-- They neither are missing nor start with the end of an array. -/
  starts : ∃ first more, tokens = first :: more ∧ first ≠ .closeArray

theorem foldlM_cons_of_step
    {reader next : JsonReader}
    {token : JsonToken}
    (steps : step reader token = some next)
    (rest : List JsonToken) :
    (token :: rest).foldlM step reader = rest.foldlM step next := by
  rw [List.foldlM_cons, steps]
  rfl

/-- A scalar is taken as a value wherever a value is expected. -/
theorem reads_scalar (json : Json) : Reads [.scalar json] json where
  value stack rest := foldlM_cons_of_step rfl rest
  starts := ⟨.scalar json, [], rfl, by simp⟩

/-- The first item of an array is read as any value. -/
theorem Reads.first
    {tokens : List JsonToken}
    {json : Json}
    (reads : Reads tokens json)
    (stack : List JsonFrame)
    (rest : List JsonToken) :
    (tokens ++ rest).foldlM step (.itemOrEnd stack) =
      rest.foldlM step (.complete json (.items [] :: stack)) := by
  obtain ⟨token, more, rfl, notClose⟩ := reads.starts
  have sameStep :
      step (.itemOrEnd stack) token = step (.value (.items [] :: stack)) token := by
    cases token with
    | closeArray => exact absurd rfl notClose
    | _ => rfl
  rw [← reads.value (.items [] :: stack) rest, List.cons_append, List.foldlM_cons, sameStep,
    List.foldlM_cons]

/-- Items behind an open array are read up to its end. -/
theorem foldlM_items
    {tokens : List (List JsonToken)}
    {items : List Json}
    (read : List.Forall₂ Reads tokens items)
    (stack : List JsonFrame)
    (reversed : List Json)
    (last : Json)
    (rest : List JsonToken) :
    ((tokens.flatMap fun item => .comma :: item) ++ .closeArray :: rest).foldlM step
        (.complete last (.items reversed :: stack)) =
      rest.foldlM step
        (.complete (.array (reversed.reverse ++ last :: items)) stack) := by
  induction read generalizing reversed last with
  | nil =>
      rw [List.flatMap_nil, List.nil_append]
      have closes :
          step (.complete last (.items reversed :: stack)) .closeArray =
            some (.complete (.array (last :: reversed).reverse) stack) :=
        rfl
      rw [foldlM_cons_of_step closes, List.reverse_cons]
  | @cons itemTokens item laterTokens laterItems first later inductionHypothesis =>
      have continues :
          step (.complete last (.items reversed :: stack)) .comma =
            some (.value (.items (last :: reversed) :: stack)) :=
        rfl
      rw [List.flatMap_cons, List.append_assoc, List.cons_append, foldlM_cons_of_step continues,
        first.value, inductionHypothesis]
      simp

/-- A comma stands in front of each piece but the first. -/
theorem commaSeparated_cons (first : List JsonToken) (later : List (List JsonToken)) :
    commaSeparated (first :: later) = first ++ later.flatMap fun piece => .comma :: piece := by
  induction later generalizing first with
  | nil => simp [commaSeparated]
  | cons next others inductionHypothesis =>
      have shape :
          commaSeparated (first :: next :: others) =
            first ++ .comma :: commaSeparated (next :: others) := by
        simp [commaSeparated, List.intercalate]
      rw [shape, inductionHypothesis, List.flatMap_cons, List.cons_append]

/-- An array is read from its brackets and what its items are read from. -/
theorem reads_array
    {tokens : List (List JsonToken)}
    {items : List Json}
    (read : List.Forall₂ Reads tokens items) :
    Reads (.openArray :: commaSeparated tokens ++ [.closeArray]) (.array items) where
  value stack rest := by
    have opens : step (.value stack) .openArray = some (.itemOrEnd stack) := rfl
    rw [List.cons_append, List.cons_append, foldlM_cons_of_step opens]
    cases read with
    | nil => exact foldlM_cons_of_step rfl rest
    | cons first later =>
        rw [commaSeparated_cons, List.append_assoc, List.append_assoc, first.first,
          List.singleton_append, foldlM_items later]
        rfl
  starts := ⟨.openArray, _, rfl, by simp⟩

/-- A field as the reader keeps it. -/
def named (field : String × Json) : Option String × Json :=
  (some field.1, field.2)

/-- Fields of which each has its value make up the object. -/
theorem objectOf_named (fields : List (String × Json)) :
    objectOf (fields.map named) = .object fields := by
  have allNamed : ((fields.map named).all fun field => field.1.isSome) = true := by
    simp [named]
  rw [objectOf, if_pos allNamed]
  simp [List.filterMap_map, named, Function.comp_def]

/-- Tokens that are read as a key and its value. -/
def ReadsField (tokens : List JsonToken) (field : String × Json) : Prop :=
  ∃ valueTokens,
    tokens = .scalar (.string field.1) :: .colon :: valueTokens ∧ Reads valueTokens field.2

/-- A field is read wherever its key may stand. -/
theorem ReadsField.step
    {tokens : List JsonToken}
    {field : String × Json}
    (reads : ReadsField tokens field)
    {reader : JsonReader}
    {reversed : List (Option String × Json)}
    {stack : List JsonFrame}
    (takesKey :
      JsonReader.step reader (.scalar (.string field.1)) =
        some (.colon reversed (some field.1) stack))
    (rest : List JsonToken) :
    (tokens ++ rest).foldlM JsonReader.step reader =
      rest.foldlM JsonReader.step
        (.complete field.2 (.fields reversed (some field.1) :: stack)) := by
  obtain ⟨valueTokens, rfl, readsValue⟩ := reads
  have takesColon :
      JsonReader.step (.colon reversed (some field.1) stack) .colon =
        some (.value (.fields reversed (some field.1) :: stack)) :=
    rfl
  rw [List.cons_append, List.cons_append, foldlM_cons_of_step takesKey,
    foldlM_cons_of_step takesColon, readsValue.value]

/-- Fields behind an open object are read up to its end. -/
theorem foldlM_fields
    {tokens : List (List JsonToken)}
    {fields : List (String × Json)}
    (read : List.Forall₂ ReadsField tokens fields)
    (stack : List JsonFrame)
    (reversed : List (String × Json))
    (last : String × Json)
    (rest : List JsonToken) :
    ((tokens.flatMap fun field => .comma :: field) ++ .closeObject :: rest).foldlM step
        (.complete last.2 (.fields (reversed.map named) (some last.1) :: stack)) =
      rest.foldlM step
        (.complete (.object (reversed.reverse ++ last :: fields)) stack) := by
  -- The last field has its value already and waits for a comma or for the end of the object.
  induction read generalizing reversed last with
  | nil =>
      rw [List.flatMap_nil, List.nil_append]
      have closes :
          step (.complete last.2 (.fields (reversed.map named) (some last.1) :: stack))
              .closeObject =
            some (.complete (objectOf ((last :: reversed).map named).reverse) stack) :=
        rfl
      rw [foldlM_cons_of_step closes, ← List.map_reverse, objectOf_named, List.reverse_cons]
  | @cons fieldTokens field laterTokens laterFields first later inductionHypothesis =>
      have continues :
          step (.complete last.2 (.fields (reversed.map named) (some last.1) :: stack)) .comma =
            some (.key ((last :: reversed).map named) stack) :=
        rfl
      have takesKey :
          step (.key ((last :: reversed).map named) stack) (.scalar (.string field.1)) =
            some (.colon ((last :: reversed).map named) (some field.1) stack) :=
        rfl
      rw [List.flatMap_cons, List.append_assoc, List.cons_append, foldlM_cons_of_step continues,
        first.step takesKey, inductionHypothesis]
      simp

/-- An object is read from its braces and what its fields are read from. -/
theorem reads_object
    {tokens : List (List JsonToken)}
    {fields : List (String × Json)}
    (read : List.Forall₂ ReadsField tokens fields) :
    Reads (.openObject :: commaSeparated tokens ++ [.closeObject]) (.object fields) where
  value stack rest := by
    have opens : step (.value stack) .openObject = some (.keyOrEnd stack) := rfl
    rw [List.cons_append, List.cons_append, foldlM_cons_of_step opens]
    cases read with
    | nil => exact foldlM_cons_of_step rfl rest
    | @cons fieldTokens field laterTokens laterFields first later =>
        have takesKey :
            step (.keyOrEnd stack) (.scalar (.string field.1)) =
              some (.colon ([].map named) (some field.1) stack) :=
          rfl
        rw [commaSeparated_cons, List.append_assoc, List.append_assoc, first.step takesKey,
          List.singleton_append, foldlM_fields later]
        rfl
  starts := ⟨.openObject, _, rfl, by simp⟩

mutual

/-- The tokens of a value are read as that value. -/
theorem reads_tokens : ∀ json : Json, Reads json.tokens json
  | .null => reads_scalar .null
  | .bool truth => reads_scalar (.bool truth)
  | .number written => reads_scalar (.number written)
  | .string text => reads_scalar (.string text)
  | .illFormed => reads_scalar .illFormed
  | .array items => reads_array (reads_itemTokens items)
  | .object fields => reads_object (reads_fieldTokens fields)

theorem reads_itemTokens :
    ∀ items : List Json, List.Forall₂ Reads (Json.itemTokens items) items
  | [] => .nil
  | item :: rest => .cons (reads_tokens item) (reads_itemTokens rest)

theorem reads_fieldTokens :
    ∀ fields : List (String × Json), List.Forall₂ ReadsField (Json.fieldTokens fields) fields
  | [] => .nil
  | (_, json) :: rest =>
      .cons ⟨json.tokens, rfl, reads_tokens json⟩ (reads_fieldTokens rest)

end

end JsonReader

namespace Json

/-- The tokens of a value determine the value. -/
theorem ofTokens?_tokens (json : Json) : ofTokens? json.tokens = some json := by
  have read := (JsonReader.reads_tokens json).value [] []
  rw [List.append_nil] at read
  rw [ofTokens?, read]
  rfl

/-- A text that writes the tokens of a value is read as that value. -/
theorem ofText?_of_writes
    {json : Json}
    {characters : List Char}
    (writes : JsonLexer.Writes characters json.tokens) :
    ofText? (String.ofList characters) = some json := by
  have written := writes [] [] (Scanner.ends_nil _)
  rw [List.append_nil, List.append_nil] at written
  have ends : JsonLexer.lexed? ⟨json.tokens.reverse, .between⟩ [] = some json.tokens := by
    simp [JsonLexer.lexed?, JsonLexer.finished?]
  have lexes : JsonToken.ofCharacters? characters = some json.tokens := written.trans ends
  rw [ofText?, String.toList_ofList, lexes, Option.bind_some, ofTokens?_tokens]

/-- Every value with a written form is read back from its indented text. -/
theorem ofText?_indentedText {json : Json} (writable : json.IsWritable) :
    ofText? json.indentedText = some json :=
  ofText?_of_writes (JsonLexer.writes_indented 0 json writable)

/-- Every value with a written form is read back from its text without blanks. -/
theorem ofText?_compactText {json : Json} (writable : json.IsWritable) :
    ofText? json.compactText = some json :=
  ofText?_of_writes (JsonLexer.writes_compact json writable)

end Json

end LayerPlayback
