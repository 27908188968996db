import LayerPlayback.Command.Decoder
import LayerPlayback.Proofs.Text.Blank

namespace LayerPlayback

/-!
# What decoding a line depends on

The number of a line labels its command and its diagnostics and decides nothing
else.  Neither does a carriage return at the end of a line: it is a blank, and stands
behind the last word, in the comment, or in the checksum.
-/

/-- The diagnostic with another number for its line. -/
def Diagnostic.renumbered (number : Nat → Nat) : Diagnostic → Diagnostic
  | .malformedArgument lineNumber word value =>
      .malformedArgument (number lineNumber) word value
  | .unsupportedOperation lineNumber code reason =>
      .unsupportedOperation (number lineNumber) code reason
  | .unknownOperation lineNumber code => .unknownOperation (number lineNumber) code
  | .emptyInput => .emptyInput

namespace Diagnostic

/-- Only a report that bears a line number gets another one. -/
@[simp] theorem lineNumber?_renumbered (number : Nat → Nat) (diagnostic : Diagnostic) :
    (diagnostic.renumbered number).lineNumber? = diagnostic.lineNumber?.map number := by
  cases diagnostic <;> rfl

theorem renumbered_comp (number next : Nat → Nat) :
    renumbered next ∘ renumbered number = renumbered (next ∘ number) :=
  funext fun diagnostic => by cases diagnostic <;> rfl

/-- Only the number of the diagnostic's own line counts. -/
theorem renumbered_congr
    {diagnostic : Diagnostic}
    {lineNumber : Nat}
    (numbered : diagnostic.lineNumber? = some lineNumber)
    {number other : Nat → Nat}
    (same : number lineNumber = other lineNumber) :
    diagnostic.renumbered number = diagnostic.renumbered other := by
  cases diagnostic <;> cases numbered <;> simp only [renumbered, same]

theorem renumbered_id : renumbered id = id :=
  funext fun diagnostic => by cases diagnostic <;> rfl

end Diagnostic

/-- The command with another number for its line. -/
def Command.renumbered (number : Nat → Nat) (command : Command) : Command :=
  { command with lineNumber := number command.lineNumber }

/-- The decoded line with another number. -/
def DecodedLine.renumbered (number : Nat → Nat) (line : DecodedLine) : DecodedLine :=
  { command? := line.command?.map (Command.renumbered number)
    diagnostics := line.diagnostics.map (Diagnostic.renumbered number) }

namespace Decoder

/-! ## The number of a line -/

/-- The report on a malformed word is renumbered with its line. -/
theorem argumentDiagnostic?_renumbered
    (number : Nat → Nat)
    (lineNumber : Nat)
    (argument : List Char) :
    argumentDiagnostic? (number lineNumber) argument =
      (argumentDiagnostic? lineNumber argument).map (Diagnostic.renumbered number) := by
  cases argument with
  | nil => rfl
  | cons letter characters =>
      unfold argumentDiagnostic?
      dsimp only
      cases value? characters <;> rfl

/-- A line with another number decodes to the same, labelled with that number. -/
theorem decode_renumbered
    (decoder : Decoder)
    (line : String)
    (number : Nat → Nat)
    (lineNumber : Nat) :
    decoder.decode line (number lineNumber) =
      (decoder.decode line lineNumber).renumbered number := by
  unfold decode
  cases codeAndArguments line.toList with
  | nil => rfl
  | cons code arguments =>
      simp only [decodeWords, DecodedLine.renumbered, Option.map_some, List.map_filterMap,
        ← argumentDiagnostic?_renumbered]
      rfl

theorem lineNumber?_of_argumentDiagnostic?
    {lineNumber : Nat}
    {argument : List Char}
    {diagnostic : Diagnostic}
    (reported : argumentDiagnostic? lineNumber argument = some diagnostic) :
    diagnostic.lineNumber? = some lineNumber := by
  unfold argumentDiagnostic? at reported
  split at reported
  · cases reported
  · split at reported
    · cases reported
    · cases reported
      rfl

/-! ## A carriage return at the end -/

/-- One more character at the end is taken along, or the end came before. -/
theorem takeWhile_concat
    {continues : Char → Bool}
    {last : Char}
    (lastContinues : continues last = true)
    (characters : List Char) :
    (characters ++ [last]).takeWhile continues = characters.takeWhile continues ∨
      (characters ++ [last]).takeWhile continues =
        characters.takeWhile continues ++ [last] := by
  rw [List.takeWhile_append]
  split
  · next all =>
      have whole : characters.takeWhile continues = characters :=
        (List.takeWhile_prefix continues).eq_of_length all
      rw [whole, List.takeWhile_cons_of_pos lastContinues]
      exact .inr rfl
  · exact .inl rfl

/-- One more character at the end is left over, or all of the text was taken. -/
theorem dropWhile_concat
    {continues : Char → Bool}
    {last : Char}
    (lastContinues : continues last = true)
    (characters : List Char) :
    (characters ++ [last]).dropWhile continues = characters.dropWhile continues ∨
      (characters ++ [last]).dropWhile continues =
        characters.dropWhile continues ++ [last] := by
  rw [List.dropWhile_append]
  split
  · next none =>
      rw [List.isEmpty_iff.mp none, List.dropWhile_cons_of_pos lastContinues]
      exact .inl rfl
  · exact .inr rfl

/-- A comment extends to the end of its own line. -/
theorem withoutComment_append_of_ends
    {before rest : List Char}
    (noComment : ';' ∉ before)
    (ends : Scanner.Ends (· ≠ ';') rest) :
    withoutComment (before ++ rest) = before ++ rest.dropWhile (· ≠ '\n') := by
  have plain := Scanner.forall_ne_of_notMem noComment
  rw [withoutComment, Scanner.takeWhile_append_of_ends plain ends,
    Scanner.dropWhile_append_of_ends plain ends]

theorem withoutComment_of_notMem {characters : List Char} (noComment : ';' ∉ characters) :
    withoutComment characters = characters := by
  have whole := withoutComment_append_of_ends noComment (Scanner.ends_nil _)
  simpa using whole

/-- A return at the end stays or goes with the comment in front of it. -/
theorem withoutComment_concat_return (characters : List Char) :
    withoutComment (characters ++ ['\r']) = withoutComment characters ∨
      withoutComment (characters ++ ['\r']) = withoutComment characters ++ ['\r'] := by
  by_cases hasComment : ';' ∈ characters
  · obtain ⟨before, after, rfl, noComment⟩ := List.eq_append_cons_of_mem hasComment
    rw [List.append_assoc, List.cons_append,
      withoutComment_append_of_ends noComment (Scanner.ends_cons rfl _),
      withoutComment_append_of_ends noComment (Scanner.ends_cons rfl _), List.append_assoc,
      List.append_cancel_left_eq, List.append_cancel_left_eq, ← List.cons_append]
    exact dropWhile_concat rfl (';' :: after)
  · have stillNone : ';' ∉ characters ++ ['\r'] := by simpa using hasComment
    rw [withoutComment_of_notMem stillNone, withoutComment_of_notMem hasComment]
    exact .inr rfl

/-- A return at the end of a line stays at the end of its body, or is cut off with a comment. -/
theorem body_concat_return (line : List Char) :
    body (line ++ ['\r']) = body line ∨ body (line ++ ['\r']) = body line ++ ['\r'] := by
  have upper :
      UpperCase.ofCharacters (line ++ ['\r']) = UpperCase.ofCharacters line ++ ['\r'] := by
    rw [UpperCase.ofCharacters, List.flatMap_append]
    rfl
  unfold body
  rw [upper]
  rcases withoutComment_concat_return (UpperCase.ofCharacters line) with same | longer
  · rw [same]
    exact .inl rfl
  · rw [longer]
    exact takeWhile_concat rfl _

/-- A carriage return at the end of a line changes nothing in what the line decodes to. -/
theorem decode_withoutReturn (decoder : Decoder) (line : List Char) (lineNumber : Nat) :
    decoder.decode (String.ofList (Line.withoutReturn line)) lineNumber =
      decoder.decode (String.ofList line) lineNumber := by
  unfold Line.withoutReturn
  split
  · next ends =>
      obtain ⟨characters, rfl⟩ := List.getLast?_eq_some_iff.mp ends
      have sameWords :
          codeAndArguments (characters ++ ['\r']) = codeAndArguments characters := by
        unfold codeAndArguments
        rcases body_concat_return characters with same | longer
        · rw [same]
        · rw [longer, Blank.words_append_blanks (List.forall_mem_singleton.mpr rfl)]
      rw [List.dropLast_concat, decode, decode, String.toList_ofList, String.toList_ofList,
        sameWords]
  · rfl

end Decoder

end LayerPlayback
