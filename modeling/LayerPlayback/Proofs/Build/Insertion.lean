import LayerPlayback.Proofs.Build.Renumbering
import LayerPlayback.Proofs.Text.Line

namespace LayerPlayback

/-!
# Lines that are not interpreted are inert

An arc, an unknown code, a move that names no axis, and a line without a command
neither move the machine nor draw.  A text with such a line between its lines builds
the same model, and all other lines are reported on as before.
-/

/-- Whether a command asks for nothing that is carried out. -/
def Command.isInert (command : Command) : Bool :=
  match command.operation with
  | .arc _ => true
  | .unknown _ => true
  | .linearMove _ => command.axes.isEmpty
  | _ => false

namespace Machine

variable (machine : Machine) (xyzReset : Bool) {command : Command}

theorem obey_of_isInert (inert : command.isInert = true) :
    machine.obey xyzReset command = machine := by
  unfold Command.isInert at inert
  unfold obey
  split at inert
  · simp only [*]
  · simp only [*]
  · next isMove =>
      rw [isMove, PartialPosition.eq_of_isEmpty inert]
      rfl
  · cases inert

theorem drawing?_of_isInert (inert : command.isInert = true) : machine.drawing? command = none := by
  unfold Command.isInert at inert
  unfold drawing?
  split at inert
  · simp only [*]
  · simp only [*]
  · next isMove => simp only [isMove, inert, Bool.true_or, if_true]
  · cases inert

/-- The one command that an inert line may hold is replayed as if it were not there. -/
theorem replay_of_isInert
    {command? : Option Command}
    (inert : ∀ command ∈ command?, command.isInert = true) :
    machine.follow xyzReset command?.toList = machine ∧
      machine.drawings xyzReset command?.toList = [] := by
  cases command? with
  | none => exact ⟨rfl, rfl⟩
  | some command =>
      have isInert := inert command rfl
      refine ⟨machine.obey_of_isInert xyzReset isInert, ?_⟩
      rw [Option.toList_some, drawings, machine.drawing?_of_isInert isInert]
      rfl

/-- Commands around an inert one are replayed as without it, whatever the lines' numbers are. -/
theorem replay_insert
    {command? : Option Command}
    (inert : ∀ command ∈ command?, command.isInert = true)
    (earlier later : List Command)
    (number other : Nat → Nat) :
    let inserted := earlier ++ (command?.toList ++ later.map (Command.renumbered number))
    let plain := earlier ++ later.map (Command.renumbered other)
    machine.follow xyzReset inserted = machine.follow xyzReset plain ∧
      machine.drawings xyzReset inserted = machine.drawings xyzReset plain := by
  obtain ⟨stays, drawsNothing⟩ :=
    replay_of_isInert (machine.follow xyzReset earlier) xyzReset inert
  constructor
  · rw [follow_append, follow_append, stays, follow_append, follow_renumbered, follow_renumbered]
  · rw [drawings_append, drawings_append, drawsNothing, stays, List.nil_append, drawings_append,
      drawings_renumbered, drawings_renumbered]

end Machine

/-- An inert line is inert wherever it stands, with or without a carriage return at its end. -/
theorem Decoder.isInert_of_decode
    {decoder : Decoder}
    {line : String}
    {lineNumber : Nat}
    (inert : ∀ command ∈ (decoder.decode line lineNumber).command?, command.isInert = true)
    (place : Nat) :
    ∀ command ∈
      (decoder.decode (String.ofList (Line.withoutReturn line.toList)) place).command?,
      command.isInert = true := by
  have renumbered := decoder.decode_renumbered line (fun _ => place) lineNumber
  rw [decode_withoutReturn, String.ofList_toList, renumbered]
  intro command isCommand
  obtain ⟨original, isOriginal, rfl⟩ := Option.map_eq_some_iff.mp isCommand
  exact inert original isOriginal

/-- The number of a line once a line is put at a place: from the place on it grows by one. -/
def numberBehind (place lineNumber : Nat) : Nat :=
  if lineNumber < place then lineNumber else lineNumber + 1

/-- How a build may differ from one of the same text without one of its lines. -/
structure InsertsOnly (plain inserted : BuildOutput) (place : Nat) : Prop where
  model : inserted.model = plain.model
  finalPosition : inserted.finalPosition = plain.finalPosition
  linearMoves : inserted.stats.linearMoves = plain.stats.linearMoves
  depositSegments : inserted.stats.depositSegments = plain.stats.depositSegments
  travelSegments : inserted.stats.travelSegments = plain.stats.travelSegments
  /-- The other lines are reported on as before, by their new numbers. -/
  diagnostics :
    (inserted.lineDiagnostics.filter fun diagnostic => diagnostic.lineNumber? ≠ some place) =
      plain.lineDiagnostics.map (Diagnostic.renumbered (numberBehind place))

/-- A line that is put behind complete lines takes the next number and shifts the others. -/
theorem Decoder.numberedLines_inserted
    {before line : String}
    (closed : Line.IsClosed before)
    (oneLine : '\n' ∉ line.toList)
    (after : String) :
    numberedLines (before ++ line ++ "\n" ++ after) =
      numberedLines before
        ++ (String.ofList (Line.withoutReturn line.toList), (Line.ofText before).length + 1)
          :: renumberedLines (· + ((Line.ofText before).length + 1)) (numberedLines after) := by
  have feed : (line ++ "\n").toList = line.toList ++ ['\n'] := String.toList_append
  have ended : Line.ofText (line ++ "\n") = [String.ofList (Line.withoutReturn line.toList)] := by
    rw [Line.ofText, feed, Line.ofCharacters_feed oneLine]
    rfl
  have lineClosed : Line.IsClosed (line ++ "\n") := by
    intro last isLast
    rw [feed, List.getLast?_concat] at isLast
    exact (Option.some.inj isLast).symm
  have pieces : before ++ line ++ "\n" ++ after = before ++ ((line ++ "\n") ++ after) := by
    simp only [String.append_assoc]
  unfold numberedLines
  rw [pieces, Line.ofText_append closed, Line.ofText_append lineClosed, ended, List.zipIdx_append,
    List.singleton_append, List.zipIdx_cons, ← zipIdx_add, Nat.add_assoc, Nat.add_comm 1]

theorem Decoder.commands_inserted
    (decoder : Decoder)
    {before line : String}
    (closed : Line.IsClosed before)
    (oneLine : '\n' ∉ line.toList)
    (after : String) :
    decoder.commands (before ++ line ++ "\n" ++ after) =
      decoder.commands before
        ++ ((decoder.decode (String.ofList (Line.withoutReturn line.toList))
              ((Line.ofText before).length + 1)).command?.toList
          ++ (decoder.commands after).map
            (Command.renumbered (· + ((Line.ofText before).length + 1)))) := by
  rw [commands_eq_lineCommands, numberedLines_inserted closed oneLine, lineCommands_append,
    lineCommands_cons, lineCommands_renumberedLines, ← commands_eq_lineCommands,
    ← commands_eq_lineCommands]

namespace Builder

theorem reports_cons
    (options : BuildOptions)
    (line : String)
    (lineNumber : Nat)
    (rest : List (String × Nat)) :
    reports options ((line, lineNumber) :: rest) =
      lineReports options ((Decoder.ofLetter options.familyPrefix).decode line lineNumber)
        ++ reports options rest :=
  rfl

/-- Only the numbers of the lines that were reported on count. -/
theorem map_renumbered_reports_congr
    (options : BuildOptions)
    {lines : List String}
    {first : Nat}
    {number other : Nat → Nat}
    (same :
      ∀ lineNumber, first ≤ lineNumber → lineNumber < first + lines.length →
        number lineNumber = other lineNumber) :
    (reports options (lines.zipIdx first)).map (Diagnostic.renumbered number) =
      (reports options (lines.zipIdx first)).map (Diagnostic.renumbered other) := by
  refine List.map_congr_left fun diagnostic reported => ?_
  obtain ⟨lineNumber, numbered, fromFirst, inLines⟩ := lineNumber?_of_mem_reports reported
  exact Diagnostic.renumbered_congr numbered (same lineNumber fromFirst inLines)

/-- No report is about a place that no line has. -/
theorem filter_renumbered_reports
    (options : BuildOptions)
    {lines : List String}
    {first place : Nat}
    {number : Nat → Nat}
    (elsewhere :
      ∀ lineNumber, first ≤ lineNumber → lineNumber < first + lines.length →
        number lineNumber ≠ place) :
    (((reports options (lines.zipIdx first)).map (Diagnostic.renumbered number)).filter
        fun diagnostic => diagnostic.lineNumber? ≠ some place) =
      (reports options (lines.zipIdx first)).map (Diagnostic.renumbered number) := by
  refine List.filter_eq_self.mpr fun diagnostic isReport => ?_
  obtain ⟨original, reported, rfl⟩ := List.mem_map.mp isReport
  obtain ⟨lineNumber, numbered, fromFirst, inLines⟩ := lineNumber?_of_mem_reports reported
  have notThere := elsewhere lineNumber fromFirst inLines
  simpa [numbered] using notThere

/--
Reports on lines before and behind a place, and on the line at the place: without the
latter they are the reports without that line, with the numbers behind it grown.
-/
theorem filter_reports_insert
    {options : BuildOptions}
    {earlier later : List String}
    {own : List Diagnostic}
    (ownNumber : ∀ diagnostic ∈ own, diagnostic.lineNumber? = some (earlier.length + 1)) :
    ((reports options (earlier.zipIdx 1)
          ++ (own ++ (reports options (later.zipIdx 1)).map
            (Diagnostic.renumbered (· + (earlier.length + 1))))).filter
        fun diagnostic => diagnostic.lineNumber? ≠ some (earlier.length + 1)) =
      (reports options (earlier.zipIdx 1)
          ++ (reports options (later.zipIdx 1)).map
            (Diagnostic.renumbered (· + earlier.length))).map
        (Diagnostic.renumbered (numberBehind (earlier.length + 1))) := by
  -- Own reports go, earlier ones keep their numbers, and later ones are one line further on.
  have earlierStay :
      reports options (earlier.zipIdx 1) =
        (reports options (earlier.zipIdx 1)).map
          (Diagnostic.renumbered (numberBehind (earlier.length + 1))) := by
    calc
      reports options (earlier.zipIdx 1) =
          (reports options (earlier.zipIdx 1)).map (Diagnostic.renumbered id) := by
        rw [Diagnostic.renumbered_id, List.map_id]
      _ = _ :=
        map_renumbered_reports_congr options fun _ _ isEarlier => (if_pos (by omega)).symm
  have laterGrow :
      ((reports options (later.zipIdx 1)).map (Diagnostic.renumbered (· + earlier.length))).map
          (Diagnostic.renumbered (numberBehind (earlier.length + 1))) =
        (reports options (later.zipIdx 1)).map
          (Diagnostic.renumbered (· + (earlier.length + 1))) := by
    rw [List.map_map, Diagnostic.renumbered_comp]
    refine map_renumbered_reports_congr options fun lineNumber fromOne _ => ?_
    exact if_neg (by omega : ¬ lineNumber + earlier.length < earlier.length + 1)
  have ownDropped :
      (own.filter fun diagnostic => diagnostic.lineNumber? ≠ some (earlier.length + 1)) = [] := by
    refine List.filter_eq_nil_iff.mpr fun diagnostic isOwn => ?_
    simp [ownNumber diagnostic isOwn]
  have earlierKept :
      ((reports options (earlier.zipIdx 1)).filter
        fun diagnostic => diagnostic.lineNumber? ≠ some (earlier.length + 1)) =
        reports options (earlier.zipIdx 1) := by
    rw [earlierStay]
    refine filter_renumbered_reports options fun lineNumber _ isEarlier => ?_
    have stays : numberBehind (earlier.length + 1) lineNumber = lineNumber := if_pos (by omega)
    omega
  rw [List.filter_append, List.filter_append, earlierKept, ownDropped, List.nil_append,
    filter_renumbered_reports options fun _ _ _ => by omega, List.map_append, laterGrow,
    ← earlierStay]

end Builder

/-- A line that decodes to nothing that is carried out inserts only its own reports. -/
theorem insertsOnly_inert
    (options : BuildOptions)
    {before line : String}
    (closed : Line.IsClosed before)
    (oneLine : '\n' ∉ line.toList)
    {lineNumber : Nat}
    (inert :
      ∀ command ∈ ((Decoder.ofLetter options.familyPrefix).decode line lineNumber).command?,
        command.isInert = true)
    (after : String) :
    InsertsOnly (build options (before ++ after))
      (build options (before ++ line ++ "\n" ++ after))
      ((Line.ofText before).length + 1) := by
  obtain ⟨sameMachine, sameDrawings⟩ :=
    Machine.replay_insert {} options.allowXyzReset
      (Decoder.isInert_of_decode inert ((Line.ofText before).length + 1))
      ((Decoder.ofLetter options.familyPrefix).commands before)
      ((Decoder.ofLetter options.familyPrefix).commands after)
      (· + ((Line.ofText before).length + 1)) (· + (Line.ofText before).length)
  rw [← Decoder.commands_inserted _ closed oneLine, ← Decoder.commands_append _ closed]
    at sameMachine sameDrawings
  have sameDrawn :
      drawnMotions options (before ++ line ++ "\n" ++ after) =
        drawnMotions options (before ++ after) :=
    sameDrawings
  obtain ⟨linearMoves, deposits, travels⟩ := segmentCounts_build options (before ++ after)
  obtain ⟨linearMoves', deposits', travels'⟩ :=
    segmentCounts_build options (before ++ line ++ "\n" ++ after)
  exact
    { model := by rw [model_build, model_build, sameDrawn]
      finalPosition := by rw [finalPosition_build, finalPosition_build, sameMachine]
      linearMoves := by rw [linearMoves, linearMoves', sameDrawn]
      depositSegments := by rw [deposits, deposits', sameDrawn]
      travelSegments := by rw [travels, travels', sameDrawn]
      diagnostics := by
        rw [lineDiagnostics_build, lineDiagnostics_build,
          Decoder.numberedLines_inserted closed oneLine, Decoder.numberedLines_append closed,
          Builder.reports_append, Builder.reports_append, Builder.reports_renumberedLines,
          Builder.reports_cons, Builder.reports_renumberedLines]
        exact Builder.filter_reports_insert fun _ reported =>
          Builder.lineNumber?_of_mem_lineReports reported }

/-- A move that names no axis, with a malformed word and a carriage return, between two moves. -/
theorem insertsOnly_corruptMove :
    InsertsOnly (build {} "G91\nG1 X1 E1\nG1 X2\nG1 Yx")
      (build {} "G91\nG1 X1 E1\nN7 G1 Fabc Q\r\nG1 X2\nG1 Yx") 3 := by
  have closed : Line.IsClosed "G91\nG1 X1 E1\n" := by decide +kernel
  have oneLine : '\n' ∉ "N7 G1 Fabc Q\r".toList := by decide +kernel
  have inert :
      ∀ command ∈ ((Decoder.ofLetter (BuildOptions.familyPrefix {})).decode
        "N7 G1 Fabc Q\r" 0).command?, command.isInert = true := by
    decide +kernel
  have place : (Line.ofText "G91\nG1 X1 E1\n").length + 1 = 3 := by decide +kernel
  have inserts := insertsOnly_inert {} closed oneLine inert "G1 X2\nG1 Yx"
  rw [place] at inserts
  exact inserts

end LayerPlayback
