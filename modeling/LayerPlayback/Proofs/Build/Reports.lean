import LayerPlayback.Proofs.Build.Replay
import LayerPlayback.Proofs.Command.Renumbering

namespace LayerPlayback

/-!
# What a build reports and counts

Each line is reported on by itself, without regard to the machine or to other lines,
and every report bears the number of its line.  The counts are those of the lines,
of their commands, and of the motions that a replay of the commands draws.  So the
reports and counts of some lines are those of a first part with those of the rest.
-/

/-- Whether a command is passed over. -/
def Command.isSkipped (command : Command) : Bool :=
  match command.operation with
  | .arc _ => true
  | .unknown _ => true
  | _ => false

namespace BuildStats

/-- Counts added up. -/
def plus (first second : BuildStats) : BuildStats where
  lines := first.lines + second.lines
  commands := first.commands + second.commands
  linearMoves := first.linearMoves + second.linearMoves
  depositSegments := first.depositSegments + second.depositSegments
  travelSegments := first.travelSegments + second.travelSegments
  skipped := first.skipped + second.skipped

/-- The counts of some lines with the commands that they hold and the motions that they draw. -/
def ofRun (lines : Nat) (commands : List Command) (motions : List Motion) : BuildStats where
  lines := lines
  commands := commands.length
  linearMoves := motions.length
  depositSegments := motions.countP Motion.deposits
  travelSegments := motions.countP fun motion => !motion.deposits
  skipped := commands.countP Command.isSkipped

theorem plus_assoc (first second third : BuildStats) :
    (first.plus second).plus third = first.plus (second.plus third) := by
  simp only [plus, Nat.add_assoc]

/-- Counts are additive: a run in two parts is counted as the first part and then the second. -/
theorem ofRun_append
    (lines moreLines : Nat)
    (commands moreCommands : List Command)
    (motions moreMotions : List Motion) :
    ofRun (lines + moreLines) (commands ++ moreCommands) (motions ++ moreMotions) =
      (ofRun lines commands motions).plus (ofRun moreLines moreCommands moreMotions) := by
  simp only [ofRun, plus, List.length_append, List.countP_append]

theorem nothing_plus (stats : BuildStats) : plus {} stats = stats := by
  simp [plus]

/-- A drawn motion is counted by what it deposits. -/
theorem countSegment_eq_plus (stats : BuildStats) (motion : Motion) :
    stats.countSegment motion.segment.kind = stats.plus (ofRun 0 [] [motion]) := by
  have kind : motion.segment.kind = .ofDeposits motion.deposits := rfl
  rw [kind]
  cases deposits : motion.deposits with
  | true => simp [countSegment, MoveKind.ofDeposits, plus, ofRun, deposits]
  | false => simp [countSegment, MoveKind.ofDeposits, plus, ofRun, deposits]

/-- One more command is counted, as skipped if it is passed over, and with what it draws. -/
theorem plus_ofRun_singleton (stats : BuildStats) (command : Command) (motions : List Motion) :
    stats.plus (ofRun 0 [command] motions) =
      (if command.isSkipped then stats.countCommand.countSkipped else stats.countCommand).plus
        (ofRun 0 [] motions) := by
  cases skipped : command.isSkipped with
  | true => simp [plus, ofRun, countCommand, countSkipped, skipped]
  | false => simp [plus, ofRun, countCommand, skipped]

end BuildStats

namespace Builder

variable (builder : Builder)

/-! ## A build that has not started -/

theorem options_new (options : BuildOptions) : (new options).options = options :=
  rfl

theorem machine_new (options : BuildOptions) : (new options).machine = {} :=
  rfl

theorem stats_new (options : BuildOptions) : (new options).stats = {} :=
  rfl

theorem diagnostics_new (options : BuildOptions) : (new options).diagnostics.toList = [] :=
  rfl

theorem decoder_new (options : BuildOptions) :
    (new options).decoder = .ofLetter options.familyPrefix :=
  rfl

/-! ## One command -/

/-- Drawing counts one motion, whether it continues the open layer or opens another. -/
theorem stats_draw (motion : Motion) :
    (builder.draw motion).stats = builder.stats.plus (.ofRun 0 [] [motion]) := by
  rw [← BuildStats.countSegment_eq_plus]
  unfold draw addSegment openAt
  split <;> rfl

@[simp] theorem diagnostics_draw (motion : Motion) :
    (builder.draw motion).diagnostics = builder.diagnostics := by
  unfold draw addSegment openAt
  split <;> rfl

/-- Only the decoder and the check before a command report, never what performs it. -/
@[simp] theorem diagnostics_perform (command : Command) :
    (builder.perform command).diagnostics = builder.diagnostics := by
  unfold perform
  split
  · unfold linearMove
    dsimp only
    split
    · rfl
    · rw [diagnostics_draw]
  all_goals rfl

/-- A command is counted as skipped or with what it draws. -/
theorem stats_perform (command : Command) :
    (builder.perform command).stats =
      (if command.isSkipped then builder.stats.countSkipped else builder.stats).plus
        (.ofRun 0 [] (builder.machine.drawing? command).toList) := by
  unfold perform Machine.drawing? Command.isSkipped
  cases command.operation with
  | linearMove rapid =>
      simp only [linearMove]
      split
      · rfl
      · exact stats_draw _ _
  | _ => rfl

/-- A command is counted once, with the motion that it draws in the current state of the machine. -/
theorem stats_apply (command : Command) :
    (builder.apply command).stats =
      builder.stats.plus (.ofRun 0 [command] (builder.machine.drawing? command).toList) := by
  have performed (reported : Builder)
      (sameMachine : reported.machine = builder.machine)
      (counted : reported.stats = builder.stats.countCommand) :
      (reported.perform command).stats =
        builder.stats.plus (.ofRun 0 [command] (builder.machine.drawing? command).toList) := by
    rw [stats_perform, sameMachine, counted, BuildStats.plus_ofRun_singleton]
  unfold apply
  dsimp only
  cases commandDiagnostic? builder.options command with
  | none => exact performed _ rfl rfl
  | some diagnostic => exact performed _ rfl rfl

/-- A command is reported on by itself, without regard to the state of the machine. -/
theorem diagnostics_apply (command : Command) :
    (builder.apply command).diagnostics.toList =
      builder.diagnostics.toList ++ (commandDiagnostic? builder.options command).toList := by
  unfold apply
  dsimp only
  rw [diagnostics_perform]
  cases commandDiagnostic? builder.options command with
  | none => simp
  | some diagnostic => exact Array.toList_push

/-! ## Lines -/

/-- What one decoded line is reported for: its malformed words, then its command. -/
def lineReports (options : BuildOptions) (line : DecodedLine) : List Diagnostic :=
  line.diagnostics ++ (line.command?.bind (commandDiagnostic? options)).toList

/-- What numbered lines are reported for. -/
def reports (options : BuildOptions) (lines : List (String × Nat)) : List Diagnostic :=
  lines.flatMap fun (line, lineNumber) =>
    lineReports options ((Decoder.ofLetter options.familyPrefix).decode line lineNumber)

/-- What a command is reported for bears the number of its line. -/
theorem lineNumber?_of_commandDiagnostic?
    {options : BuildOptions}
    {command : Command}
    {diagnostic : Diagnostic}
    (reported : commandDiagnostic? options command = some diagnostic) :
    diagnostic.lineNumber? = some command.lineNumber := by
  unfold commandDiagnostic? at reported
  split at reported
  · cases reported
    rfl
  · cases reported
    rfl
  · split at reported
    · cases reported
      rfl
    · cases reported
  · cases reported

/-- What a line is reported for bears the number of the line. -/
theorem lineNumber?_of_mem_lineReports
    {options : BuildOptions}
    {decoder : Decoder}
    {line : String}
    {lineNumber : Nat}
    {diagnostic : Diagnostic}
    (reported : diagnostic ∈ lineReports options (decoder.decode line lineNumber)) :
    diagnostic.lineNumber? = some lineNumber := by
  unfold lineReports Decoder.decode at reported
  cases words : Decoder.codeAndArguments line.toList with
  | nil => simp [words, Decoder.decodeWords] at reported
  | cons code arguments =>
      rw [words] at reported
      rcases List.mem_append.mp reported with isMalformed | isCommand
      · obtain ⟨argument, _, isReported⟩ := List.mem_filterMap.mp isMalformed
        exact Decoder.lineNumber?_of_argumentDiagnostic? isReported
      · exact lineNumber?_of_commandDiagnostic? (Option.mem_toList.mp isCommand)

/-- The reports of lines that are numbered in order bear numbers of their range. -/
theorem lineNumber?_of_mem_reports
    {options : BuildOptions}
    {lines : List String}
    {first : Nat}
    {diagnostic : Diagnostic}
    (reported : diagnostic ∈ reports options (lines.zipIdx first)) :
    ∃ lineNumber,
      diagnostic.lineNumber? = some lineNumber ∧
        first ≤ lineNumber ∧ lineNumber < first + lines.length := by
  obtain ⟨⟨line, lineNumber⟩, numbered, isReport⟩ := List.mem_flatMap.mp reported
  have range := List.mem_zipIdx numbered
  exact ⟨lineNumber, lineNumber?_of_mem_lineReports isReport, range.1, range.2.1⟩

/-- Lines are reported on one after the other, so reports are concatenated as lines are. -/
theorem reports_append (options : BuildOptions) (earlier later : List (String × Nat)) :
    reports options (earlier ++ later) = reports options earlier ++ reports options later :=
  List.flatMap_append

/-- A line counts as one, with its command if it has one and with what that draws. -/
theorem stats_addLine (line : DecodedLine) :
    (builder.addLine line).stats =
      builder.stats.plus
        (.ofRun 1 line.command?.toList
          (builder.machine.drawings builder.options.allowXyzReset line.command?.toList)) := by
  unfold addLine
  rw [foldl_report]
  cases line.command? with
  | none => rfl
  | some command =>
      dsimp only
      rw [stats_apply, Option.toList_some, Machine.drawings, Machine.drawings, List.append_nil]
      rfl

/-- What is reported for a line is added after all that was reported before it. -/
theorem diagnostics_addLine (line : DecodedLine) :
    (builder.addLine line).diagnostics.toList =
      builder.diagnostics.toList ++ lineReports builder.options line := by
  unfold addLine lineReports
  rw [foldl_report]
  cases line.command? with
  | none => simp
  | some command =>
      dsimp only
      rw [diagnostics_apply]
      simp

/-- Lines are counted with their commands and with what a replay of these draws. -/
theorem stats_feedLines (lines : List (String × Nat)) :
    (builder.feedLines lines).stats =
      builder.stats.plus
        (.ofRun lines.length (builder.decoder.lineCommands lines)
          (builder.machine.drawings builder.options.allowXyzReset
            (builder.decoder.lineCommands lines))) := by
  induction lines generalizing builder with
  | nil => rfl
  | cons numbered rest inductionHypothesis =>
      obtain ⟨line, lineNumber⟩ := numbered
      have fed := inductionHypothesis (builder.feedLine line lineNumber)
      simp only [feedLine, decoder, options_addLine, machine_addLine, stats_addLine] at fed
      rw [Decoder.lineCommands_cons, Machine.drawings_append, List.length_cons, Nat.add_comm,
        BuildStats.ofRun_append, ← BuildStats.plus_assoc]
      exact fed

/-- Lines are reported on one by one. -/
theorem diagnostics_feedLines (lines : List (String × Nat)) :
    (builder.feedLines lines).diagnostics.toList =
      builder.diagnostics.toList ++ reports builder.options lines := by
  induction lines generalizing builder with
  | nil => exact (List.append_nil _).symm
  | cons numbered rest inductionHypothesis =>
      obtain ⟨line, lineNumber⟩ := numbered
      have fed := inductionHypothesis (builder.feedLine line lineNumber)
      simp only [feedLine, options_addLine, diagnostics_addLine] at fed
      rw [List.append_assoc] at fed
      exact fed

@[simp] theorem options_feedLines (lines : List (String × Nat)) :
    (builder.feedLines lines).options = builder.options := by
  induction lines generalizing builder with
  | nil => rfl
  | cons numbered rest inductionHypothesis =>
      exact (inductionHypothesis (builder.feedLine numbered.1 numbered.2)).trans
        (builder.options_addLine _)

/-- The width of paths comes from the options alone. -/
theorem pathWidth_finish : builder.finish.model.pathWidth = builder.options.pathWidth := by
  unfold finish
  split <;> rfl

/-- A finished model has the layers of the build, at the width of its options. -/
theorem model_finish :
    builder.finish.model = ⟨(builder.layersWith []).toArray, builder.options.pathWidth⟩ := by
  rw [← (finish_eq builder).2, Array.toArray_toList, ← builder.pathWidth_finish]

/-- Finishing closes the open layer, which is not counted anew. -/
theorem stats_finish : builder.finish.stats = builder.stats := by
  unfold finish
  split <;> rfl

/-- Finishing only adds that there was no command at all. -/
theorem diagnostics_finish :
    builder.finish.diagnostics =
      builder.diagnostics.toList ++ if builder.stats.commands = 0 then [.emptyInput] else [] := by
  unfold finish
  split
  · exact Array.toList_push
  · exact (List.append_nil _).symm

end Builder

open Builder (lineReports reports)

/-! ## Whole texts -/

/-- The counts of a text are read off its lines, its commands and a replay of the commands. -/
theorem stats_build (options : BuildOptions) (text : String) :
    (build options text).stats =
      .ofRun (Decoder.numberedLines text).length
        ((Decoder.ofLetter options.familyPrefix).commands text) (drawnMotions options text) := by
  rw [build, Builder.stats_finish, Builder.stats_feedLines, Builder.stats_new,
    Builder.decoder_new, Builder.machine_new, Builder.options_new, BuildStats.nothing_plus,
    drawnMotions, Decoder.commands_eq_lineCommands]

/-- The segments of a build are counted by what is drawn. -/
theorem segmentCounts_build (options : BuildOptions) (text : String) :
    (build options text).stats.linearMoves = (drawnMotions options text).length ∧
      (build options text).stats.depositSegments =
        (drawnMotions options text).countP Motion.deposits ∧
      (build options text).stats.travelSegments =
        (drawnMotions options text).countP fun motion => !motion.deposits := by
  simp only [stats_build, BuildStats.ofRun, and_self]

/-- The reports of a build are those of its lines; one without commands ends with one more. -/
theorem diagnostics_build (options : BuildOptions) (text : String) :
    (build options text).diagnostics =
      reports options (Decoder.numberedLines text)
        ++ if (build options text).stats.commands = 0 then [.emptyInput] else [] := by
  rw [build, Builder.stats_finish, Builder.diagnostics_finish, Builder.diagnostics_feedLines,
    Builder.options_new, Builder.diagnostics_new, List.nil_append]

/-- The diagnostics about lines; that there is no command is about the text as a whole. -/
def BuildOutput.lineDiagnostics (output : BuildOutput) : List Diagnostic :=
  output.diagnostics.filter fun diagnostic => diagnostic ≠ .emptyInput

/-- Without the report on the text as a whole, those on its lines are left in their order. -/
theorem lineDiagnostics_build (options : BuildOptions) (text : String) :
    (build options text).lineDiagnostics = reports options (Decoder.numberedLines text) := by
  have onLines :
      ∀ diagnostic ∈ reports options (Decoder.numberedLines text),
        decide (diagnostic ≠ .emptyInput) = true := by
    intro diagnostic reported
    obtain ⟨lineNumber, numbered, _⟩ := Builder.lineNumber?_of_mem_reports reported
    refine decide_eq_true ?_
    rintro rfl
    cases numbered
  rw [BuildOutput.lineDiagnostics, diagnostics_build, List.filter_append,
    List.filter_eq_self.mpr onLines]
  split
  · exact List.append_nil _
  · exact List.append_nil _

/-- The model of a build holds what is drawn, at the width of the options. -/
theorem model_build (options : BuildOptions) (text : String) :
    (build options text).model =
      ⟨(Layer.filledBy { z := 0.0 } (drawnMotions options text)).toArray, options.pathWidth⟩ := by
  have width : (build options text).model.pathWidth = options.pathWidth := by
    rw [build, Builder.pathWidth_finish, Builder.options_feedLines]
    rfl
  rw [← layers_build, Array.toArray_toList, ← width]

end LayerPlayback
