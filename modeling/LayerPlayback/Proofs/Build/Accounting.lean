import LayerPlayback.Proofs.Build.Reports
import LayerPlayback.Proofs.Command.Arguments
import LayerPlayback.Proofs.Model.Covering

namespace LayerPlayback

/-!
# A build accounts for its lines

Every counter and every diagnostic of a build is explained by the lines that it was
fed.  Lines and commands are counted one by one; a command is drawn, skipped, or
neither, but never both; and a line is reported for its malformed words in their
order, then at most once for its command.  What is reported is said here by rules
of its own, without the functions that decode and apply.
-/

namespace Decoder

/-- Whether a line holds a command. -/
def holdsCommand (decoder : Decoder) (numbered : String × Nat) : Bool :=
  (decoder.decode numbered.1 numbered.2).command?.isSome

/-- Whether a line holds a command that is passed over: an arc or an unknown code. -/
def holdsSkipped (decoder : Decoder) (numbered : String × Nat) : Bool :=
  (decoder.decode numbered.1 numbered.2).command?.any Command.isSkipped

/-- There are as many commands as lines that hold one. -/
theorem length_lineCommands (decoder : Decoder) (lines : List (String × Nat)) :
    (decoder.lineCommands lines).length = lines.countP decoder.holdsCommand :=
  List.length_filterMap_eq_countP

theorem countP_isSkipped_lineCommands (decoder : Decoder) (lines : List (String × Nat)) :
    (decoder.lineCommands lines).countP Command.isSkipped =
      lines.countP decoder.holdsSkipped := by
  rw [lineCommands, List.countP_filterMap]
  refine List.countP_congr fun numbered _ => ?_
  obtain ⟨line, lineNumber⟩ := numbered
  simp only [holdsSkipped]
  cases (decoder.decode line lineNumber).command? <;> rfl

end Decoder

/-- What a command is reported for, apart from its words. -/
inductive Command.Reported (options : BuildOptions) (command : Command) : Diagnostic → Prop where
  | arc
      {clockwise : Bool}
      (isArc : command.operation = .arc clockwise) :
      Reported options command
        (.unsupportedOperation command.lineNumber command.code "arc moves are not interpreted")
  /-- A set-position command that names X, Y or Z although only E may be set. -/
  | reset
      {axis : Axis}
      (isReset : command.operation = .setPosition)
      (extruderOnly : options.allowXyzReset = false)
      (spatial : axis.isSpatial = true)
      (named : (command.word? axis.letter).isSome = true) :
      Reported options command
        (.unsupportedOperation command.lineNumber command.code "only the E axis can be reset")
  | unknown
      (ofFamily : command.operation = .unknown true) :
      Reported options command (.unknownOperation command.lineNumber command.code)

namespace Builder

/-- A reset is refused when the options say so and some spatial axis has a word. -/
theorem refusesReset_iff {options : BuildOptions} {command : Command} :
    refusesReset options command.axes = true ↔
      options.allowXyzReset = false ∧
        ∃ axis : Axis, axis.isSpatial = true ∧ (command.word? axis.letter).isSome = true := by
  unfold refusesReset PartialPosition.namesSpatial
  rw [Bool.and_eq_true, Bool.not_eq_true', List.any_eq_true]
  simp only [Axis.mem_all, true_and, Bool.and_eq_true, Command.axes,
    PartialPosition.get?_ofFunction]

/-- The rules say what is reported about a command. -/
theorem commandDiagnostic?_eq_some_iff
    {options : BuildOptions}
    {command : Command}
    {diagnostic : Diagnostic} :
    commandDiagnostic? options command = some diagnostic ↔
      command.Reported options diagnostic := by
  constructor
  · intro reported
    unfold commandDiagnostic? at reported
    split at reported
    · next isArc =>
        cases reported
        exact .arc isArc
    · next ofFamily =>
        cases reported
        exact .unknown ofFamily
    · next isReset =>
        split at reported
        · next refused =>
            obtain ⟨extruderOnly, axis, spatial, named⟩ := refusesReset_iff.mp refused
            cases reported
            exact .reset isReset extruderOnly spatial named
        · cases reported
    · cases reported
  · intro reported
    unfold commandDiagnostic?
    cases reported with
    | arc isArc => simp only [isArc]; rfl
    | reset isReset extruderOnly spatial named =>
        have refused := refusesReset_iff.mpr ⟨extruderOnly, _, spatial, named⟩
        simp only [isReset, refused]
        rfl
    | unknown ofFamily => simp only [ofFamily]

/-- What a line is reported for: its malformed words in their order, then its command. -/
def ReportedFor
    (options : BuildOptions)
    (numbered : String × Nat)
    (reports : List Diagnostic) : Prop :=
  ∃ (malformed : List Diagnostic) (own? : Option Diagnostic),
    reports = malformed ++ own?.toList ∧
      Decoder.MalformedIn numbered.2 (Decoder.lineArguments numbered.1) malformed ∧
      ∀ diagnostic,
        own? = some diagnostic ↔
          ∃ command ∈
              ((Decoder.ofLetter options.familyPrefix).decode numbered.1 numbered.2).command?,
            command.Reported options diagnostic

/-- What is reported for a line is what should be reported for it, and no more. -/
theorem reportedFor_lineReports (options : BuildOptions) (line : String) (lineNumber : Nat) :
    ReportedFor options (line, lineNumber)
      (lineReports options
        ((Decoder.ofLetter options.familyPrefix).decode line lineNumber)) := by
  refine ⟨_, _, rfl, Decoder.malformedIn_decode _ line lineNumber, fun diagnostic => ?_⟩
  rw [Option.bind_eq_some_iff]
  exact exists_congr fun command => and_congr_right fun _ => commandDiagnostic?_eq_some_iff

/-- The reports split up into what each line contributes, in the order of the lines. -/
theorem exists_reportedFor (options : BuildOptions) (lines : List (String × Nat)) :
    ∃ contributions,
      List.Forall₂ (ReportedFor options) lines contributions ∧
        reports options lines = contributions.flatten := by
  refine ⟨_, ?_, List.flatMap_def⟩
  rw [List.forall₂_map_right_iff, List.forall₂_same]
  intro numbered _
  exact reportedFor_lineReports options numbered.1 numbered.2

/-- The reports of lines that are numbered in order are in the order of their numbers. -/
theorem pairwise_lineNumbers_reports
    (options : BuildOptions)
    (lines : List String)
    (first : Nat) :
    ((reports options (lines.zipIdx first)).filterMap Diagnostic.lineNumber?).Pairwise
      (· ≤ ·) := by
  induction lines generalizing first with
  | nil => exact .nil
  | cons line rest inductionHypothesis =>
      have ofLine :
          ∀ number ∈
              (lineReports options
                ((Decoder.ofLetter options.familyPrefix).decode line first)).filterMap
                Diagnostic.lineNumber?,
            number = first := by
        intro number member
        obtain ⟨diagnostic, reported, numbered⟩ := List.mem_filterMap.mp member
        rw [lineNumber?_of_mem_lineReports reported] at numbered
        exact (Option.some.inj numbered).symm
      -- All reports of a line bear one number, and those of later lines a greater one.
      rw [List.zipIdx_cons, reports, List.flatMap_cons, List.filterMap_append,
        List.pairwise_append]
      refine ⟨?_, inductionHypothesis (first + 1), ?_⟩
      · refine List.pairwise_of_forall_mem_list fun earlier isEarlier later isLater => ?_
        exact ((ofLine earlier isEarlier).trans (ofLine later isLater).symm).le
      · intro earlier isEarlier later isLater
        obtain ⟨diagnostic, reported, numbered⟩ := List.mem_filterMap.mp isLater
        obtain ⟨lineNumber, isNumber, after, _⟩ := lineNumber?_of_mem_reports reported
        rw [numbered] at isNumber
        cases isNumber
        have same := ofLine earlier isEarlier
        omega

end Builder

/-! ## Drawn, skipped, or neither -/

namespace Machine

variable (machine : Machine)

/-- A command that draws is not passed over. -/
theorem length_drawing?_add_isSkipped_le (command : Command) :
    (machine.drawing? command).toList.length + (if command.isSkipped then 1 else 0) ≤ 1 := by
  unfold drawing? Command.isSkipped
  split
  · next operation =>
      rw [operation]
      split <;> simp
  · split <;> simp

/-- A replay draws at most one motion for each command that is not passed over. -/
theorem length_drawings_add_countP_le (xyzReset : Bool) (commands : List Command) :
    (machine.drawings xyzReset commands).length + commands.countP Command.isSkipped ≤
      commands.length := by
  induction commands generalizing machine with
  | nil => exact le_rfl
  | cons command rest inductionHypothesis =>
      have first := machine.length_drawing?_add_isSkipped_le command
      have others := inductionHypothesis (machine.obey xyzReset command)
      rw [drawings, List.length_append, List.countP_cons, List.length_cons]
      omega

end Machine

/-- The counters and the diagnostics of a build, explained by its lines. -/
structure Accounts
    (options : BuildOptions)
    (height : Float)
    (lines : List (String × Nat))
    (output : BuildOutput) : Prop where
  lineCount : output.stats.lines = lines.length
  commands :
    output.stats.commands =
      lines.countP (Decoder.ofLetter options.familyPrefix).holdsCommand
  /-- A segment is counted for each one of the model, by its kind. -/
  segments :
    output.stats.linearMoves = output.model.segmentCount ∧
      output.stats.depositSegments = output.model.segments.countP Segment.deposits ∧
      output.stats.depositSegments + output.stats.travelSegments = output.stats.linearMoves
  skipped :
    output.stats.skipped =
      lines.countP (Decoder.ofLetter options.familyPrefix).holdsSkipped
  /-- No command is both drawn and skipped. -/
  bounded :
    output.stats.linearMoves + output.stats.skipped ≤ output.stats.commands ∧
      output.stats.commands ≤ output.stats.lines
  /-- Each line is reported for by itself, in the order of the lines. -/
  diagnostics :
    ∃ contributions,
      List.Forall₂ (Builder.ReportedFor options) lines contributions ∧
        output.diagnostics =
          contributions.flatten
            ++ if output.stats.commands = 0 then [.emptyInput] else []
  /-- Lines that are numbered from one are reported for in the order of their numbers. -/
  numbered :
    ∀ texts : List String,
      lines = texts.zipIdx 1 →
        (output.diagnostics.filterMap Diagnostic.lineNumber?).Pairwise (· ≤ ·) ∧
          ∀ number ∈ output.diagnostics.filterMap Diagnostic.lineNumber?,
            1 ≤ number ∧ number ≤ output.stats.lines
  emptyInput : .emptyInput ∈ output.diagnostics ↔ output.stats.commands = 0
  /-- Without commands nothing else is reported, and there is one empty layer. -/
  empty :
    output.stats.commands = 0 →
      output.diagnostics = [.emptyInput] ∧
        output.model = .startingAt height options.pathWidth

/-- Each motion either deposits or travels. -/
theorem Motion.countP_deposits_add (motions : List Motion) :
    motions.countP Motion.deposits + motions.countP (fun motion => !motion.deposits) =
      motions.length := by
  have split := List.length_eq_countP_add_countP Motion.deposits (l := motions)
  simp only [Bool.not_eq_true, Bool.decide_eq_false] at split
  exact split.symm

/-- A line without a command is decoded to nothing at all, not even a report. -/
theorem Decoder.command?_eq_none_iff {decoder : Decoder} {line : String} {lineNumber : Nat} :
    (decoder.decode line lineNumber).command? = none ↔ decoder.decode line lineNumber = {} := by
  unfold decode
  cases codeAndArguments line.toList with
  | nil => exact ⟨fun _ => rfl, fun _ => rfl⟩
  | cons code arguments => simp [decodeWords]

namespace Builder

/-- Only lines are reported for, each by its number. -/
theorem emptyInput_notMem_reports (options : BuildOptions) (lines : List (String × Nat)) :
    .emptyInput ∉ reports options lines := by
  intro member
  obtain ⟨numbered, _, reported⟩ := List.mem_flatMap.mp member
  cases lineNumber?_of_mem_lineReports reported

/-- Lines without a command are not reported for. -/
theorem reports_eq_nil
    {options : BuildOptions}
    {lines : List (String × Nat)}
    (noCommand : (Decoder.ofLetter options.familyPrefix).lineCommands lines = []) :
    reports options lines = [] := by
  refine List.flatMap_eq_nil_iff.mpr fun numbered member => ?_
  obtain ⟨line, lineNumber⟩ := numbered
  have none := List.filterMap_eq_nil_iff.mp noCommand (line, lineNumber) member
  have blank := Decoder.command?_eq_none_iff.mp none
  simp only [blank]
  rfl

variable (options : BuildOptions) (machine : Machine) (lines : List (String × Nat))

/-- The model of a build holds what its commands draw, from the height of the machine on. -/
theorem model_finish_feedLines :
    ((withMachine options machine).feedLines lines).finish.model =
      ⟨(Layer.filledBy { z := machine.position.z }
          (machine.drawings options.allowXyzReset
            ((Decoder.ofLetter options.familyPrefix).lineCommands lines))).toArray,
        options.pathWidth⟩ := by
  rw [model_finish, layersWith_feedLines, options_feedLines, List.append_nil]
  rfl

/-- From any machine on, the segments are those of the motions that a replay draws. -/
theorem segments_finish_feedLines :
    ((withMachine options machine).feedLines lines).finish.model.segments =
      (machine.drawings options.allowXyzReset
        ((Decoder.ofLetter options.familyPrefix).lineCommands lines)).map Motion.segment := by
  rw [Model.segments, model_finish_feedLines, List.toList_toArray, Layer.segments_filledBy]
  exact List.nil_append _

theorem stats_finish_feedLines :
    ((withMachine options machine).feedLines lines).finish.stats =
      .ofRun lines.length ((Decoder.ofLetter options.familyPrefix).lineCommands lines)
        (machine.drawings options.allowXyzReset
          ((Decoder.ofLetter options.familyPrefix).lineCommands lines)) := by
  rw [stats_finish, stats_feedLines]
  exact BuildStats.nothing_plus _

/-- The segments of a build are counted by their kinds. -/
theorem segmentCounts_finish_feedLines :
    let output := ((withMachine options machine).feedLines lines).finish
    output.stats.linearMoves = output.model.segmentCount ∧
      output.stats.depositSegments = output.model.segments.countP Segment.deposits ∧
      output.stats.depositSegments + output.stats.travelSegments =
        output.stats.linearMoves := by
  intro output
  have stats := stats_finish_feedLines options machine lines
  have segments := segments_finish_feedLines options machine lines
  rw [Model.segmentCount_eq_length, segments, stats, List.length_map, List.countP_map]
  exact ⟨rfl, rfl, Motion.countP_deposits_add _⟩

/-- From any machine on, the reports are those of the lines, and that there is no command. -/
theorem diagnostics_finish_feedLines :
    ((withMachine options machine).feedLines lines).finish.diagnostics =
      reports options lines
        ++ if ((Decoder.ofLetter options.familyPrefix).lineCommands lines) = [] then
            [.emptyInput]
          else
            [] := by
  have stats := stats_finish_feedLines options machine lines
  rw [stats_finish] at stats
  rw [diagnostics_finish, diagnostics_feedLines, stats]
  simp only [BuildStats.ofRun, List.length_eq_zero_iff]
  rfl

/-- That the input is empty is reported exactly when no line holds a command. -/
theorem emptyInput_mem_diagnostics_iff :
    .emptyInput ∈ ((withMachine options machine).feedLines lines).finish.diagnostics ↔
      (Decoder.ofLetter options.familyPrefix).lineCommands lines = [] := by
  rw [diagnostics_finish_feedLines, List.mem_append]
  constructor
  · rintro (isReport | isOwn)
    · exact (emptyInput_notMem_reports options lines isReport).elim
    · by_contra someCommand
      rw [if_neg someCommand] at isOwn
      cases isOwn
  · intro noCommand
    rw [if_pos noCommand]
    exact .inr (List.mem_singleton_self _)

/-- The diagnostics of lines that are numbered from one bear their numbers in order. -/
theorem numbered_diagnostics (texts : List String) :
    let output := ((withMachine options machine).feedLines (texts.zipIdx 1)).finish
    (output.diagnostics.filterMap Diagnostic.lineNumber?).Pairwise (· ≤ ·) ∧
      ∀ number ∈ output.diagnostics.filterMap Diagnostic.lineNumber?,
        1 ≤ number ∧ number ≤ texts.length := by
  intro output
  have numbers :
      output.diagnostics.filterMap Diagnostic.lineNumber? =
        (reports options (texts.zipIdx 1)).filterMap Diagnostic.lineNumber? := by
    rw [diagnostics_finish_feedLines, List.filterMap_append]
    split
    · exact List.append_nil _
    · exact List.append_nil _
  rw [numbers]
  refine ⟨pairwise_lineNumbers_reports options texts 1, fun number member => ?_⟩
  obtain ⟨diagnostic, reported, isNumbered⟩ := List.mem_filterMap.mp member
  obtain ⟨lineNumber, isNumber, first, last⟩ := lineNumber?_of_mem_reports reported
  rw [isNumbered] at isNumber
  cases isNumber
  omega

/--
A build from any machine, a fresh one for example, accounts for the lines that it is
fed, whatever they hold and however they are numbered.
-/
theorem accounts_feedLines :
    Accounts options machine.position.z lines
      ((withMachine options machine).feedLines lines).finish := by
  have stats := stats_finish_feedLines options machine lines
  have diagnostics := diagnostics_finish_feedLines options machine lines
  have counted := (Decoder.ofLetter options.familyPrefix).length_lineCommands lines
  have noCommand_iff :
      ((withMachine options machine).feedLines lines).finish.stats.commands = 0 ↔
        (Decoder.ofLetter options.familyPrefix).lineCommands lines = [] := by
    rw [stats]
    exact List.length_eq_zero_iff
  refine
    { lineCount := by rw [stats]; rfl
      commands := by rw [stats]; exact counted
      segments := segmentCounts_finish_feedLines options machine lines
      skipped := ?_
      bounded := ?_
      diagnostics := ?_
      numbered := ?_
      emptyInput := (emptyInput_mem_diagnostics_iff options machine lines).trans noCommand_iff.symm
      empty := ?_ }
  · rw [stats]
    exact (Decoder.ofLetter options.familyPrefix).countP_isSkipped_lineCommands lines
  · rw [stats]
    exact ⟨machine.length_drawings_add_countP_le options.allowXyzReset _,
      counted.trans_le List.countP_le_length⟩
  · obtain ⟨contributions, reported, flattened⟩ := exists_reportedFor options lines
    simp only [diagnostics, flattened, noCommand_iff]
    exact ⟨contributions, reported, rfl⟩
  · rintro texts rfl
    have numbered := numbered_diagnostics options machine texts
    rw [stats]
    simpa only [BuildStats.ofRun, List.length_zipIdx] using numbered
  · intro noCommand
    have none := noCommand_iff.mp noCommand
    rw [diagnostics, reports_eq_nil none, if_pos none, model_finish_feedLines, none]
    exact ⟨rfl, rfl⟩

end Builder

end LayerPlayback
