import LayerPlayback.Build
import LayerPlayback.Proofs.Model.Layering

namespace LayerPlayback

/-!
# A build replays its commands

A build decodes lines, reports what is wrong with them, counts, and draws.  Its
machine is nevertheless that of a plain replay of the decoded commands, and its
layers are filled by the drawings of that replay.  The replay's path therefore
runs through the segments of all layers and ends at the final position.
-/

namespace Decoder

/-- The commands that numbered lines decode to, in order. -/
def lineCommands (decoder : Decoder) (lines : List (String × Nat)) : List Command :=
  lines.filterMap fun (line, lineNumber) => (decoder.decode line lineNumber).command?

/-- The commands that a text decodes to, in order. -/
def commands (decoder : Decoder) (text : String) : List Command :=
  (decoder.decodeAll text).filterMap DecodedLine.command?

theorem lineCommands_cons
    (decoder : Decoder)
    (line : String)
    (lineNumber : Nat)
    (rest : List (String × Nat)) :
    decoder.lineCommands ((line, lineNumber) :: rest) =
      (decoder.decode line lineNumber).command?.toList ++ decoder.lineCommands rest := by
  simp only [lineCommands, List.filterMap_cons]
  cases (decoder.decode line lineNumber).command? <;> rfl

/-- The commands of a text are those of its numbered lines. -/
theorem commands_eq_lineCommands (decoder : Decoder) (text : String) :
    decoder.commands text = decoder.lineCommands (numberedLines text) := by
  simp only [commands, decodeAll, List.filterMap_filter, List.filterMap_map]
  refine List.filterMap_congr fun (line, lineNumber) _ => ?_
  simp only [Function.comp_apply]
  cases (decoder.decode line lineNumber).command? <;> rfl

/-- Words that stand for infinity or NaN are refused, so commands have finite words only. -/
theorem isFinite_axes_of_mem_commands
    {decoder : Decoder}
    {text : String}
    {command : Command}
    (member : command ∈ decoder.commands text) :
    command.axes.IsFinite := by
  rw [commands_eq_lineCommands, lineCommands, List.mem_filterMap] at member
  obtain ⟨_, _, decoded⟩ := member
  exact isFinite_axes_of_decode decoded

end Decoder

namespace Builder

/-- The layers of a build once motions are drawn in addition. -/
def layersWith (builder : Builder) (motions : List Motion) : List Layer :=
  builder.closedLayers.toList ++ builder.openLayer.filledBy motions

/-- A build that has not started fills layers from an empty one at height zero. -/
theorem layersWith_new (options : BuildOptions) (motions : List Motion) :
    (new options).layersWith motions = Layer.filledBy { z := 0.0 } motions :=
  List.nil_append _

variable (builder : Builder)

/-- Reporting touches the diagnostics and nothing else. -/
theorem foldl_report (diagnostics : List Diagnostic) :
    diagnostics.foldl report builder =
      { builder with diagnostics := builder.diagnostics ++ diagnostics.toArray } := by
  induction diagnostics generalizing builder with
  | nil => simp
  | cons first rest inductionHypothesis =>
      simp [inductionHypothesis, report]

/-- What the options let a set-position command set. -/
theorem allowedReset_eq (options : BuildOptions) (named : PartialPosition) :
    allowedReset options named =
      if options.allowXyzReset then named else named.extruderOnly := by
  unfold allowedReset refusesReset
  cases options.allowXyzReset with
  | true => rfl
  | false =>
      obtain ⟨x?, y?, z?, e?⟩ := named
      cases x? <;> cases y? <;> cases z? <;> rfl

@[simp] theorem options_draw (motion : Motion) :
    (builder.draw motion).options = builder.options := by
  unfold draw addSegment openAt
  split <;> rfl

@[simp] theorem machine_draw (motion : Motion) :
    (builder.draw motion).machine = builder.machine := by
  unfold draw addSegment openAt
  split <;> rfl

/-- A motion that is drawn comes before the motions that are drawn later. -/
theorem layersWith_draw (motion : Motion) (later : List Motion) :
    (builder.draw motion).layersWith later = builder.layersWith (motion :: later) := by
  unfold layersWith draw addSegment openAt
  rw [Layer.filledBy]
  split
  · rfl
  · simp [Motion.segment]

@[simp] theorem options_linearMove (named : PartialPosition) :
    (builder.linearMove named).options = builder.options := by
  unfold linearMove
  dsimp only
  split
  · rfl
  · rw [options_draw]

/-- The machine of a build moves by itself, whether or not the move is drawn. -/
@[simp] theorem machine_linearMove (named : PartialPosition) :
    (builder.linearMove named).machine = builder.machine.move named := by
  unfold linearMove
  dsimp only
  split
  · rfl
  · rw [machine_draw]

@[simp] theorem options_perform (command : Command) :
    (builder.perform command).options = builder.options := by
  unfold perform
  split
  · exact options_linearMove builder _
  all_goals rfl

/-- Carrying out a command moves the machine as the command's operation says. -/
theorem machine_perform (command : Command) :
    (builder.perform command).machine =
      builder.machine.obey builder.options.allowXyzReset command := by
  unfold perform Machine.obey
  cases command.operation with
  | linearMove rapid => exact machine_linearMove builder _
  | setPosition => simp only [updateMachine, allowedReset_eq]
  | _ => rfl

/-- Carrying out a command draws what the machine's replay of it draws. -/
theorem layersWith_perform (command : Command) (later : List Motion) :
    (builder.perform command).layersWith later =
      builder.layersWith ((builder.machine.drawing? command).toList ++ later) := by
  unfold perform Machine.drawing?
  cases command.operation with
  | linearMove rapid =>
      simp only [linearMove]
      split
      · rfl
      · exact layersWith_draw _ _ _
  | _ => rfl

/-- What a command does apart from being counted and reported on. -/
theorem apply_eq_perform (command : Command) :
    ∃ stats diagnostics,
      builder.apply command =
        { builder with stats := stats, diagnostics := diagnostics }.perform command := by
  unfold apply
  split
  · exact ⟨_, _, rfl⟩
  · exact ⟨_, builder.diagnostics, rfl⟩

theorem options_apply (command : Command) : (builder.apply command).options = builder.options := by
  obtain ⟨stats, diagnostics, applied⟩ := builder.apply_eq_perform command
  rw [applied]
  exact options_perform _ command

/-- The machine of a build obeys as one that is not built with. -/
theorem machine_apply (command : Command) :
    (builder.apply command).machine =
      builder.machine.obey builder.options.allowXyzReset command := by
  obtain ⟨stats, diagnostics, applied⟩ := builder.apply_eq_perform command
  rw [applied]
  exact machine_perform _ command

/-- What a command draws is drawn before what comes later. -/
theorem layersWith_apply (command : Command) (later : List Motion) :
    (builder.apply command).layersWith later =
      builder.layersWith ((builder.machine.drawing? command).toList ++ later) := by
  obtain ⟨stats, diagnostics, applied⟩ := builder.apply_eq_perform command
  rw [applied]
  exact layersWith_perform _ command later

/-- A line does what its command does, apart from being counted and reported on. -/
theorem addLine_eq_perform (line : DecodedLine) :
    ∃ stats diagnostics,
      builder.addLine line =
        line.command?.elim
          { builder with stats := stats, diagnostics := diagnostics }
          { builder with stats := stats, diagnostics := diagnostics }.perform := by
  unfold addLine
  rw [foldl_report]
  cases line.command? with
  | none => exact ⟨_, _, rfl⟩
  | some command =>
      obtain ⟨stats, diagnostics, applied⟩ := apply_eq_perform _ command
      exact ⟨stats, diagnostics, applied⟩

@[simp] theorem options_addLine (line : DecodedLine) :
    (builder.addLine line).options = builder.options := by
  obtain ⟨stats, diagnostics, added⟩ := builder.addLine_eq_perform line
  rw [added]
  cases line.command? with
  | none => rfl
  | some command => exact options_perform _ command

/-- The machine of a build follows the command of a line, if there is one. -/
theorem machine_addLine (line : DecodedLine) :
    (builder.addLine line).machine =
      builder.machine.follow builder.options.allowXyzReset line.command?.toList := by
  obtain ⟨stats, diagnostics, added⟩ := builder.addLine_eq_perform line
  rw [added]
  cases line.command? with
  | none => rfl
  | some command => exact machine_perform _ command

/-- What a line draws is drawn before what comes later. -/
theorem layersWith_addLine (line : DecodedLine) (later : List Motion) :
    (builder.addLine line).layersWith later =
      builder.layersWith
        (builder.machine.drawings builder.options.allowXyzReset line.command?.toList
          ++ later) := by
  obtain ⟨stats, diagnostics, added⟩ := builder.addLine_eq_perform line
  rw [added]
  cases line.command? with
  | none => rfl
  | some command =>
      refine (layersWith_perform _ command later).trans ?_
      simp only [Option.toList_some, Machine.drawings, List.append_nil]
      rfl

/-- After some lines the machine is where a replay of their commands leads it. -/
theorem machine_feedLines (lines : List (String × Nat)) :
    (builder.feedLines lines).machine =
      builder.machine.follow builder.options.allowXyzReset
        (builder.decoder.lineCommands lines) := by
  induction lines generalizing builder with
  | nil => rfl
  | cons numbered rest inductionHypothesis =>
      obtain ⟨line, lineNumber⟩ := numbered
      have fed := inductionHypothesis (builder.feedLine line lineNumber)
      simp only [feedLine, decoder, options_addLine, machine_addLine] at fed
      rw [Decoder.lineCommands_cons, Machine.follow_append]
      exact fed

/-- Some lines draw what a replay of their commands draws. -/
theorem layersWith_feedLines (lines : List (String × Nat)) (later : List Motion) :
    (builder.feedLines lines).layersWith later =
      builder.layersWith
        (builder.machine.drawings builder.options.allowXyzReset
            (builder.decoder.lineCommands lines)
          ++ later) := by
  induction lines generalizing builder with
  | nil => rfl
  | cons numbered rest inductionHypothesis =>
      obtain ⟨line, lineNumber⟩ := numbered
      have fed := inductionHypothesis (builder.feedLine line lineNumber)
      simp only [feedLine, decoder, options_addLine, machine_addLine,
        layersWith_addLine] at fed
      rw [Decoder.lineCommands_cons, Machine.drawings_append, List.append_assoc]
      exact fed

/-- Ending a build changes neither the machine nor the layers. -/
theorem finish_eq :
    builder.finish.finalPosition = builder.machine.position ∧
      builder.finish.model.layers.toList = builder.layersWith [] := by
  unfold finish
  split
  · exact ⟨rfl, Array.toList_push⟩
  · exact ⟨rfl, Array.toList_push⟩

end Builder

/-- What the commands of a text draw on a fresh machine. -/
def drawnMotions (options : BuildOptions) (text : String) : List Motion :=
  Machine.drawings options.allowXyzReset {}
    ((Decoder.ofLetter options.familyPrefix).commands text)

/-- The final position of a build is that of a replay, bit for bit. -/
theorem finalPosition_build (options : BuildOptions) (text : String) :
    (build options text).finalPosition =
      (Machine.follow options.allowXyzReset {}
        ((Decoder.ofLetter options.familyPrefix).commands text)).position := by
  rw [build, (Builder.finish_eq _).1, Builder.machine_feedLines,
    Decoder.commands_eq_lineCommands]
  rfl

/-- The layers of a build are filled by what its commands draw. -/
theorem layers_build (options : BuildOptions) (text : String) :
    (build options text).model.layers.toList =
      Layer.filledBy { z := 0.0 } (drawnMotions options text) := by
  rw [build, (Builder.finish_eq _).2, Builder.layersWith_feedLines, Builder.layersWith_new,
    drawnMotions, Decoder.commands_eq_lineCommands, List.append_nil]
  rfl

/-- The segments of a model are those of the drawn motions, in their order. -/
theorem segments_build (options : BuildOptions) (text : String) :
    (build options text).model.segments =
      (drawnMotions options text).map Motion.segment := by
  rw [Model.segments, layers_build, Layer.segments_filledBy]
  exact List.nil_append _

/--
A build ends where a replay of its commands ends, bit for bit, and its segments
lead there from the origin without a gap.
-/
theorem build_consistent_with_replay (options : BuildOptions) (text : String) :
    let output := build options text
    let replayed :=
      Machine.follow options.allowXyzReset {}
        ((Decoder.ofLetter options.familyPrefix).commands text)
    output.finalPosition = replayed.position ∧
      (∀ first ∈ output.model.segments.head?,
        (first.start == Position.origin.point) = true) ∧
      (output.model.segments.IsChain fun earlier later =>
        (earlier.finish == later.start) = true) ∧
      ∀ last ∈ output.model.segments.getLast?,
        (last.finish == output.finalPosition.point) = true := by
  have path :
      Path Position.origin.point (build options text).model.segments
        (build options text).finalPosition.point := by
    rw [segments_build, finalPosition_build]
    exact Machine.path_drawings options.allowXyzReset Machine.isNumber_fresh
      fun _ member => Decoder.isFinite_axes_of_mem_commands member
  exact ⟨finalPosition_build options text,
    fun first member => BEq.symm (path.start_head? first member),
    path.isChain, path.finish_getLast?⟩

end LayerPlayback
