import LayerPlayback.Proofs.Build.Renumbering

namespace LayerPlayback

/-!
# Refused resets are erased

When only the extruder axis may be reset, the other words of a set-position command might as
well not stand there.  A build that refuses them ends in the same machine and the same model
as one that refuses nothing and is given the commands without these words, and none of them
ever reaches an offset.  The words for the extruder axis are carried out as usual.
-/

/-- The words without those for the axes in space. -/
def Words.withoutSpatial (words : Words) : Words :=
  ((words.erase Axis.x.letter).erase Axis.y.letter).erase Axis.z.letter

/-- The command, and for a set-position command only what it says about the extruder. -/
def Command.withoutSpatialReset (command : Command) : Command :=
  match command.operation with
  | .setPosition => { command with words := command.words.withoutSpatial }
  | _ => command

namespace Command

variable (command : Command)

@[simp] theorem operation_withoutSpatialReset :
    command.withoutSpatialReset.operation = command.operation := by
  unfold withoutSpatialReset
  split <;> rfl

/-- Of a set-position command only the extruder value is left. -/
theorem axes_withoutSpatialReset (isReset : command.operation = .setPosition) :
    command.withoutSpatialReset.axes = command.axes.extruderOnly := by
  simp only [withoutSpatialReset, isReset, axes, word?, PartialPosition.ofFunction,
    PartialPosition.extruderOnly, Words.withoutSpatial, Words.get?_erase, Axis.letter]
  rfl

theorem withoutSpatialReset_of_ne (isOther : command.operation ≠ .setPosition) :
    command.withoutSpatialReset = command := by
  unfold withoutSpatialReset
  split
  · next isReset => exact absurd isReset isOther
  · rfl

end Command

/-! ## Replays -/

namespace Machine

/-- Only a set-position command depends on the axes that may be reset. -/
theorem obey_of_ne
    (machine : Machine)
    {command : Command}
    (isOther : command.operation ≠ .setPosition)
    (xyzReset other : Bool) :
    machine.obey xyzReset command = machine.obey other command := by
  unfold obey
  split
  case h_5 isReset => exact absurd isReset isOther
  all_goals rfl

/-- Refusing the words for axes in space is obeying the command without them. -/
theorem obey_withoutSpatialReset (machine : Machine) (command : Command) :
    machine.obey true command.withoutSpatialReset = machine.obey false command := by
  by_cases isReset : command.operation = .setPosition
  · simp only [obey, Command.operation_withoutSpatialReset, isReset,
      command.axes_withoutSpatialReset isReset, if_true, Bool.false_eq_true, if_false]
  · rw [command.withoutSpatialReset_of_ne isReset]
    exact machine.obey_of_ne isReset true false

/-- Set-position commands draw nothing, so what is drawn is the same without their spatial axes. -/
theorem drawing?_withoutSpatialReset (machine : Machine) (command : Command) :
    machine.drawing? command.withoutSpatialReset = machine.drawing? command := by
  by_cases isReset : command.operation = .setPosition
  · simp only [drawing?, Command.operation_withoutSpatialReset, isReset]
  · rw [command.withoutSpatialReset_of_ne isReset]

/-- A replay that refuses words moves and draws as one of the commands without them. -/
theorem replay_withoutSpatialReset (machine : Machine) (commands : List Command) :
    machine.follow true (commands.map Command.withoutSpatialReset) =
        machine.follow false commands ∧
      machine.drawings true (commands.map Command.withoutSpatialReset) =
        machine.drawings false commands := by
  induction commands generalizing machine with
  | nil => exact ⟨rfl, rfl⟩
  | cons command rest inductionHypothesis =>
      obtain ⟨followed, drawn⟩ := inductionHypothesis (machine.obey false command)
      constructor
      · rw [List.map_cons, follow, List.foldl_cons, obey_withoutSpatialReset]
        exact followed
      · simp only [drawings, List.map_cons, obey_withoutSpatialReset,
          drawing?_withoutSpatialReset, drawn]

/-- No axis in space has an offset. -/
def IsUnshifted (machine : Machine) : Prop :=
  ∀ axis, axis.isSpatial = true → machine.offset.get axis = 0.0

/--
A machine that refuses spatial resets never shifts a spatial axis; this is the step of the
run.
-/
theorem obey_isUnshifted
    {machine : Machine}
    (unshifted : machine.IsUnshifted)
    (command : Command) :
    (machine.obey false command).IsUnshifted := by
  unfold obey
  split
  · intro axis isSpatial
    rw [offset_move]
    exact unshifted axis isSpatial
  · intro axis isSpatial
    cases axis <;> rfl
  · exact unshifted
  · exact unshifted
  · intro axis isSpatial
    have unnamed : command.axes.extruderOnly.get? axis = none := by
      cases axis with
      | e => cases isSpatial
      | _ => rfl
    rw [if_neg Bool.false_ne_true, get_offset_setPosition, unnamed]
    exact unshifted axis isSpatial
  · exact unshifted
  · exact unshifted

/-- From the start on, no spatial axis is ever shifted. -/
theorem follow_isUnshifted (commands : List Command) :
    (follow false {} commands).IsUnshifted := by
  have fresh : IsUnshifted {} := by
    intro axis isSpatial
    cases axis <;> rfl
  exact List.foldlRecOn commands (obey false) fresh
    fun _ reached command _ => obey_isUnshifted reached command

/--
What a set-position command does to a machine as far as the extruder is concerned: the
position stays where it is, and its extruder coordinate is called by the word if there is one.
-/
structure ResetsExtruder (word? : Option Float) (before after : Machine) : Prop where
  mode : after.mode = before.mode
  position : after.position = before.position
  offset :
    after.offset.e = (word?.map fun word => before.position.e - word).getD before.offset.e

/-- A refused reset still sets the extruder axis. -/
theorem resetsExtruder_obey
    (machine : Machine)
    {command : Command}
    (isReset : command.operation = .setPosition) :
    ResetsExtruder command.axes.e? machine (machine.obey false command) := by
  have obeyed : machine.obey false command = machine.setPosition command.axes.extruderOnly := by
    simp only [obey, isReset, Bool.false_eq_true, if_false]
  rw [obeyed]
  exact
    { mode := mode_setPosition machine _
      position := position_setPosition machine _
      offset := machine.get_offset_setPosition command.axes.extruderOnly .e }

end Machine

/-! ## Builds -/

namespace Builder

variable (builder : Builder)

/-- Apply decoded commands one after the other. -/
def applyAll (commands : List Command) : Builder :=
  commands.foldl apply builder

theorem options_applyAll (commands : List Command) :
    (builder.applyAll commands).options = builder.options := by
  induction commands generalizing builder with
  | nil => rfl
  | cons command rest inductionHypothesis =>
      exact (inductionHypothesis (builder.apply command)).trans (builder.options_apply command)

/-- After some commands the machine is where a replay of them leads it. -/
theorem machine_applyAll (commands : List Command) :
    (builder.applyAll commands).machine =
      builder.machine.follow builder.options.allowXyzReset commands := by
  induction commands generalizing builder with
  | nil => rfl
  | cons command rest inductionHypothesis =>
      have applied := inductionHypothesis (builder.apply command)
      rw [options_apply, machine_apply] at applied
      exact applied

/-- Some commands draw what a replay of them draws. -/
theorem layersWith_applyAll (commands : List Command) (later : List Motion) :
    (builder.applyAll commands).layersWith later =
      builder.layersWith
        (builder.machine.drawings builder.options.allowXyzReset commands ++ later) := by
  induction commands generalizing builder with
  | nil => rfl
  | cons command rest inductionHypothesis =>
      have applied := inductionHypothesis (builder.apply command)
      rw [options_apply, machine_apply, layersWith_apply] at applied
      rw [Machine.drawings, List.append_assoc]
      exact applied

end Builder

/-- The options by which a set-position command may only name the extruder axis. -/
def BuildOptions.refusingResets (options : BuildOptions) : BuildOptions :=
  { options with allowXyzReset := false }

/-- The options by which a set-position command may name every axis. -/
def BuildOptions.allowingResets (options : BuildOptions) : BuildOptions :=
  { options with allowXyzReset := true }

/-- The build of the commands of a text without what their set-position commands say of space. -/
def erasedBuild (options : BuildOptions) (text : String) : Builder :=
  (Builder.new options.allowingResets).applyAll
    (((Decoder.ofLetter options.familyPrefix).commands text).map Command.withoutSpatialReset)

/-- How a build that refuses resets in space compares with the build of the erased commands. -/
structure ErasesResets (options : BuildOptions) (text : String) : Prop where
  model : (build options.refusingResets text).model = (erasedBuild options text).finish.model
  finalPosition :
    (build options.refusingResets text).finalPosition =
      (erasedBuild options text).finish.finalPosition
  machine :
    ((Builder.new options.refusingResets).feedLines (Decoder.numberedLines text)).machine =
      (erasedBuild options text).machine
  /-- In every state of the build, no axis in space has an offset. -/
  unshifted :
    ∀ earlier later,
      Decoder.numberedLines text = earlier ++ later →
      ((Builder.new options.refusingResets).feedLines earlier).machine.IsUnshifted
  /-- In every state of the build, a set-position command resets the extruder as usual. -/
  extruder :
    ∀ earlier line lineNumber later command,
      Decoder.numberedLines text = earlier ++ (line, lineNumber) :: later →
      ((Decoder.ofLetter options.familyPrefix).decode line lineNumber).command? = some command →
      command.operation = .setPosition →
      Machine.ResetsExtruder command.axes.e?
        ((Builder.new options.refusingResets).feedLines earlier).machine
        ((Builder.new options.refusingResets).feedLines
          (earlier ++ [(line, lineNumber)])).machine

section Options

variable (options : BuildOptions)

/-- A build that refuses resets has the machine of a replay that refuses them. -/
theorem machine_refusingResets (lines : List (String × Nat)) :
    ((Builder.new options.refusingResets).feedLines lines).machine =
      Machine.follow false {} ((Decoder.ofLetter options.familyPrefix).lineCommands lines) :=
  Builder.machine_feedLines _ lines

theorem machine_erasedBuild (text : String) :
    (erasedBuild options text).machine =
      Machine.follow false {} ((Decoder.ofLetter options.familyPrefix).commands text) := by
  rw [erasedBuild, Builder.machine_applyAll]
  exact (Machine.replay_withoutSpatialReset _ _).1

/-- The erased commands draw what the commands draw when spatial resets are refused. -/
theorem model_erasedBuild (text : String) :
    (erasedBuild options text).finish.model =
      ⟨(Layer.filledBy { z := 0.0 } (drawnMotions options.refusingResets text)).toArray,
        options.pathWidth⟩ := by
  have drawn :
      Machine.drawings true {}
          (((Decoder.ofLetter options.familyPrefix).commands text).map
            Command.withoutSpatialReset) =
        drawnMotions options.refusingResets text :=
    (Machine.replay_withoutSpatialReset _ _).2
  have filled :
      (erasedBuild options text).layersWith [] =
        Layer.filledBy { z := 0.0 } (drawnMotions options.refusingResets text) := by
    rw [erasedBuild, Builder.layersWith_applyAll, List.append_nil, Builder.layersWith_new,
      ← drawn]
    rfl
  have width : (erasedBuild options text).options.pathWidth = options.pathWidth := by
    rw [erasedBuild, Builder.options_applyAll]
    rfl
  rw [Builder.model_finish, filled, width]

end Options

/-- Refusing resets in space is erasing the words that ask for them. -/
theorem erasesResets_build (options : BuildOptions) (text : String) :
    ErasesResets options text where
  model := by
    rw [model_build, model_erasedBuild]
    rfl
  finalPosition := by
    rw [finalPosition_build, (Builder.finish_eq _).1, machine_erasedBuild]
    rfl
  machine := by
    rw [machine_refusingResets, machine_erasedBuild, Decoder.commands_eq_lineCommands]
  unshifted earlier later _ := by
    rw [machine_refusingResets]
    exact Machine.follow_isUnshifted _
  extruder earlier line lineNumber later command _ decoded isReset := by
    have lastCommand :
        (Decoder.ofLetter options.familyPrefix).lineCommands [(line, lineNumber)] = [command] := by
      rw [Decoder.lineCommands_cons, decoded]
      rfl
    rw [machine_refusingResets, machine_refusingResets, Decoder.lineCommands_append,
      lastCommand, Machine.follow_append]
    exact Machine.resetsExtruder_obey _ isReset

/-- A refused word has no part in later moves, but the word for the extruder beside it counts. -/
example :
    let output := build ({} : BuildOptions).refusingResets "G92 X5 E1\nG1 X2 E2"
    output.finalPosition.x = 2.0 ∧ output.finalPosition.e = 1.0 := by
  decide +kernel

end LayerPlayback
