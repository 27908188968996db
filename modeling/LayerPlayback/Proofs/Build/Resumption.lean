import LayerPlayback.Proofs.Build.Grouping
import LayerPlayback.Proofs.Build.Insertion
import LayerPlayback.Proofs.Build.Numbers
import LayerPlayback.Proofs.Model.Extension

namespace LayerPlayback

/-!
# Builds split at a home

A home clears the offsets and the mode, so what comes behind it depends on nothing
before it but the position.  A text with a home between its lines therefore builds like
two programs, of which the second one goes on from where the first one ended.  They meet
in one layer: the open layer of the first program is always at its final height, so the
second program's first segments join it, and its last run may go on in them.
-/

/-- How two layers become one: at the height of the first, the segments of the second behind. -/
structure Layer.Joins (first second joined : Layer) : Prop where
  level : (first.z == second.z) = true
  z : joined.z = first.z
  segments : joined.segments.toList = first.segments.toList ++ second.segments.toList
  /-- The moves are the maximal runs, also across the seam. -/
  moves : joined.moves.toList = runMoves joined.segments.toList

/-- A filled layer to which segments are added joins the layer of these segments. -/
theorem Layer.Filled.joins
    {layer : Layer}
    (filled : layer.Filled)
    {z : Float}
    (level : (layer.z == z) = true)
    (added : List Segment) :
    layer.Joins (ofSegments z added) (added.foldl Layer.push layer) where
  level := by rwa [ofSegments, z_foldl_push]
  z := layer.z_foldl_push added
  segments := by rw [toList_segments_foldl_push, toList_segments_ofSegments]
  moves := (filled.foldl_push added).moves_eq_runMoves

/-! ## Replays -/

namespace Machine

variable (machine : Machine) (xyzReset : Bool)

/-- The numbers of lines do not matter to a replay of their commands. -/
theorem replay_zipIdx (decoder : Decoder) (lines : List String) (first other : Nat) :
    machine.follow xyzReset (decoder.lineCommands (lines.zipIdx first)) =
        machine.follow xyzReset (decoder.lineCommands (lines.zipIdx other)) ∧
      machine.drawings xyzReset (decoder.lineCommands (lines.zipIdx first)) =
        machine.drawings xyzReset (decoder.lineCommands (lines.zipIdx other)) := by
  have fromZero (shift : Nat) :
      decoder.lineCommands (lines.zipIdx shift) =
        (decoder.lineCommands (lines.zipIdx 0)).map (Command.renumbered (· + shift)) := by
    rw [← Decoder.lineCommands_renumberedLines, ← Decoder.zipIdx_add, Nat.zero_add]
  rw [fromZero first, fromZero other]
  simp only [follow_renumbered, drawings_renumbered, and_self]

/-- A home leaves nothing of a machine but its position. -/
theorem home_eq_startingAt : machine.home = .startingAt machine.position :=
  rfl

theorem replay_home
    {command? : Option Command}
    (homes : command?.map Command.operation = some .home) :
    machine.follow xyzReset command?.toList = .startingAt machine.position ∧
      machine.drawings xyzReset command?.toList = [] := by
  obtain ⟨command, rfl, isHome⟩ := Option.map_eq_some_iff.mp homes
  rw [← home_eq_startingAt]
  constructor
  · simp only [Option.toList_some, follow, List.foldl_cons, List.foldl_nil, obey, isHome]
  · simp only [Option.toList_some, drawings, drawing?, isHome, Option.toList_none, List.append_nil]

/-- Commands behind a home are replayed as on a machine that starts where the home was. -/
theorem replay_around_home
    {command? : Option Command}
    (homes : command?.map Command.operation = some .home)
    (earlier later : List Command)
    (number : Nat → Nat) :
    let commands := earlier ++ (command?.toList ++ later.map (Command.renumbered number))
    let resumed := startingAt (machine.follow xyzReset earlier).position
    machine.follow xyzReset commands = resumed.follow xyzReset later ∧
      machine.drawings xyzReset commands =
        machine.drawings xyzReset earlier ++ resumed.drawings xyzReset later := by
  obtain ⟨atPosition, drawsNothing⟩ :=
    (machine.follow xyzReset earlier).replay_home xyzReset homes
  constructor
  · rw [follow_append, follow_append, atPosition, follow_renumbered]
  · rw [drawings_append, drawings_append, drawsNothing, List.nil_append, atPosition,
      drawings_renumbered]

end Machine

/-- A line asks for the same operation under any number, with or without a carriage return. -/
theorem Decoder.operation_withoutReturn
    (decoder : Decoder)
    (line : String)
    (lineNumber place : Nat) :
    (decoder.decode (String.ofList (Line.withoutReturn line.toList)) place).command?.map
        Command.operation =
      (decoder.decode line lineNumber).command?.map Command.operation := by
  have renumbered := decoder.decode_renumbered line (fun _ => place) lineNumber
  rw [decode_withoutReturn, String.ofList_toList, renumbered, DecodedLine.renumbered,
    Option.map_map]
  rfl

/-! ## Resumed builds -/

/-- The build of a text that goes on from a position, its lines numbered from a given one on. -/
def resumedBuild
    (options : BuildOptions)
    (position : Position)
    (firstNumber : Nat)
    (text : String) :
    BuildOutput :=
  ((Builder.withMachine options (.startingAt position)).feedLines
    ((Line.ofText text).zipIdx firstNumber)).finish

theorem finalPosition_resumedBuild
    (options : BuildOptions)
    (position : Position)
    (firstNumber : Nat)
    (text : String) :
    (resumedBuild options position firstNumber text).finalPosition =
      (Machine.follow options.allowXyzReset (.startingAt position)
        ((Decoder.ofLetter options.familyPrefix).commands text)).position := by
  rw [resumedBuild, (Builder.finish_eq _).1, Builder.machine_feedLines,
    Decoder.commands_eq_lineCommands, Decoder.numberedLines]
  exact congrArg Machine.position (Machine.replay_zipIdx _ _ _ _ _ _).1

theorem layers_resumedBuild
    (options : BuildOptions)
    (position : Position)
    (firstNumber : Nat)
    (text : String) :
    (resumedBuild options position firstNumber text).model.layers.toList =
      Layer.filledBy { z := position.z }
        (Machine.drawings options.allowXyzReset (.startingAt position)
          ((Decoder.ofLetter options.familyPrefix).commands text)) := by
  rw [resumedBuild, (Builder.finish_eq _).2, Builder.layersWith_feedLines, List.append_nil,
    Decoder.commands_eq_lineCommands, Decoder.numberedLines]
  exact congrArg (Layer.filledBy { z := position.z }) (Machine.replay_zipIdx _ _ _ _ _ _).2

/-- The last layer of a build is at the height of its final position. -/
theorem level_last_build
    {options : BuildOptions}
    {text : String}
    {closed : List Layer}
    {last : Layer}
    (shape : (build options text).model.layers.toList = closed ++ [last]) :
    (last.z == (build options text).finalPosition.z) = true := by
  have startLevel : (({ z := 0.0 } : Layer).z == (Machine.position {}).z) = true := rfl
  have finite :
      ∀ command ∈ (Decoder.ofLetter options.familyPrefix).commands text, command.axes.IsFinite :=
    fun _ member => Decoder.isFinite_axes_of_mem_commands member
  have level :=
    Machine.level_filledBy_drawings options.allowXyzReset Machine.isNumber_fresh finite startLevel
  rw [finalPosition_build]
  apply level
  rw [← drawnMotions, ← layers_build, shape]
  exact List.getLast?_concat

/--
How a build goes on behind its first part: as one that starts afresh from the position
which that part reached, but in the layer which it left open.
-/
structure Resumes (first resumed whole : BuildOutput) : Prop where
  finalPosition : whole.finalPosition = resumed.finalPosition
  /-- The last layer of the first part and the first one of the rest become one. -/
  layers :
    ∃ closed last opened more joined,
      first.model.layers.toList = closed ++ [last] ∧
        resumed.model.layers.toList = opened :: more ∧
        whole.model.layers.toList = closed ++ joined :: more ∧
        last.Joins opened joined

/-- Motions from the final position of a build resume its layers. -/
theorem exists_joins_build
    {options : BuildOptions}
    {before whole : String}
    {later : List Motion}
    (drawn : drawnMotions options whole = drawnMotions options before ++ later) :
    ∃ closed last opened more joined,
      (build options before).model.layers.toList = closed ++ [last] ∧
        Layer.filledBy { z := (build options before).finalPosition.z } later = opened :: more ∧
        (build options whole).model.layers.toList = closed ++ joined :: more ∧
        last.Joins opened joined := by
  obtain ⟨closed, last, filled, goesOn⟩ :=
    Layer.exists_filledBy_append { z := 0.0 } (drawnMotions options before)
  rw [← layers_build] at filled
  have lastFilled : last.Filled := by
    have member : last ∈ (build options before).model.layers := by
      simp [← Array.mem_toList_iff, filled]
    exact filled_of_mem_build member
  have level :
      (last.z == ({ z := (build options before).finalPosition.z } : Layer).z) = true :=
    level_last_build filled
  obtain ⟨added, more, joined, opened⟩ := Layer.exists_filledBy_of_level level later
  refine ⟨closed, last, _, more, _, filled, opened, ?_, lastFilled.joins level added⟩
  rw [layers_build, drawn, goesOn, joined]

/-- A text can be split at a home: what comes behind it resumes what came before it. -/
theorem resumes_home
    (options : BuildOptions)
    {before line : String}
    (closed : Line.IsClosed before)
    (oneLine : '\n' ∉ line.toList)
    {lineNumber : Nat}
    (homes :
      ((Decoder.ofLetter options.familyPrefix).decode line lineNumber).command?.map
        Command.operation = some .home)
    (after : String)
    (firstNumber : Nat) :
    Resumes (build options before)
      (resumedBuild options (build options before).finalPosition firstNumber after)
      (build options (before ++ line ++ "\n" ++ after)) := by
  have homesThere :=
    (Decoder.operation_withoutReturn _ line lineNumber ((Line.ofText before).length + 1)).trans
      homes
  obtain ⟨followed, drawn⟩ :=
    Machine.replay_around_home {} options.allowXyzReset homesThere
      ((Decoder.ofLetter options.familyPrefix).commands before)
      ((Decoder.ofLetter options.familyPrefix).commands after)
      (· + ((Line.ofText before).length + 1))
  rw [← Decoder.commands_inserted _ closed oneLine, ← finalPosition_build] at followed drawn
  refine ⟨?_, ?_⟩
  · rw [finalPosition_build, followed, finalPosition_resumedBuild]
  · rw [layers_resumedBuild]
    exact exists_joins_build drawn

/-- Neither relative mode nor a reset reaches behind the home, but the deposit before it goes on. -/
theorem resumes_home_openRun :
    let before := "G1 X1 E1\nG92 X7 Z3\nG91\n"
    let after := "G1 X2 E5\nG1 Z1"
    let first := build {} before
    let whole := build {} (before ++ "n5 g28 x ; again\r" ++ "\n" ++ after)
    Resumes first (resumedBuild {} first.finalPosition 1 after) whole ∧
      whole.finalPosition.x = 2.0 ∧
      whole.model.layers.map Layer.moves = #[#[⟨.deposit, 0, 2⟩], #[⟨.travel, 0, 1⟩]] := by
  intro before after first whole
  have closed : Line.IsClosed before := by decide +kernel
  have oneLine : '\n' ∉ "n5 g28 x ; again\r".toList := by decide +kernel
  have homes :
      ((Decoder.ofLetter (BuildOptions.familyPrefix {})).decode
        "n5 g28 x ; again\r" 0).command?.map Command.operation = some .home := by
    decide +kernel
  exact ⟨resumes_home {} closed oneLine homes after 1, by decide +kernel, by decide +kernel⟩

end LayerPlayback
