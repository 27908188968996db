import LayerPlayback.Proofs.Build.Reports
import LayerPlayback.Proofs.Text.Line

namespace LayerPlayback

/-!
# Builds of lines with other numbers

Lines with other numbers give the same commands with these numbers.  A replay of
them moves the machine and draws as before, and the reports differ in their numbers
only.
-/

/-- Numbered lines with other numbers. -/
def Decoder.renumberedLines
    (number : Nat → Nat)
    (lines : List (String × Nat)) :
    List (String × Nat) :=
  lines.map (Prod.map id number)

variable (number : Nat → Nat)

namespace Decoder

theorem length_renumberedLines (lines : List (String × Nat)) :
    (renumberedLines number lines).length = lines.length :=
  List.length_map _

/-- Counting from a later number on is counting with the numbers shifted. -/
theorem zipIdx_add (lines : List String) (first shift : Nat) :
    lines.zipIdx (first + shift) = renumberedLines (· + shift) (lines.zipIdx first) := by
  rw [Nat.add_comm]
  exact List.map_snd_add_zipIdx_eq_zipIdx.symm

/-- A text that goes on behind complete lines has their numbers first, then its own ones. -/
theorem numberedLines_append {earlier : String} (closed : Line.IsClosed earlier) (later : String) :
    numberedLines (earlier ++ later) =
      numberedLines earlier
        ++ renumberedLines (· + (Line.ofText earlier).length) (numberedLines later) := by
  unfold numberedLines
  rw [Line.ofText_append closed, List.zipIdx_append, zipIdx_add]

/-- Other line numbers change the numbers of the commands, and nothing else of them. -/
theorem lineCommands_renumberedLines (decoder : Decoder) (lines : List (String × Nat)) :
    decoder.lineCommands (renumberedLines number lines) =
      (decoder.lineCommands lines).map (Command.renumbered number) := by
  rw [lineCommands, renumberedLines, List.filterMap_map, lineCommands, List.map_filterMap]
  refine List.filterMap_congr fun numbered _ => ?_
  obtain ⟨line, lineNumber⟩ := numbered
  simp only [Function.comp_apply, Prod.map_apply, id_eq, decode_renumbered]
  rfl

/-- Lines are decoded one by one. -/
theorem lineCommands_append (decoder : Decoder) (earlier later : List (String × Nat)) :
    decoder.lineCommands (earlier ++ later) =
      decoder.lineCommands earlier ++ decoder.lineCommands later :=
  List.filterMap_append

/-- A text that goes on behind complete lines has their commands first, then its own ones. -/
theorem commands_append
    (decoder : Decoder)
    {earlier : String}
    (closed : Line.IsClosed earlier)
    (later : String) :
    decoder.commands (earlier ++ later) =
      decoder.commands earlier
        ++ (decoder.commands later).map
          (Command.renumbered (· + (Line.ofText earlier).length)) := by
  rw [commands_eq_lineCommands, numberedLines_append closed, lineCommands_append,
    lineCommands_renumberedLines, ← commands_eq_lineCommands, ← commands_eq_lineCommands]

end Decoder

namespace Machine

variable (machine : Machine) (xyzReset : Bool)

/-- What is drawn does not depend on line numbers. -/
theorem drawings_renumbered (commands : List Command) :
    machine.drawings xyzReset (commands.map (Command.renumbered number)) =
      machine.drawings xyzReset commands := by
  induction commands generalizing machine with
  | nil => rfl
  | cons command rest inductionHypothesis =>
      exact congrArg ((machine.drawing? command).toList ++ ·)
        (inductionHypothesis (machine.obey xyzReset command))

theorem follow_renumbered (commands : List Command) :
    machine.follow xyzReset (commands.map (Command.renumbered number)) =
      machine.follow xyzReset commands := by
  rw [follow, List.foldl_map]
  rfl

end Machine

namespace BuildStats

theorem ofRun_renumbered (lines : Nat) (commands : List Command) (motions : List Motion) :
    ofRun lines (commands.map (Command.renumbered number)) motions =
      ofRun lines commands motions := by
  unfold ofRun
  rw [List.length_map, List.countP_map]
  rfl

end BuildStats

namespace Builder

/-- What a command is reported for is renumbered with the command. -/
theorem commandDiagnostic?_renumbered (options : BuildOptions) (command : Command) :
    commandDiagnostic? options (command.renumbered number) =
      (commandDiagnostic? options command).map (Diagnostic.renumbered number) := by
  have sameOperation : (command.renumbered number).operation = command.operation := rfl
  have sameAxes : (command.renumbered number).axes = command.axes := rfl
  unfold commandDiagnostic?
  rw [sameOperation, sameAxes]
  cases command.operation with
  | setPosition => cases refusesReset options command.axes <;> rfl
  | unknown inFamily => cases inFamily <;> rfl
  | _ => rfl

theorem lineReports_renumbered (options : BuildOptions) (line : DecodedLine) :
    lineReports options (line.renumbered number) =
      (lineReports options line).map (Diagnostic.renumbered number) := by
  unfold lineReports DecodedLine.renumbered
  rw [List.map_append]
  cases line.command? with
  | none => rfl
  | some command =>
      simp only [Option.map_some, Option.bind_some, commandDiagnostic?_renumbered]
      cases commandDiagnostic? options command <;> rfl

/-- The reports of lines are renumbered with the lines. -/
theorem reports_renumberedLines (options : BuildOptions) (lines : List (String × Nat)) :
    reports options (Decoder.renumberedLines number lines) =
      (reports options lines).map (Diagnostic.renumbered number) := by
  rw [reports, Decoder.renumberedLines, List.flatMap_map, reports, List.map_flatMap]
  refine List.flatMap_congr fun numbered _ => ?_
  obtain ⟨line, lineNumber⟩ := numbered
  simp only [Prod.map_apply, id_eq, Decoder.decode_renumbered, lineReports_renumbered]

end Builder

end LayerPlayback
