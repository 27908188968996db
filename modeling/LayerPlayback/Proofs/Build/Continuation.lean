import LayerPlayback.Proofs.Build.Renumbering
import LayerPlayback.Proofs.Model.Extension

namespace LayerPlayback

/-!
# Builds of texts that go on

A text that goes on behind its complete lines is reported on and counted like its two
parts, the second one under later line numbers.  Its model is that of the first part,
gone on at its end: no later line changes what has been drawn.
-/

/-- How the build of a text consists of the builds of its first lines and of the others. -/
structure Continues (first rest whole : BuildOutput) (lineCount : Nat) : Prop where
  lines : whole.stats.lines = first.stats.lines + rest.stats.lines
  commands : whole.stats.commands = first.stats.commands + rest.stats.commands
  skipped : whole.stats.skipped = first.stats.skipped + rest.stats.skipped
  /-- The reports on the first lines, then those on the others by their later numbers. -/
  diagnostics :
    whole.lineDiagnostics =
      first.lineDiagnostics ++ rest.lineDiagnostics.map (Diagnostic.renumbered (· + lineCount))
  model : first.model.Extends whole.model

/-- Commands of a text that goes on draw what the first ones draw, and more. -/
theorem drawnMotions_append
    (options : BuildOptions)
    {earlier : String}
    (closed : Line.IsClosed earlier)
    (later : String) :
    ∃ more, drawnMotions options (earlier ++ later) = drawnMotions options earlier ++ more := by
  unfold drawnMotions
  rw [Decoder.commands_append _ closed, Machine.drawings_append]
  exact ⟨_, rfl⟩

/-- Lines that come behind complete ones are counted on top of those. -/
theorem stats_build_append
    (options : BuildOptions)
    {earlier : String}
    (closed : Line.IsClosed earlier)
    (later : String) :
    ∃ motions,
      (build options (earlier ++ later)).stats =
        (build options earlier).stats.plus
          (.ofRun (Decoder.numberedLines later).length
            ((Decoder.ofLetter options.familyPrefix).commands later) motions) := by
  obtain ⟨motions, drawn⟩ := drawnMotions_append options closed later
  refine ⟨motions, ?_⟩
  rw [stats_build, stats_build, drawn, Decoder.numberedLines_append closed,
    Decoder.commands_append _ closed, List.length_append, Decoder.length_renumberedLines,
    BuildStats.ofRun_append, BuildStats.ofRun_renumbered]

/-- Behind complete lines a text can go on without a change to what they built. -/
theorem continues_append
    (options : BuildOptions)
    {earlier : String}
    (closed : Line.IsClosed earlier)
    (later : String) :
    Continues (build options earlier) (build options later) (build options (earlier ++ later))
      (Line.ofText earlier).length := by
  obtain ⟨more, drawn⟩ := drawnMotions_append options closed later
  obtain ⟨motions, counted⟩ := stats_build_append options closed later
  exact
    { lines := by rw [counted, stats_build options later]; rfl
      commands := by rw [counted, stats_build options later]; rfl
      skipped := by rw [counted, stats_build options later]; rfl
      diagnostics := by
        rw [lineDiagnostics_build, lineDiagnostics_build, lineDiagnostics_build,
          Decoder.numberedLines_append closed, Builder.reports_append,
          Builder.reports_renumberedLines]
      model := by
        rw [model_build, model_build, drawn]
        exact Model.extends_filledBy_append _ _ _ _ }

/-- The last run of the first lines goes on, and a line of the rest is reported on. -/
theorem continues_run :
    let first := build {} "G1 X1 E1\nG1 Z1\nG2 X1\nG1 X5 E2\n"
    let rest := build {} "G1 X9 E3\nG3 Y1\nG1 Xz"
    let whole := build {} "G1 X1 E1\nG1 Z1\nG2 X1\nG1 X5 E2\nG1 X9 E3\nG3 Y1\nG1 Xz"
    Continues first rest whole 4 ∧
      first.model.layers.map Layer.moves =
          #[#[⟨.deposit, 0, 1⟩], #[⟨.travel, 0, 1⟩, ⟨.deposit, 1, 1⟩]] ∧
        whole.model.layers.map Layer.moves =
          #[#[⟨.deposit, 0, 1⟩], #[⟨.travel, 0, 1⟩, ⟨.deposit, 1, 2⟩]] := by
  intro first rest whole
  have closed : Line.IsClosed "G1 X1 E1\nG1 Z1\nG2 X1\nG1 X5 E2\n" := by decide +kernel
  have lineCount : (Line.ofText "G1 X1 E1\nG1 Z1\nG2 X1\nG1 X5 E2\n").length = 4 := by
    decide +kernel
  have continues := continues_append {} closed "G1 X9 E3\nG3 Y1\nG1 Xz"
  rw [lineCount] at continues
  exact ⟨continues, by decide +kernel, by decide +kernel⟩

end LayerPlayback
