import LayerPlayback.Command.Decoder
import LayerPlayback.Machine
import LayerPlayback.Model

namespace LayerPlayback

/-!
# Building a model from program text

Commands drive a machine, and every linear move that changes a coordinate adds a
segment to the layer at its end height.  A layer ends when a move ends at
another height, so a height that comes back opens a new layer.  Nothing aborts a
build: what cannot be interpreted becomes a diagnostic.
-/

/-- How program text is interpreted. -/
structure BuildOptions where
  /-- The family letter of the commands that are interpreted, in either case. -/
  familyPrefix : Char := Decoder.defaultFamily
  /-- Whether a set-position command may name axes other than the extruder axis. -/
  allowXyzReset : Bool := true
  /-- The nominal line width of the model. -/
  pathWidth : Float := Model.defaultPathWidth
  deriving Repr, BEq

/-- What a build counted. -/
structure BuildStats where
  lines : Nat := 0
  /-- Lines that held a command. -/
  commands : Nat := 0
  /-- Linear moves that added a segment. -/
  linearMoves : Nat := 0
  depositSegments : Nat := 0
  travelSegments : Nat := 0
  /-- Commands that were not interpreted. -/
  skipped : Nat := 0
  deriving Repr, DecidableEq

namespace BuildStats

/-- One more line was read. -/
def countLine (stats : BuildStats) : BuildStats :=
  { stats with lines := stats.lines + 1 }

/-- One more command was found. -/
def countCommand (stats : BuildStats) : BuildStats :=
  { stats with commands := stats.commands + 1 }

/-- One more command was not interpreted. -/
def countSkipped (stats : BuildStats) : BuildStats :=
  { stats with skipped := stats.skipped + 1 }

/-- One more segment was added. -/
def countSegment (stats : BuildStats) : MoveKind → BuildStats
  | .deposit =>
      { stats with
        linearMoves := stats.linearMoves + 1
        depositSegments := stats.depositSegments + 1 }
  | .travel =>
      { stats with
        linearMoves := stats.linearMoves + 1
        travelSegments := stats.travelSegments + 1 }

end BuildStats

/-- Everything that a build produces. -/
structure BuildOutput where
  model : Model
  diagnostics : List Diagnostic
  stats : BuildStats
  /-- The tracked position after the last command. -/
  finalPosition : Position
  deriving Repr, BEq

/-- A build in progress. -/
structure Builder where
  options : BuildOptions
  machine : Machine
  /-- The layers before the open one. -/
  closedLayers : Array Layer := #[]
  /-- The layer that takes the next segment at its height. -/
  openLayer : Layer
  diagnostics : Array Diagnostic := #[]
  stats : BuildStats := {}
  deriving Repr

namespace Builder

/-- A build that continues from a machine; the first layer is at its height. -/
def withMachine (options : BuildOptions) (machine : Machine) : Builder :=
  { options := options
    machine := machine
    openLayer := { z := machine.position.z } }

/-- A build from a fresh machine. -/
def new (options : BuildOptions) : Builder :=
  withMachine options {}

/-- The layers so far, the open one last. -/
def model (builder : Builder) : Model :=
  ⟨builder.closedLayers.push builder.openLayer, builder.options.pathWidth⟩

/-- The decoder for the family that the options name. -/
def decoder (builder : Builder) : Decoder :=
  .ofLetter builder.options.familyPrefix

/-- Note a diagnostic. -/
def report (builder : Builder) (diagnostic : Diagnostic) : Builder :=
  { builder with diagnostics := builder.diagnostics.push diagnostic }

/-- Make the layer at a height the open one; another height opens a new layer. -/
def openAt (builder : Builder) (z : Float) : Builder :=
  if builder.openLayer.z == z then
    builder
  else
    { builder with
      closedLayers := builder.closedLayers.push builder.openLayer
      openLayer := { z := z } }

/-- Add a segment to the open layer. -/
def addSegment (builder : Builder) (segment : Segment) : Builder :=
  { builder with
    openLayer := builder.openLayer.push segment
    stats := builder.stats.countSegment segment.kind }

/-- Draw a motion into the layer at its end height. -/
def draw (builder : Builder) (motion : Motion) : Builder :=
  (builder.openAt motion.finish.z).addSegment
    { start := motion.start.point
      finish := motion.finish.point
      deposits := motion.deposits }

/-- Carry out a linear move; one that changes no coordinate draws nothing. -/
def linearMove (builder : Builder) (named : PartialPosition) : Builder :=
  let motion := builder.machine.motion named
  let moved := { builder with machine := builder.machine.move named }
  if named.isEmpty || motion.staysPut then moved else moved.draw motion

/-- Whether a set-position command names axes that the options do not let it set. -/
def refusesReset (options : BuildOptions) (named : PartialPosition) : Bool :=
  !options.allowXyzReset && named.namesSpatial

/-- The part of a set-position command that the options allow. -/
def allowedReset (options : BuildOptions) (named : PartialPosition) : PartialPosition :=
  if refusesReset options named then named.extruderOnly else named

/-- Change the machine without drawing. -/
def updateMachine (builder : Builder) (change : Machine → Machine) : Builder :=
  { builder with machine := change builder.machine }

/-- Count a command that is not interpreted. -/
def skip (builder : Builder) : Builder :=
  { builder with stats := builder.stats.countSkipped }

/-- Why a circular move is skipped. -/
def arcReason : String :=
  "arc moves are not interpreted"

/-- Why a set-position command is carried out in part. -/
def resetReason : String :=
  "only the E axis can be reset"

/-- What is reported about a command apart from its words. -/
def commandDiagnostic? (options : BuildOptions) (command : Command) : Option Diagnostic :=
  match command.operation with
  | .arc _ =>
      some (.unsupportedOperation command.lineNumber command.code arcReason)
  | .unknown true =>
      some (.unknownOperation command.lineNumber command.code)
  | .setPosition =>
      if refusesReset options command.axes then
        some (.unsupportedOperation command.lineNumber command.code resetReason)
      else
        none
  | _ => none

/-- Carry out what a command asks for. -/
def perform (builder : Builder) (command : Command) : Builder :=
  match command.operation with
  | .linearMove _ => builder.linearMove command.axes
  | .home => builder.updateMachine .home
  | .absoluteMode => builder.updateMachine fun machine => machine.setMode .absolute
  | .relativeMode => builder.updateMachine fun machine => machine.setMode .relative
  | .setPosition =>
      builder.updateMachine fun machine =>
        machine.setPosition (allowedReset builder.options command.axes)
  | .arc _ => builder.skip
  | .unknown _ => builder.skip

/-- Apply one decoded command. -/
def apply (builder : Builder) (command : Command) : Builder :=
  let counted := { builder with stats := builder.stats.countCommand }
  let reported :=
    match commandDiagnostic? builder.options command with
    | some diagnostic => counted.report diagnostic
    | none => counted
  reported.perform command

/-- Take in one decoded line. -/
def addLine (builder : Builder) (line : DecodedLine) : Builder :=
  let reported :=
    line.diagnostics.foldl report { builder with stats := builder.stats.countLine }
  match line.command? with
  | some command => reported.apply command
  | none => reported

/-- Decode one line and take it in. -/
def feedLine (builder : Builder) (line : String) (lineNumber : Nat) : Builder :=
  builder.addLine (builder.decoder.decode line lineNumber)

/-- Feed numbered lines one after the other. -/
def feedLines (builder : Builder) (lines : List (String × Nat)) : Builder :=
  lines.foldl (fun builder (line, lineNumber) => builder.feedLine line lineNumber) builder

/-- End a build; one without commands says so. -/
def finish (builder : Builder) : BuildOutput :=
  let reported :=
    if builder.stats.commands = 0 then builder.report .emptyInput else builder
  { model := reported.model
    diagnostics := reported.diagnostics.toList
    stats := reported.stats
    finalPosition := reported.machine.position }

end Builder

/-- Build the model of a program text. -/
def build (options : BuildOptions) (text : String) : BuildOutput :=
  ((Builder.new options).feedLines (Decoder.numberedLines text)).finish

end LayerPlayback
