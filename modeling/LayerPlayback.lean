import LayerPlayback.Codec.Machine
import LayerPlayback.Main
import LayerPlayback.Proofs.Build.Accounting
import LayerPlayback.Proofs.Build.Continuation
import LayerPlayback.Proofs.Build.Deposits
import LayerPlayback.Proofs.Build.Geometry
import LayerPlayback.Proofs.Build.Insertion
import LayerPlayback.Proofs.Build.JsonForm
import LayerPlayback.Proofs.Build.Numbers
import LayerPlayback.Proofs.Build.RefusedResets
import LayerPlayback.Proofs.Build.Resumption
import LayerPlayback.Proofs.Command.Codes
import LayerPlayback.Proofs.Command.Display
import LayerPlayback.Proofs.Command.FamilyLetter
import LayerPlayback.Proofs.Command.LexicalNoise
import LayerPlayback.Proofs.CommandLine.Grammar
import LayerPlayback.Proofs.CommandLine.Order
import LayerPlayback.Proofs.Machine.Axes
import LayerPlayback.Proofs.Machine.RenamedPosition
import LayerPlayback.Proofs.Model.BoundsMeasures
import LayerPlayback.Proofs.Model.Partition
import LayerPlayback.Proofs.Model.SameHeights
import LayerPlayback.Proofs.Model.StepHistogram
import LayerPlayback.Proofs.Number.Integers
import LayerPlayback.Proofs.Number.PlainText
import LayerPlayback.Proofs.Number.RoundingError
import LayerPlayback.Proofs.Number.Unsigned
import LayerPlayback.Proofs.Playback.CurrentLayer
import LayerPlayback.Proofs.Playback.FullReveal
import LayerPlayback.Proofs.Playback.InStep
import LayerPlayback.Proofs.Playback.ModeAgreement
import LayerPlayback.Proofs.Playback.RescaledShare
import LayerPlayback.Proofs.Settings.CurrentLayer
import LayerPlayback.Proofs.Settings.Persistence
import LayerPlayback.Proofs.Toolpath.Coherence
