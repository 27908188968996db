import LayerPlayback.Build
import LayerPlayback.Model.Polyline
import LayerPlayback.Model.StepHistogram

namespace LayerPlayback

/-!
# Build caches

A cache keeps the products of one build under a key for its input.  The
polylines and the layer step are derived from the model and can be made again
without another build.
-/

/-- How texts are told apart: those with one key are taken for the same text. -/
class TextKey (Key : Type) where
  ofText : String → Key

/-- A text is a key of its own. -/
instance : TextKey String where
  ofText text := text

/-- The products of a build, with the key of its input. -/
structure ToolpathCache (Key : Type) where
  /-- The key of the input; none before the first build. -/
  key? : Option Key := none
  model : Model := .empty
  polylines : List Polyline := []
  diagnostics : List Diagnostic := []
  stats : BuildStats := {}
  finalPosition : Position := .origin
  layerStep : Float := 0.0
  deriving Repr

namespace ToolpathCache

variable {Key : Type}

/-- Whether a build is held. -/
def isLoaded (cache : ToolpathCache Key) : Bool :=
  cache.key?.isSome

/-- Whether the build of another input, or none, is held. -/
def needsUpdate [DecidableEq Key] (cache : ToolpathCache Key) (key : Key) : Bool :=
  cache.key? ≠ some key

/-- Derive the polylines and the layer step again. -/
def rebuild (cache : ToolpathCache Key) (inference : StepInference) : ToolpathCache Key :=
  { cache with
    polylines := Polyline.ofModel cache.model
    layerStep := inference.infer cache.model.layers.toList }

/-- Hold another build and derive what follows from it. -/
def update
    (cache : ToolpathCache Key)
    (key : Key)
    (output : BuildOutput)
    (inference : StepInference) :
    ToolpathCache Key :=
  { cache with
    key? := some key
    model := output.model
    diagnostics := output.diagnostics
    stats := output.stats
    finalPosition := output.finalPosition }.rebuild inference

end ToolpathCache

end LayerPlayback
