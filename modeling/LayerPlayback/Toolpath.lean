import LayerPlayback.File
import LayerPlayback.Model.Bounds
import LayerPlayback.Playback.Engine
import LayerPlayback.Toolpath.Cache

namespace LayerPlayback

/-!
# Toolpaths

A toolpath holds the build of the program text that was loaded last and all that
is derived from it.  Loading the same text again changes nothing; which texts are
the same is read off their keys.
-/

/-- A loaded program with the settings that interpret and show it. -/
structure Toolpath (Key : Type := String) where
  options : BuildOptions := {}
  inference : StepInference := {}
  mode : CursorMode := .height
  /-- How much the band of current layers is narrower than a step. -/
  slack : Float := 0.05
  cache : ToolpathCache Key := {}
  deriving Repr

namespace Toolpath

variable {Key : Type}

/-- Whether a text was loaded. -/
def isLoaded (toolpath : Toolpath Key) : Bool :=
  toolpath.cache.isLoaded

/-- The model of the loaded text. -/
def model (toolpath : Toolpath Key) : Model :=
  toolpath.cache.model

/-- The inferred layer step, zero before a text is loaded. -/
def layerStep (toolpath : Toolpath Key) : Float :=
  toolpath.cache.layerStep

/-- Build a text unless it is the loaded one; also whether it was built. -/
def load
    [TextKey Key]
    [DecidableEq Key]
    (toolpath : Toolpath Key)
    (text : String) :
    Toolpath Key × Bool :=
  let key : Key := TextKey.ofText text
  if toolpath.cache.needsUpdate key then
    let output := build toolpath.options text
    ({ toolpath with cache := toolpath.cache.update key output toolpath.inference }, true)
  else
    (toolpath, false)

/-- A toolpath with a loaded text. -/
def ofText (options : BuildOptions) (text : String) : Toolpath :=
  (load { options := options } text).1

/-- Load what is found at a path, unless it cannot be read. -/
def loadFile?
    [TextKey Key]
    [DecidableEq Key]
    (toolpath : Toolpath Key)
    (file : File) :
    Option (Toolpath Key × Bool) :=
  file.replacingText?.map toolpath.load

/-- Infer the layer step in another way from now on. -/
def setInference (toolpath : Toolpath Key) (inference : StepInference) : Toolpath Key :=
  { toolpath with
    inference := inference
    cache :=
      if toolpath.isLoaded then toolpath.cache.rebuild inference else toolpath.cache }

/-- The engine that uses the inferred layer step. -/
def windowEngine (toolpath : Toolpath Key) : WindowEngine :=
  { mode := toolpath.mode
    step := toolpath.layerStep
    slack := toolpath.slack }

/-- A cursor over all layers with everything revealed. -/
def fullCursor (toolpath : Toolpath Key) : ViewCursor :=
  toolpath.windowEngine.fullCursor toolpath.model

/-- Sync a cursor with the loaded model, then decide what is visible. -/
def visibility
    (toolpath : Toolpath Key)
    (cursor : ViewCursor) :
    ViewCursor × VisibilityFrame :=
  toolpath.windowEngine.update toolpath.model cursor

end Toolpath

/-- One change to a toolpath. -/
inductive ToolpathAction where
  | load (text : String)
  | loadFile (file : File)
  | setInference (inference : StepInference)
  deriving Repr

namespace ToolpathAction

variable {Key : Type}

/-- The toolpath after an action; a file that cannot be read leaves it as it was. -/
def apply
    [TextKey Key]
    [DecidableEq Key]
    (toolpath : Toolpath Key) :
    ToolpathAction → Toolpath Key
  | .load text => (toolpath.load text).1
  | .loadFile file => ((toolpath.loadFile? file).map Prod.fst).getD toolpath
  | .setInference inference => toolpath.setInference inference

end ToolpathAction

end LayerPlayback
