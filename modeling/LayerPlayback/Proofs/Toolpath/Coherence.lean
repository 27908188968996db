import Mathlib.Data.List.Induction
import LayerPlayback.Toolpath

namespace LayerPlayback

/-!
# Toolpaths stay coherent

A toolpath is determined by the text that was loaded last and the inference that
was set last, whatever came before and in whichever order.  All its products are
those of one build of that text, as long as no two loaded texts have one key.
-/

/-- No two of some texts have the same key. -/
def TextKey.Separates (Key : Type) [TextKey Key] (texts : List String) : Prop :=
  ∀ first ∈ texts, ∀ second ∈ texts,
    (TextKey.ofText first : Key) = TextKey.ofText second → first = second

namespace ToolpathAction

/-- The text that an action loads, unless it sets something else or its file cannot be read. -/
def text? : ToolpathAction → Option String
  | .load text => some text
  | .loadFile file => file.replacingText?
  | .setInference _ => none

def inference? : ToolpathAction → Option StepInference
  | .setInference inference => some inference
  | _ => none

/-- The text that was loaded last. -/
def lastText? (actions : List ToolpathAction) : Option String :=
  (actions.filterMap text?).getLast?

/-- The inference that was set last. -/
def lastInference? (actions : List ToolpathAction) : Option StepInference :=
  (actions.filterMap inference?).getLast?

/-- The last action decides what text was loaded last, if it loads one. -/
@[simp] theorem lastText?_concat (actions : List ToolpathAction) (action : ToolpathAction) :
    lastText? (actions ++ [action]) = action.text?.or (lastText? actions) := by
  unfold lastText?
  rw [List.filterMap_append, List.getLast?_append]
  cases loaded : action.text? <;> simp [loaded]

@[simp] theorem lastInference?_concat
    (actions : List ToolpathAction)
    (action : ToolpathAction) :
    lastInference? (actions ++ [action]) = action.inference?.or (lastInference? actions) := by
  unfold lastInference?
  rw [List.filterMap_append, List.getLast?_append]
  cases set : action.inference? <;> simp [set]

/-- Texts that a run tells apart are told apart before and at each of its actions. -/
theorem separated_of_append
    {Key : Type}
    [TextKey Key]
    {before after : List ToolpathAction}
    {action : ToolpathAction}
    (separated :
      TextKey.Separates Key ((before ++ action :: after).filterMap text?)) :
    TextKey.Separates Key (before.filterMap text?) ∧
      ∀ held ∈ lastText? before, ∀ text ∈ action.text?,
        (TextKey.ofText held : Key) = TextKey.ofText text → held = text := by
  rw [List.filterMap_append] at separated
  constructor
  · intro first isFirst second isSecond
    exact separated first (List.mem_append_left _ isFirst)
      second (List.mem_append_left _ isSecond)
  · intro held isHeld text isText
    have loaded : text ∈ (action :: after).filterMap text? :=
      List.mem_filterMap.mpr ⟨action, List.mem_cons_self, isText⟩
    exact separated held (List.mem_append_left _ (List.mem_of_getLast? isHeld))
      text (List.mem_append_right _ loaded)

end ToolpathAction

namespace ToolpathCache

variable {Key : Type} (cache : ToolpathCache Key) (key : Key) (output : BuildOutput)

theorem rebuild_update (inference other : StepInference) :
    (cache.update key output inference).rebuild other = cache.update key output other :=
  rfl

/-- An update overwrites all of a cache, so it does not matter what was cached before. -/
theorem update_eq (inference : StepInference) :
    cache.update key output inference = update {} key output inference :=
  rfl

theorem isLoaded_update (inference : StepInference) :
    (cache.update key output inference).isLoaded = true :=
  rfl

/-- Right after an update, only another key needs one. -/
theorem needsUpdate_update [DecidableEq Key] (inference : StepInference) (other : Key) :
    (cache.update key output inference).needsUpdate other = decide (key ≠ other) := by
  simp [needsUpdate, update, rebuild]

end ToolpathCache

namespace Toolpath

variable {Key : Type}

/-- A toolpath holds a build when all its products are those of the build. -/
structure Holds
    (toolpath : Toolpath Key)
    (output : BuildOutput)
    (inference : StepInference) : Prop where
  isLoaded : toolpath.isLoaded = true
  model : toolpath.model = output.model
  diagnostics : toolpath.cache.diagnostics = output.diagnostics
  stats : toolpath.cache.stats = output.stats
  finalPosition : toolpath.cache.finalPosition = output.finalPosition
  polylines : toolpath.cache.polylines = Polyline.ofModel toolpath.model
  layerStep : toolpath.layerStep = inference.infer toolpath.model.layers.toList

/-- A cache that was just updated holds the products of its build. -/
theorem holds_of_cache
    {toolpath : Toolpath Key}
    {key : Key}
    {output : BuildOutput}
    {inference : StepInference}
    (updated : toolpath.cache = ToolpathCache.update {} key output inference) :
    toolpath.Holds output inference := by
  constructor <;> simp only [isLoaded, model, layerStep, updated] <;> rfl

variable [TextKey Key]

/--
What a toolpath is once a text was loaded and an inference set, in either order;
nothing is cached when no text was loaded.
-/
def holding
    (initial : Toolpath Key)
    (text? : Option String)
    (inference : StepInference) :
    Toolpath Key :=
  { initial with
    inference := inference
    cache :=
      match text? with
      | none => {}
      | some text =>
          ToolpathCache.update {} (TextKey.ofText text) (build initial.options text) inference }

variable (initial : Toolpath Key) {text? : Option String} (inference : StepInference)

/-- Setting an inference changes how steps are inferred, and nothing about the text. -/
theorem setInference_holding (other : StepInference) :
    (initial.holding text? inference).setInference other = initial.holding text? other := by
  cases text? with
  | none => rfl
  | some text =>
      simp [setInference, isLoaded, holding, ToolpathCache.isLoaded_update,
        ToolpathCache.rebuild_update]

variable [DecidableEq Key]

/-- The toolpath after actions, one after the other. -/
def run (toolpath : Toolpath Key) (actions : List ToolpathAction) : Toolpath Key :=
  actions.foldl ToolpathAction.apply toolpath

@[simp] theorem run_concat
    (toolpath : Toolpath Key)
    (actions : List ToolpathAction)
    (action : ToolpathAction) :
    toolpath.run (actions ++ [action]) = action.apply (toolpath.run actions) := by
  simp [run]

/-- Whether an action that loads something built it; none if it loads nothing. -/
def rebuilds? (toolpath : Toolpath Key) : ToolpathAction → Option Bool
  | .load text => some (toolpath.load text).2
  | .loadFile file => (toolpath.loadFile? file).map Prod.snd
  | .setInference _ => none

/-- Loading makes the text the held one, and builds it if it was not. -/
theorem load_holding
    {text : String}
    (separated :
      ∀ held ∈ text?, (TextKey.ofText held : Key) = TextKey.ofText text → held = text) :
    (initial.holding text? inference).load text =
      (initial.holding (some text) inference, decide (text? ≠ some text)) := by
  cases text? with
  | none => rfl
  | some held =>
      have keys : (TextKey.ofText held : Key) = TextKey.ofText text ↔ held = text :=
        ⟨separated held rfl, fun same => congrArg TextKey.ofText same⟩
      unfold load
      simp only [holding, ToolpathCache.needsUpdate_update, ne_eq, keys, decide_eq_true_eq]
      by_cases same : held = text
      · simp [same]
      · rw [ToolpathCache.update_eq (ToolpathCache.update _ _ _ _)]
        simp [same]

/-- An action that loads a text answers whether it differs from the held one. -/
theorem apply_holding
    (action : ToolpathAction)
    (separated :
      ∀ held ∈ text?, ∀ text ∈ action.text?,
        (TextKey.ofText held : Key) = TextKey.ofText text → held = text) :
    action.apply (initial.holding text? inference) =
        initial.holding (action.text?.or text?) (action.inference?.getD inference) ∧
      (initial.holding text? inference).rebuilds? action =
        action.text?.map fun text => decide (text? ≠ some text) := by
  cases action with
  | load text =>
      have loaded :=
        initial.load_holding inference fun held isHeld => separated held isHeld text rfl
      simp [ToolpathAction.apply, ToolpathAction.text?, ToolpathAction.inference?, rebuilds?,
        loaded]
  | loadFile file =>
      cases read : file.replacingText? with
      | none =>
          simp [ToolpathAction.apply, ToolpathAction.text?, ToolpathAction.inference?,
            rebuilds?, loadFile?, read]
      | some text =>
          have loaded :=
            initial.load_holding inference fun held isHeld => separated held isHeld text read
          simp [ToolpathAction.apply, ToolpathAction.text?, ToolpathAction.inference?,
            rebuilds?, loadFile?, read, loaded]
  | setInference other =>
      exact ⟨initial.setInference_holding inference other, rfl⟩

/-- A run leads to what the last text and the last inference make of a fresh toolpath. -/
theorem run_holding
    (actions : List ToolpathAction)
    (separated : TextKey.Separates Key (actions.filterMap ToolpathAction.text?)) :
    (initial.holding none inference).run actions =
      initial.holding (ToolpathAction.lastText? actions)
        ((ToolpathAction.lastInference? actions).getD inference) := by
  induction actions using List.reverseRecOn with
  | nil => rfl
  | append_singleton earlier action inductionHypothesis =>
      obtain ⟨separatedBefore, separatedHere⟩ := ToolpathAction.separated_of_append separated
      have applied :=
        initial.apply_holding ((ToolpathAction.lastInference? earlier).getD inference) action
          separatedHere
      rw [run_concat, inductionHypothesis separatedBefore, applied.1,
        ToolpathAction.lastText?_concat, ToolpathAction.lastInference?_concat]
      cases action.inference? <;> rfl

/-- What is observed of a run. -/
structure CoherentRun (initial : Toolpath Key) (actions : List ToolpathAction) : Prop where
  /-- The build of the text that was loaded last is held, with the last inference. -/
  holds :
    ∀ text ∈ ToolpathAction.lastText? actions,
      (initial.run actions).Holds (build initial.options text)
        ((ToolpathAction.lastInference? actions).getD initial.inference)
  /-- A text is built exactly when it is not the one that was loaded before it. -/
  rebuilds :
    ∀ before action after,
      actions = before ++ action :: after →
        (initial.run before).rebuilds? action =
          action.text?.map fun text => decide (ToolpathAction.lastText? before ≠ some text)
  /-- A file that cannot be read gives no answer and changes nothing. -/
  failures :
    ∀ before file after,
      actions = before ++ .loadFile file :: after →
        file.replacingText? = none →
          (initial.run before).loadFile? file = none ∧
            initial.run (before ++ [.loadFile file]) = initial.run before

/--
Every run from a fresh toolpath is coherent, if no two of the texts that it loads
have one key.
-/
theorem coherentRun
    (options : BuildOptions)
    (inference : StepInference)
    (mode : CursorMode)
    (slack : Float)
    (actions : List ToolpathAction)
    (separated : TextKey.Separates Key (actions.filterMap ToolpathAction.text?)) :
    CoherentRun (⟨options, inference, mode, slack, {}⟩ : Toolpath Key) actions where
  holds text isLast := by
    have reached :=
      run_holding ⟨options, inference, mode, slack, {}⟩ inference actions separated
    rw [Option.mem_def.mp isLast] at reached
    exact holds_of_cache (congrArg cache reached)
  rebuilds before action after split := by
    subst split
    obtain ⟨separatedBefore, separatedHere⟩ := ToolpathAction.separated_of_append separated
    have reached :=
      run_holding ⟨options, inference, mode, slack, {}⟩ inference before separatedBefore
    -- The run before the action leads to a state that its last text and inference determine.
    have applied :=
      apply_holding ⟨options, inference, mode, slack, {}⟩
        ((ToolpathAction.lastInference? before).getD inference) action separatedHere
    rw [← reached] at applied
    exact applied.2
  failures before file after split unreadable := by
    have failed (toolpath : Toolpath Key) : toolpath.loadFile? file = none := by
      rw [loadFile?, unreadable]
      rfl
    refine ⟨failed _, ?_⟩
    rw [run_concat, ToolpathAction.apply, failed]
    rfl

/--
Neither a new inference nor a file that is missing makes a toolpath build the same
text again.
-/
theorem coherentRun_reload :
    let earlier : List ToolpathAction :=
      [.load "G1 X1 E1", .setInference {}, .loadFile .missing]
    let actions := earlier ++ [.load "G1 X1 E1", .load "G1 X2 E2"]
    TextKey.Separates String (actions.filterMap ToolpathAction.text?) ∧
      CoherentRun (⟨{}, {}, .height, 0.05, {}⟩ : Toolpath String) actions ∧
      (run (⟨{}, {}, .height, 0.05, {}⟩ : Toolpath String) earlier).rebuilds?
        (.load "G1 X1 E1") = some false := by
  intro earlier actions
  have separated : TextKey.Separates String (actions.filterMap ToolpathAction.text?) :=
    fun _ _ _ _ same => same
  have coherent := coherentRun {} {} .height 0.05 actions separated
  exact ⟨separated, coherent, coherent.rebuilds earlier _ _ rfl⟩

end Toolpath

end LayerPlayback
