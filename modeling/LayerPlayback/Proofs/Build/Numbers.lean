import LayerPlayback.Proofs.Build.Replay
import LayerPlayback.Proofs.Model.Doubles

namespace LayerPlayback

/-!
# No NaN enters a build

Coordinates of a build may overflow, but none becomes NaN: the machine keeps its
numbers, and the layers take their doubles from motions of the machine.  The open
layer is therefore always at the tracked height, as doubles compare.
-/

/-- The segment of a motion between numbers has numbers only. -/
theorem Motion.isNaN_of_mem_doubles
    {motion : Motion}
    (number : motion.start.IsNumber ∧ motion.finish.IsNumber) :
    ∀ x ∈ motion.segment.doubles, x.isNaN = false :=
  List.forall_mem_append.mpr
    ⟨Position.forall_mem_doubles_point number.1, Position.forall_mem_doubles_point number.2⟩

namespace Machine

variable {machine : Machine}

/--
A layer at the height of a machine is followed by layers up to the height that a
replay reaches: a command either leaves the height as it is or draws a motion to it.
-/
theorem level_filledBy_drawings
    (xyzReset : Bool)
    (number : machine.IsNumber)
    {commands : List Command}
    (finite : ∀ command ∈ commands, command.axes.IsFinite)
    {layer : Layer}
    (level : (layer.z == machine.position.z) = true) :
    ∀ last ∈ (layer.filledBy (machine.drawings xyzReset commands)).getLast?,
      (last.z == (machine.follow xyzReset commands).position.z) = true := by
  induction commands generalizing machine layer with
  | nil =>
      intro last isLast
      obtain rfl : layer = last := by simpa [drawings, Layer.filledBy] using isLast
      exact level
  | cons command rest inductionHypothesis =>
      obtain ⟨commandFinite, restFinite⟩ := List.forall_mem_cons.mp finite
      have reached : (machine.obey xyzReset command).IsNumber :=
        isNumber_obey xyzReset number commandFinite
      unfold drawings
      cases drawn : machine.drawing? command with
      | none =>
          have unmoved := position_obey_of_drawing?_eq_none xyzReset number drawn
          have sameHeight :
              (machine.position.z == (machine.obey xyzReset command).position.z) = true :=
            Position.beq_eq_true_iff.mp unmoved .z
          exact inductionHypothesis reached restFinite (BEq.trans level sameHeight)
      | some motion =>
          have finish := (ends_of_drawing? xyzReset drawn).2
          rw [Option.toList_some, List.singleton_append]
          unfold Layer.filledBy
          -- The motion joins the layer or opens one, and either layer is at its height.
          split
          · next same =>
              rw [finish] at same
              exact inductionHypothesis reached restFinite same
          · have atFinish :
                ((Layer.push { z := motion.finish.z } motion.segment).z ==
                  (machine.obey xyzReset command).position.z) = true := by
              rw [Layer.z_push, finish]
              exact Binary64.beq_self (reached.position .z)
            have onward := inductionHypothesis reached restFinite atFinish
            obtain ⟨first, later, shape, _⟩ :=
              Layer.filledBy_eq_cons
                (Layer.push { z := motion.finish.z } motion.segment)
                (drawings xyzReset (machine.obey xyzReset command) rest)
            rw [shape] at onward ⊢
            rw [List.getLast?_cons_cons]
            exact onward

end Machine

namespace Builder

/-- A build without NaN, whose open layer is at the tracked height. -/
structure IsNumber (builder : Builder) : Prop where
  machine : builder.machine.IsNumber
  layers : ∀ layer ∈ builder.model.layers, ∀ x ∈ layer.doubles, x.isNaN = false
  level : (builder.openLayer.z == builder.machine.position.z) = true

theorem isNumber_withMachine
    (options : BuildOptions)
    {machine : Machine}
    (number : machine.IsNumber) :
    (withMachine options machine).IsNumber where
  machine := number
  layers := by
    have height : machine.position.z.isNaN = false := number.position .z
    simpa [withMachine, model, Layer.doubles] using height
  level := Binary64.beq_self (number.position .z)

variable {builder : Builder}

theorem toList_layers_model (builder : Builder) :
    builder.model.layers.toList = builder.closedLayers.toList ++ [builder.openLayer] :=
  Array.toList_push

/-- A model in the making has its closed layers and the open one. -/
theorem mem_layers_model {layer : Layer} :
    layer ∈ builder.model.layers ↔
      layer ∈ builder.closedLayers.toList ∨ layer = builder.openLayer := by
  rw [← Array.mem_toList_iff, toList_layers_model, List.mem_append, List.mem_singleton]

theorem getLast?_layersWith (motions : List Motion) :
    (builder.layersWith motions).getLast? = (builder.openLayer.filledBy motions).getLast? := by
  obtain ⟨first, rest, shape, _⟩ := builder.openLayer.filledBy_eq_cons motions
  rw [layersWith, shape]
  exact List.getLast?_append_of_ne_nil _ (List.cons_ne_nil _ _)

/-- One line, whatever it holds, brings no NaN into a build and keeps the height tracked. -/
theorem isNumber_feedLine
    (number : builder.IsNumber)
    (line : String)
    (lineNumber : Nat) :
    (builder.feedLine line lineNumber).IsNumber := by
  have finite :
      ∀ command ∈ (builder.decoder.decode line lineNumber).command?.toList,
        command.axes.IsFinite :=
    fun _ member => Decoder.isFinite_axes_of_decode (Option.mem_toList.mp member)
  have machine :
      (builder.feedLine line lineNumber).machine =
        builder.machine.follow builder.options.allowXyzReset
          (builder.decoder.decode line lineNumber).command?.toList :=
    builder.machine_addLine _
  have layers :
      (builder.feedLine line lineNumber).model.layers.toList =
        builder.layersWith
          (builder.machine.drawings builder.options.allowXyzReset
            (builder.decoder.decode line lineNumber).command?.toList) := by
    have added := builder.layersWith_addLine (builder.decoder.decode line lineNumber) []
    rw [List.append_nil] at added
    exact (toList_layers_model _).trans added
  refine ⟨?_, ?_, ?_⟩
  · rw [machine]
    exact Machine.isNumber_follow _ number.machine finite
  · intro layer member
    rw [← Array.mem_toList_iff, layers] at member
    rcases List.mem_append.mp member with isClosed | isFilled
    · exact number.layers layer (mem_layers_model.mpr (.inl isClosed))
    · refine (Layer.forall_mem_doubles_filledBy_iff _ _ _).mpr ⟨?_, ?_⟩ layer isFilled
      · exact number.layers builder.openLayer (mem_layers_model.mpr (.inr rfl))
      · intro motion drawn
        exact Motion.isNaN_of_mem_doubles
          (Machine.isNumber_of_mem_drawings _ number.machine finite drawn)
  · have last := Machine.level_filledBy_drawings builder.options.allowXyzReset number.machine
      finite number.level
    rw [machine]
    apply last
    rw [← getLast?_layersWith, ← layers, toList_layers_model]
    exact List.getLast?_concat

/-- No line of any sequence brings NaN into a build, and the height stays tracked. -/
theorem isNumber_feedLines
    (number : builder.IsNumber)
    (lines : List (String × Nat)) :
    (builder.feedLines lines).IsNumber :=
  List.foldlRecOn lines _ number
    fun _ reached (line, lineNumber) _ => isNumber_feedLine reached line lineNumber

/--
A build from a position without NaN stays without NaN, and its open layer stays at the
tracked height, whatever lines it is fed.
-/
theorem isNumber_reached
    (options : BuildOptions)
    {position : Position}
    (number : position.IsNumber)
    (lines : List (String × Nat)) :
    ((withMachine options (.startingAt position)).feedLines lines).IsNumber :=
  isNumber_feedLines (isNumber_withMachine options (Machine.isNumber_startingAt number)) lines

/-- From an infinite coordinate, relative moves, resets, and mode switches make no NaN. -/
theorem isNumber_reached_infinite :
    let position : Position := { x := Binary64.infinity }
    let lines : List (String × Nat) :=
      [("G91", 1), ("G1 X-1e308 Z1e308", 2), ("G1 Z1e308 Xinf", 3), ("G92 X5 Z1", 4),
        ("G90", 5), ("G1 X-1e308 Z-1e308 E1", 6)]
    let builder := (withMachine {} (.startingAt position)).feedLines lines
    position.IsNumber ∧ builder.IsNumber ∧
      builder.machine.offset.x = Binary64.infinity ∧
        builder.machine.position.z = Binary64.infinity := by
  intro position lines builder
  have number : position.IsNumber := by
    intro axis
    cases axis <;> decide
  exact ⟨number, isNumber_reached {} number lines, by decide +kernel, by decide +kernel⟩

end Builder

end LayerPlayback
