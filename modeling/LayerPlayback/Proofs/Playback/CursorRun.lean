import LayerPlayback.Proofs.Number.Nearest
import LayerPlayback.Proofs.Model.HeightRange
import LayerPlayback.Proofs.Playback.Reveal

namespace LayerPlayback

/-!
# Cursors stay in range

Whatever is done to a cursor, its bounds do not cross and its progress stays
between zero and the number of segments that can be revealed.  Rescaling divides
and multiplies doubles, but rounding passes no double: a share is at most one, and
a share of a count is at most that count.
-/

namespace LayerWindow

variable {window : LayerWindow}

/-- Bounds are put in order when a window is made of them. -/
theorem ordered_between
    {lower upper : Float}
    (lowerNumber : lower.isNaN = false)
    (upperNumber : upper.isNaN = false) :
    (between lower upper).lower ≤ (between lower upper).upper :=
  Binary64.right_le_larger upperNumber lowerNumber

/-- A lower bound that is set above the upper one takes it along. -/
theorem ordered_setLower
    {value : Float}
    (ordered : window.lower ≤ window.upper)
    (number : value.isNaN = false) :
    (window.setLower value).lower ≤ (window.setLower value).upper := by
  obtain ⟨_, upperNumber, _⟩ := Binary64.le_iff.mp ordered
  unfold setLower
  dsimp only
  split
  · exact Binary64.le_refl_of_number number
  · next notLess => exact Binary64.le_of_not_lt number upperNumber notLess

theorem ordered_setUpper
    {value : Float}
    (ordered : window.lower ≤ window.upper)
    (number : value.isNaN = false) :
    (window.setUpper value).lower ≤ (window.setUpper value).upper := by
  obtain ⟨lowerNumber, _, _⟩ := Binary64.le_iff.mp ordered
  unfold setUpper
  dsimp only
  split
  · exact Binary64.le_refl_of_number number
  · next notLess => exact Binary64.le_of_not_lt lowerNumber number notLess

end LayerWindow

namespace ViewCursor

/-- A cursor whose bounds do not cross and whose progress is in its range. -/
structure InRange (cursor : ViewCursor) : Prop where
  ordered : cursor.window.lower ≤ cursor.window.upper
  number : cursor.progress.isNaN = false
  nonneg : 0.0 ≤ cursor.progress
  atMost : cursor.progress ≤ Float.ofNat cursor.progressMax
  /-- The number of segments fits into 64 bits. -/
  fits : cursor.progressMax < 2 ^ 64

/-- What is clamped lies between zero and the greatest value; NaN ends up there too. -/
theorem clamped_inRange (value : Float) {greatest : Float} (nonneg : 0.0 ≤ greatest) :
    0.0 ≤ clamped value greatest ∧ clamped value greatest ≤ greatest := by
  obtain ⟨zeroNumber, greatestNumber, _⟩ := Binary64.le_iff.mp nonneg
  unfold clamped
  split
  · exact ⟨Binary64.le_refl_of_number zeroNumber, nonneg⟩
  · next notBelow =>
      rw [Bool.or_eq_true, decide_eq_true_eq, not_or] at notBelow
      have number : value.isNaN = false := Bool.eq_false_iff.mpr notBelow.1
      split
      · exact ⟨nonneg, Binary64.le_refl_of_number greatestNumber⟩
      · next notAbove =>
          exact ⟨Binary64.le_of_not_lt zeroNumber number notBelow.2,
            Binary64.le_of_not_lt number greatestNumber notAbove⟩

theorem zero_le_ofNat (count : Nat) : 0.0 ≤ Float.ofNat count :=
  Binary64.le_iff.mpr ⟨rfl, Binary64.isNaN_ofNat count, Binary64.value_ofNat_nonneg count⟩

/-- The revealed share lies between zero and one. -/
theorem fraction_inRange {cursor : ViewCursor} (inRange : cursor.InRange) :
    cursor.fraction.isNaN = false ∧
      0 ≤ Binary64.value cursor.fraction ∧ Binary64.value cursor.fraction ≤ 1 := by
  unfold fraction
  split
  · exact ⟨rfl, Binary64.value_one.symm ▸ zero_le_one, Binary64.value_one.le⟩
  · next nonempty =>
      have positive : 0 < cursor.progressMax := Nat.pos_of_ne_zero nonempty
      have countFinite := Binary64.isFinite_ofNat inRange.fits
      have countPositive : 0 < Binary64.value (Float.ofNat cursor.progressMax) :=
        zero_lt_one.trans_le (Binary64.one_le_value_ofNat positive)
      have nonneg : 0 ≤ Binary64.value cursor.progress :=
        (Binary64.le_iff.mp inRange.nonneg).2.2
      have atMost := (Binary64.le_iff.mp inRange.atMost).2.2
      have progressFinite : cursor.progress.isFinite = true := by
        rw [Binary64.isFinite_iff] at countFinite ⊢
        rw [abs_of_pos countPositive] at countFinite
        rw [abs_of_nonneg nonneg]
        exact ⟨inRange.number, atMost.trans_lt countFinite.2⟩
      have rounds := Binary64.rounds_div progressFinite countFinite countPositive.ne'
      refine ⟨rounds.number,
        rounds.atLeast 0.0 rfl (div_nonneg nonneg countPositive.le), ?_⟩
      have shareAtMost := rounds.atMost 1.0 rfl
      rw [Binary64.value_one] at shareAtMost
      exact shareAtMost (div_le_one_of_le₀ atMost countPositive.le)

/-- Rescaling rounds, and still keeps the progress within the new maximum. -/
theorem rescale_inRange
    {cursor : ViewCursor}
    (inRange : cursor.InRange)
    {count : Nat}
    (fits : count < 2 ^ 64) :
    (cursor.rescale count).InRange := by
  unfold rescale
  split
  · exact inRange
  · obtain ⟨number, nonneg, atMost⟩ := fraction_inRange inRange
    have shareFinite : cursor.fraction.isFinite = true := by
      rw [Binary64.isFinite_iff, abs_of_nonneg nonneg]
      exact ⟨number, atMost.trans_lt (one_lt_pow₀ one_lt_two (by norm_num))⟩
    have countNonneg := Binary64.value_ofNat_nonneg count
    have rounds := Binary64.rounds_mul shareFinite (Binary64.isFinite_ofNat fits)
    exact
      { ordered := inRange.ordered
        number := rounds.number
        nonneg := Binary64.le_iff.mpr ⟨rfl, rounds.number,
          rounds.atLeast 0.0 rfl (mul_nonneg nonneg countNonneg)⟩
        atMost := Binary64.le_iff.mpr ⟨rounds.number, Binary64.isNaN_ofNat count,
          rounds.atMost _ (Binary64.isNaN_ofNat count)
            (mul_le_of_le_one_left countNonneg atMost)⟩
        fits := fits }

theorem ofWindow_inRange
    {window : LayerWindow}
    (ordered : window.lower ≤ window.upper) :
    (ofWindow window).InRange :=
  { ordered := ordered
    number := Binary64.isNaN_zero
    nonneg := Binary64.le_refl_of_number Binary64.isNaN_zero
    atMost := zero_le_ofNat 0
    fits := by change 0 < 2 ^ 64; norm_num }

end ViewCursor

/-- The segments of a model are those of its layers, counted layer by layer. -/
theorem Model.segmentCount_eq (model : Model) :
    model.segmentCount = (model.indexedLayers.map fun (layer, _) => layer.pointCount).sum := by
  have layers : model.indexedLayers.map Prod.fst = model.layers.toList :=
    List.zipIdx_map_fst 0 model.layers.toList
  rw [segmentCount, foldl_add_eq, Nat.zero_add, ← layers, List.map_map]
  rfl

namespace WindowEngine

variable (engine : WindowEngine) (model : Model)

/-- A window cannot reveal more than there is. -/
theorem revealablePoints_le (window : LayerWindow) :
    engine.revealablePoints model window ≤ model.segmentCount := by
  rw [revealablePoints, foldl_add_eq, Nat.zero_add, Model.segmentCount_eq]
  exact (List.filter_sublist.map _).sum_le_sum fun _ _ => Nat.zero_le _

/-- Both ends of the range of a cursor are numbers, also for a model without layers. -/
theorem isNaN_cursorRange :
    (engine.cursorRange model).1.isNaN = false ∧ (engine.cursorRange model).2.isNaN = false := by
  unfold cursorRange
  cases engine.mode with
  | layerIndex => exact ⟨Binary64.isNaN_zero, Binary64.isNaN_ofNat _⟩
  | height => exact model.isNaN_heightRange

/-- Following a model keeps a cursor in range, whatever its window is. -/
theorem sync_inRange
    {cursor : ViewCursor}
    (inRange : cursor.InRange)
    (fits : model.segmentCount < 2 ^ 64) :
    (engine.sync model cursor).InRange :=
  ViewCursor.rescale_inRange inRange
    ((engine.revealablePoints_le model cursor.window).trans_lt fits)

/-- A cursor that shows a whole model starts out in range. -/
theorem fullCursor_inRange (fits : model.segmentCount < 2 ^ 64) :
    (engine.fullCursor model).InRange := by
  obtain ⟨lowerNumber, upperNumber⟩ := engine.isNaN_cursorRange model
  exact engine.sync_inRange model
    (ViewCursor.ofWindow_inRange (LayerWindow.ordered_between lowerNumber upperNumber)) fits

end WindowEngine

/-- What a caller does to a cursor. -/
inductive CursorAction where
  | setLower (value : Float)
  | setUpper (value : Float)
  | setProgress (value : Float)
  | rescale (count : Nat)
  | sync (engine : WindowEngine) (model : Model)
  | update (engine : WindowEngine) (model : Model)

namespace CursorAction

/-- The cursor after an action. -/
def apply (cursor : ViewCursor) : CursorAction → ViewCursor
  | setLower value => cursor.setLower value
  | setUpper value => cursor.setUpper value
  | setProgress value => cursor.setProgress value
  | rescale count => cursor.rescale count
  | sync engine model => engine.sync model cursor
  | update engine model => (engine.update model cursor).1

/-- Bounds are numbers, and counts fit into 64 bits. -/
def IsAdmissible : CursorAction → Prop
  | setLower value => value.isNaN = false
  | setUpper value => value.isNaN = false
  | setProgress _ => True
  | rescale count => count < 2 ^ 64
  | sync _ model => model.segmentCount < 2 ^ 64
  | update _ model => model.segmentCount < 2 ^ 64

instance : DecidablePred IsAdmissible
  | setLower value => inferInstanceAs (Decidable (value.isNaN = false))
  | setUpper value => inferInstanceAs (Decidable (value.isNaN = false))
  | setProgress _ => inferInstanceAs (Decidable True)
  | rescale count => inferInstanceAs (Decidable (count < 2 ^ 64))
  | sync _ model => inferInstanceAs (Decidable (model.segmentCount < 2 ^ 64))
  | update _ model => inferInstanceAs (Decidable (model.segmentCount < 2 ^ 64))

/-- How an action may move the bounds of a window: a bound is pushed when it would be crossed. -/
def MovesBounds (before after : LayerWindow) : CursorAction → Prop
  | setLower value =>
      after.lower = value ∧
        after.upper = if before.upper < value then value else before.upper
  | setUpper value =>
      after.upper = value ∧
        after.lower = if value < before.lower then value else before.lower
  | _ => after = before

end CursorAction

namespace ViewCursor

/-- The cursor after some actions. -/
def run (cursor : ViewCursor) (actions : List CursorAction) : ViewCursor :=
  actions.foldl CursorAction.apply cursor

/-- Rescaling leaves the window alone. -/
theorem window_rescale (cursor : ViewCursor) (count : Nat) :
    (cursor.rescale count).window = cursor.window := by
  unfold rescale
  split <;> rfl

/-- Every operation keeps a cursor in range; this is the step of the run. -/
theorem apply_inRange
    {cursor : ViewCursor}
    (inRange : cursor.InRange)
    {action : CursorAction}
    (admissible : action.IsAdmissible) :
    (action.apply cursor).InRange := by
  cases action with
  | setLower value =>
      exact { inRange with ordered := LayerWindow.ordered_setLower inRange.ordered admissible }
  | setUpper value =>
      exact { inRange with ordered := LayerWindow.ordered_setUpper inRange.ordered admissible }
  | setProgress value =>
      obtain ⟨nonneg, atMost⟩ := clamped_inRange value (zero_le_ofNat cursor.progressMax)
      exact
        { inRange with
          number := (Binary64.le_iff.mp atMost).1
          nonneg := nonneg
          atMost := atMost }
  | rescale count => exact rescale_inRange inRange admissible
  | sync engine model => exact engine.sync_inRange model inRange admissible
  | update engine model => exact engine.sync_inRange model inRange admissible

/-- A run of operations keeps a cursor in range. -/
theorem run_inRange
    {cursor : ViewCursor}
    (inRange : cursor.InRange)
    {actions : List CursorAction}
    (admissible : ∀ action ∈ actions, action.IsAdmissible) :
    (cursor.run actions).InRange :=
  List.foldlRecOn actions CursorAction.apply inRange
    fun _ reached action member => apply_inRange reached (admissible action member)

/-- An operation moves the bounds that it is about, and no others. -/
theorem movesBounds_apply (cursor : ViewCursor) (action : CursorAction) :
    action.MovesBounds cursor.window (action.apply cursor).window := by
  cases action with
  | setLower value => exact ⟨rfl, rfl⟩
  | setUpper value => exact ⟨rfl, rfl⟩
  | setProgress value => rfl
  | rescale count => exact window_rescale cursor count
  | sync engine model => exact window_rescale cursor _
  | update engine model => exact window_rescale cursor _

theorem run_concat (cursor : ViewCursor) (actions : List CursorAction) (action : CursorAction) :
    cursor.run (actions ++ [action]) = action.apply (cursor.run actions) := by
  rw [run, List.foldl_append]
  rfl

/-- The cursors that callers start with. -/
inductive IsStart : ViewCursor → Prop where
  | ofWindow
      {lower upper : Float}
      (lowerNumber : lower.isNaN = false)
      (upperNumber : upper.isNaN = false) :
      IsStart (.ofWindow (.between lower upper))
  | full
      (engine : WindowEngine)
      {model : Model}
      (fits : model.segmentCount < 2 ^ 64) :
      IsStart (engine.fullCursor model)

/-- Every way to obtain a cursor starts in range; this is the start of the run. -/
theorem IsStart.inRange {cursor : ViewCursor} (isStart : cursor.IsStart) : cursor.InRange := by
  cases isStart with
  | ofWindow lowerNumber upperNumber =>
      exact ofWindow_inRange (LayerWindow.ordered_between lowerNumber upperNumber)
  | full engine fits => exact engine.fullCursor_inRange _ fits

/-- A run that keeps a cursor in range and moves its bounds only as it is told to. -/
structure StaysInRange (start : ViewCursor) (actions : List CursorAction) : Prop where
  /-- The cursor is in range after each of the actions. -/
  inRange : ∀ before after, actions = before ++ after → (start.run before).InRange
  /-- Each action moves the bounds only by setting one, which may push the other. -/
  bounds :
    ∀ before action after,
      actions = before ++ action :: after →
        action.MovesBounds (start.run before).window (start.run (before ++ [action])).window

/-- Every run from a start cursor stays in range. -/
theorem staysInRange_run
    {start : ViewCursor}
    (isStart : start.IsStart)
    (actions : List CursorAction)
    (admissible : ∀ action ∈ actions, action.IsAdmissible) :
    StaysInRange start actions where
  inRange before after split := by
    subst split
    exact run_inRange isStart.inRange
      fun action member => admissible action (List.mem_append_left _ member)
  bounds before action after split := by
    rw [run_concat]
    exact movesBounds_apply (start.run before) action

/-- A lower bound that passes the upper one takes it along, and too much progress is cut. -/
theorem staysInRange_crossing :
    let start : ViewCursor := .ofWindow (.between 0.2 0.6)
    let actions : List CursorAction :=
      [.setLower 0.8, .rescale 3, .setProgress Binary64.infinity, .sync {} .empty]
    (start.IsStart ∧ ∀ action ∈ actions, action.IsAdmissible) ∧
      StaysInRange start actions ∧
      ((start.run actions).window == ⟨0.8, 0.8⟩) = true := by
  intro start actions
  have isStart : start.IsStart := .ofWindow rfl rfl
  have admissible : ∀ action ∈ actions, action.IsAdmissible := by decide +kernel
  exact ⟨⟨isStart, admissible⟩, staysInRange_run isStart actions admissible, by decide +kernel⟩

end ViewCursor

end LayerPlayback
