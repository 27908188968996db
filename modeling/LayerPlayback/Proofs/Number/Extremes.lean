import Mathlib.Order.Bounds.Basic
import LayerPlayback.Proofs.Number.Value

namespace LayerPlayback.Binary64

/-!
# The extremes of many numbers

The smaller and the larger of two numbers are so by their values.  Picking the smaller
one again and again therefore ends with the least value of a list, and picking the larger
one with the greatest.  The number to start from leaves no trace when some number of the
list is not beyond it.
-/

/-- The values of some doubles. -/
def values (numbers : List Float) : Set ℚ :=
  {v | v ∈ numbers.map value}

section Pair

variable {first second : Float}
  (firstNumber : first.isNaN = false) (secondNumber : second.isNaN = false)

include firstNumber secondNumber

/-- The smaller one of two numbers has the lesser value. -/
theorem value_smaller :
    (smaller first second).isNaN = false ∧
      value (smaller first second) = min (value first) (value second) := by
  unfold smaller
  rw [if_neg (Bool.eq_false_iff.mp firstNumber)]
  split
  · next less =>
      exact ⟨secondNumber, (min_eq_right (lt_iff.mp less).2.2.le).symm⟩
  · next notLess =>
      have ordered := le_iff.mp (le_of_not_lt firstNumber secondNumber notLess)
      exact ⟨firstNumber, (min_eq_left ordered.2.2).symm⟩

theorem value_larger :
    (larger first second).isNaN = false ∧
      value (larger first second) = max (value first) (value second) := by
  unfold larger
  rw [if_neg (Bool.eq_false_iff.mp firstNumber)]
  split
  · next less =>
      exact ⟨secondNumber, (max_eq_right (lt_iff.mp less).2.2.le).symm⟩
  · next notLess =>
      have ordered := le_iff.mp (le_of_not_lt secondNumber firstNumber notLess)
      exact ⟨firstNumber, (max_eq_left ordered.2.2).symm⟩

end Pair

/-- Picking by value again and again ends with the value that is picked among all values. -/
theorem value_foldl
    {pick : Float → Float → Float}
    {choose : ℚ → ℚ → ℚ}
    (picks : ∀ {first second : Float}, first.isNaN = false → second.isNaN = false →
      (pick first second).isNaN = false ∧
        value (pick first second) = choose (value first) (value second))
    {start : Float}
    {numbers : List Float}
    (startNumber : start.isNaN = false)
    (areNumbers : ∀ x ∈ numbers, x.isNaN = false) :
    (numbers.foldl pick start).isNaN = false ∧
      value (numbers.foldl pick start) = (numbers.map value).foldl choose (value start) := by
  induction numbers generalizing start with
  | nil => exact ⟨startNumber, rfl⟩
  | cons first rest inductionHypothesis =>
      obtain ⟨firstNumber, restNumbers⟩ := List.forall_mem_cons.mp areNumbers
      obtain ⟨pickedNumber, picked⟩ := picks startNumber firstNumber
      rw [List.foldl_cons, List.map_cons, List.foldl_cons, ← picked]
      exact inductionHypothesis pickedNumber restNumbers

/-- The minimum over a list leaves out a start that is not below all of the list. -/
theorem isLeast_foldl_min
    {α : Type}
    [LinearOrder α]
    {start x : α}
    {items : List α}
    (member : x ∈ items)
    (reached : x ≤ start) :
    IsLeast {y | y ∈ items} (items.foldl min start) := by
  obtain ⟨least, found⟩ := Option.isSome_iff_exists.mp (List.isSome_min?_of_mem member)
  obtain ⟨isItem, below⟩ := List.min?_eq_some_iff.mp found
  have leastBelowStart : least ≤ start := (below x member).trans reached
  rw [List.foldl_min, found, Option.getD_some, min_eq_right leastBelowStart]
  exact ⟨isItem, below⟩

section Fold

variable {start : Float} {numbers : List Float}
  (startNumber : start.isNaN = false) (areNumbers : ∀ x ∈ numbers, x.isNaN = false)

include startNumber areNumbers

/--
Picking the smaller one ends with a least value, once the start does not lie below all of
them.
-/
theorem isLeast_foldl_smaller (reached : ∃ x ∈ numbers, x ≤ start) :
    (numbers.foldl smaller start).isNaN = false ∧
      IsLeast (values numbers) (value (numbers.foldl smaller start)) := by
  obtain ⟨number, folded⟩ := value_foldl value_smaller startNumber areNumbers
  obtain ⟨x, member, notBeyond⟩ := reached
  rw [folded]
  exact ⟨number, isLeast_foldl_min (List.mem_map_of_mem member) (le_iff.mp notBeyond).2.2⟩

/-- The greatest value is the least one in the opposite order. -/
theorem isGreatest_foldl_larger (reached : ∃ x ∈ numbers, start ≤ x) :
    (numbers.foldl larger start).isNaN = false ∧
      IsGreatest (values numbers) (value (numbers.foldl larger start)) := by
  obtain ⟨number, folded⟩ := value_foldl value_larger startNumber areNumbers
  obtain ⟨x, member, notBeyond⟩ := reached
  rw [folded]
  exact ⟨number,
    @isLeast_foldl_min ℚᵒᵈ _ _ _ _ (List.mem_map_of_mem member) (le_iff.mp notBeyond).2.2⟩

end Fold

/-- Lists that hold the same numbers, as doubles compare. -/
structure SameNumbers (first second : List Float) : Prop where
  left : ∀ x ∈ first, ∃ y ∈ second, (x == y) = true
  right : ∀ y ∈ second, ∃ x ∈ first, (x == y) = true

namespace SameNumbers

variable {first second : List Float} {firstStart secondStart : Float}

theorem symm (same : SameNumbers first second) : SameNumbers second first where
  left y member :=
    have ⟨x, xMember, equal⟩ := same.right y member
    ⟨x, xMember, BEq.symm equal⟩
  right x member :=
    have ⟨y, yMember, equal⟩ := same.left x member
    ⟨y, yMember, BEq.symm equal⟩

theorem trans
    {third : List Float}
    (same : SameNumbers first second)
    (alsoSame : SameNumbers second third) :
    SameNumbers first third where
  left x member :=
    have ⟨y, yMember, equal⟩ := same.left x member
    have ⟨z, zMember, alsoEqual⟩ := alsoSame.left y yMember
    ⟨z, zMember, BEq.trans equal alsoEqual⟩
  right z member :=
    have ⟨y, yMember, alsoEqual⟩ := alsoSame.right z member
    have ⟨x, xMember, equal⟩ := same.right y yMember
    ⟨x, xMember, BEq.trans equal alsoEqual⟩

variable (same : SameNumbers first second)

include same

/-- Only numbers are equal to anything. -/
theorem isNaN_left : ∀ x ∈ first, x.isNaN = false := by
  intro x member
  obtain ⟨_, _, equal⟩ := same.left x member
  exact (beq_iff.mp equal).1

theorem values_subset : values first ⊆ values second := by
  intro v member
  obtain ⟨x, xMember, rfl⟩ := List.mem_map.mp member
  obtain ⟨y, yMember, equal⟩ := same.left x xMember
  exact List.mem_map.mpr ⟨y, yMember, (beq_iff.mp equal).2.2.symm⟩

/-- The same numbers have the same values. -/
theorem values_eq : values first = values second :=
  Set.Subset.antisymm same.values_subset same.symm.values_subset

/-- The smallest of the same numbers is the same, from wherever it is looked for. -/
theorem foldl_smaller_beq
    (firstNumber : firstStart.isNaN = false)
    (secondNumber : secondStart.isNaN = false)
    (firstReached : ∃ x ∈ first, x ≤ firstStart)
    (secondReached : ∃ y ∈ second, y ≤ secondStart) :
    (first.foldl smaller firstStart == second.foldl smaller secondStart) = true := by
  obtain ⟨firstLeastNumber, firstLeast⟩ :=
    isLeast_foldl_smaller firstNumber same.isNaN_left firstReached
  obtain ⟨secondLeastNumber, secondLeast⟩ :=
    isLeast_foldl_smaller secondNumber same.symm.isNaN_left secondReached
  rw [← same.values_eq] at secondLeast
  exact beq_iff.mpr ⟨firstLeastNumber, secondLeastNumber, firstLeast.unique secondLeast⟩

theorem foldl_larger_beq
    (firstNumber : firstStart.isNaN = false)
    (secondNumber : secondStart.isNaN = false)
    (firstReached : ∃ x ∈ first, firstStart ≤ x)
    (secondReached : ∃ y ∈ second, secondStart ≤ y) :
    (first.foldl larger firstStart == second.foldl larger secondStart) = true := by
  obtain ⟨firstGreatestNumber, firstGreatest⟩ :=
    isGreatest_foldl_larger firstNumber same.isNaN_left firstReached
  obtain ⟨secondGreatestNumber, secondGreatest⟩ :=
    isGreatest_foldl_larger secondNumber same.symm.isNaN_left secondReached
  rw [← same.values_eq] at secondGreatest
  exact beq_iff.mpr
    ⟨firstGreatestNumber, secondGreatestNumber, firstGreatest.unique secondGreatest⟩

end SameNumbers

end LayerPlayback.Binary64
