import LayerPlayback.Number.Literal
import LayerPlayback.Number.Text
import LayerPlayback.Proofs.Number.Digits
import LayerPlayback.Proofs.Number.Nearest
import LayerPlayback.Proofs.Text.Scanner

namespace LayerPlayback

/-!
# Pointed text is read back

The text of a finite double with a point has a sign, whole digits, and digits after
the point; reading it as a number gives the double again, down to the sign of zero.
-/

open Binary64

namespace Decimal

/-- Once its zeros are written out, a decimal has no places in front of the point left over. -/
theorem expanded_exponent_le (number : Decimal) : number.expanded.exponent ≤ 0 :=
  min_le_right _ _

/-- A decimal without trailing zeros to write out stays as it is. -/
theorem expanded_of_exponent_le {number : Decimal} (fractional : number.exponent ≤ 0) :
    number.expanded = number := by
  have noZeros : number.exponent.toNat = 0 := Int.toNat_of_nonpos fractional
  rw [expanded, noZeros, min_eq_left fractional]
  exact congrArg (fun coefficient => (⟨coefficient, number.exponent⟩ : Decimal)) (Nat.mul_one _)

/-- The exact expansion has a place for each binary place. -/
theorem exponent_exact (size : Magnitude) : (exact size).exponent = min size.exponent 0 := by
  obtain ⟨significand, exponent⟩ := size
  cases exponent with
  | ofNat up => exact (min_eq_right (Int.natCast_nonneg up)).symm
  | negSucc down =>
      rw [min_eq_left (Int.negSucc_lt_zero down).le, Int.negSucc_eq]
      rfl

/-- The exact expansion of a magnitude has the same value. -/
theorem value_exact (size : Magnitude) :
    ((exact size).coefficient : ℚ) * 10 ^ (exact size).exponent =
      scaled size.significand size.exponent := by
  unfold exact scaled
  split
  · next up isUp =>
      rw [isUp]
      simp
  · next down isDown =>
      have ten : (10 : ℚ) = 5 * 2 := by norm_num
      have places : ((down : Int) + 1) = (down + 1 : Nat) := by norm_cast
      rw [isDown, Int.negSucc_eq, places, ten, mul_zpow, zpow_neg, zpow_neg, zpow_natCast,
        zpow_natCast]
      have power : ((Nat.pow 5 (down + 1) : Nat) : ℚ) = 5 ^ (down + 1) := by
        exact_mod_cast rfl
      rw [Nat.cast_mul, power]
      field_simp

theorem exponent_magnitude_ge (x : Float) : -1074 ≤ (magnitude x).exponent := by
  unfold magnitude
  split
  · exact le_rfl
  · dsimp only
    omega

/-- The shortest decimal for a double that is not negative rounds to that double. -/
theorem nearest_shortest
    (tie : Tie)
    {x : Float}
    (finite : x.isFinite = true)
    (positive : 0 < value x) :
    (shortest tie x).expanded.nearest = x := by
  have number := isNaN_of_isFinite finite
  have readsBack : (shortest tie x).expanded.nearest == x := by
    unfold shortest
    dsimp only
    cases found : (List.range 20).findSome? fun (finer : Nat) =>
        onGrid? tie x (coarsestUnit (magnitude x) - finer) with
    | some decimal =>
        obtain ⟨finer, _, onGrid⟩ := List.exists_of_findSome?_eq_some found
        exact readsBack_of_onGrid? onGrid
    | none =>
        have places := exponent_exact (magnitude x)
        have least := exponent_magnitude_ge x
        rw [Option.getD_none, expanded_of_exponent_le (by omega)]
        have rounds := rounds_nearest (exact (magnitude x)) (by omega) (by omega)
        rw [value_exact, ← value_eq_magnitude_of_nonneg finite positive.le] at rounds
        exact beq_iff.mpr ⟨rounds.number, number, rounds.value_eq number rfl⟩
  refine eq_of_beq readsBack ?_
  rw [(beq_iff.mp readsBack).2.2]
  exact positive.ne'

end Decimal

namespace NumberText

open NumberLiteral
open Scanner (Ends ends_cons ends_nil takeWhile_append_of_ends dropWhile_append_of_ends)

/-- The sign in front of a number. -/
def signText (negative : Bool) : List Char :=
  if negative then ['-'] else []

/-- A text that starts with a digit. -/
def StartsWithDigit (text : List Char) : Prop :=
  ∃ first others, text = first :: others ∧ first.isDigit = true

/-- The digits of a natural number start with a digit, whatever stands behind them. -/
theorem startsWithDigit_naturalDigits (value : Nat) (rest : List Char) :
    StartsWithDigit (naturalDigits value ++ rest) := by
  obtain ⟨first, others, shape⟩ := List.exists_cons_of_ne_nil (naturalDigits_ne_nil value)
  exact ⟨first, others ++ rest, by rw [shape, List.cons_append],
    isDigit_of_mem_naturalDigits (shape ▸ List.mem_cons_self)⟩

/-- A sign is split off exactly where it is written. -/
theorem splitSign_signText
    (negative : Bool)
    {magnitude : List Char}
    (starts : StartsWithDigit magnitude) :
    splitSign (signText negative ++ magnitude) = (negative, magnitude) := by
  obtain ⟨first, others, rfl, isDigit⟩ := starts
  cases negative with
  | true => rfl
  | false =>
      change splitSign (first :: others) = _
      unfold splitSign
      split
      · next minus =>
          obtain rfl := (List.cons.inj minus).1
          cases isDigit
      · next plus =>
          obtain rfl := (List.cons.inj plus).1
          cases isDigit
      · rfl

/-- Digits with a point in between are read as a decimal. -/
theorem decimal?_pointed
    (whole : Nat)
    {fraction : List Char}
    (digits : ∀ digit ∈ fraction, digit.isDigit = true) :
    decimal? (naturalDigits whole ++ '.' :: fraction) =
      some ⟨digitsValue (naturalDigits whole ++ fraction), -fraction.length⟩ := by
  have wholeDigits : ∀ digit ∈ naturalDigits whole, digit.isDigit = true :=
    fun _ => isDigit_of_mem_naturalDigits
  have ends : Ends Char.isDigit ('.' :: fraction) := ends_cons rfl fraction
  have fractionTaken := takeWhile_append_of_ends digits (ends_nil Char.isDigit)
  have fractionDropped := dropWhile_append_of_ends digits (ends_nil Char.isDigit)
  rw [List.append_nil] at fractionTaken fractionDropped
  have nonempty := naturalDigits_ne_nil whole
  unfold decimal?
  rw [takeWhile_append_of_ends wholeDigits ends, dropWhile_append_of_ends wholeDigits ends]
  simp [splitFraction, fractionTaken, fractionDropped, exponent?, nonempty]

/-- Digits with a given number of places have a point unless there are no places. -/
theorem exists_withPlaces (coefficient : Nat) {places : Nat} (positive : 0 < places) :
    ∃ whole fraction,
      withPlaces coefficient places = naturalDigits whole ++ '.' :: fraction ∧
        isDigits fraction = true ∧
        digitsValue (naturalDigits whole ++ fraction) = coefficient ∧
        fraction.length = places := by
  have power : 0 < Nat.pow 10 places := Nat.pow_pos (by decide)
  have short : (naturalDigits (coefficient % Nat.pow 10 places)).length ≤ places :=
    length_naturalDigits_le positive (Nat.mod_lt coefficient power)
  have length :
      (List.replicate (places - (naturalDigits (coefficient % Nat.pow 10 places)).length) '0'
        ++ naturalDigits (coefficient % Nat.pow 10 places)).length = places := by
    rw [List.length_append, List.length_replicate]
    omega
  refine ⟨coefficient / Nat.pow 10 places, _, ?_, ?_, ?_, length⟩
  · rw [withPlaces, if_neg positive.ne', List.append_assoc]
    rfl
  · rw [isDigits_iff]
    refine ⟨?_, ?_⟩
    · intro isNil
      rw [isNil] at length
      exact positive.ne length
    · intro digit member
      rcases List.mem_append.mp member with zero | inDigits
      · rw [List.eq_of_mem_replicate zero]
        rfl
      · exact isDigit_of_mem_naturalDigits inDigits
  · rw [digitsValue_append, length, digitsValue_zeros, digitsValue_naturalDigits,
      digitsValue_naturalDigits]
    exact Nat.div_add_mod' coefficient (Nat.pow 10 places)

/-- The text of a decimal with a point. -/
def pointedText (characters : List Char) : List Char :=
  if characters.contains '.' then characters else characters ++ ['.', '0']

/-- The pointed text of a decimal is read as the double that the decimal rounds to. -/
theorem exists_pointedText {number : Decimal} (fractional : number.exponent ≤ 0) :
    ∃ whole fraction,
      pointedText (withPlaces number.coefficient number.exponent.natAbs) =
        naturalDigits whole ++ '.' :: fraction ∧
        isDigits fraction = true ∧
        (decimal? (naturalDigits whole ++ '.' :: fraction)).map Decimal.nearest =
          some number.nearest := by
  obtain ⟨coefficient, exponent⟩ := number
  dsimp only at fractional ⊢
  obtain ⟨places, rfl⟩ : ∃ places : Nat, exponent = -places := ⟨exponent.natAbs, by omega⟩
  rw [Int.natAbs_neg, Int.natAbs_natCast]
  by_cases whole : places = 0
  · have zeroDigit : isDigits ['0'] = true := rfl
    have noPoint : (naturalDigits coefficient).contains '.' = false := by
      rw [Bool.eq_false_iff, ne_eq, List.contains_iff_mem]
      intro member
      have isDigit := isDigit_of_mem_naturalDigits member
      cases isDigit
    refine ⟨coefficient, ['0'], ?_, zeroDigit, ?_⟩
    · rw [withPlaces, if_pos whole, pointedText, noPoint, if_neg Bool.false_ne_true]
    · rw [decimal?_pointed coefficient (isDigits_iff.mp zeroDigit).2, Option.map_some,
        digitsValue_append, digitsValue_naturalDigits, whole]
      exact congrArg some (nearest_tenths coefficient)
  · obtain ⟨wholePart, fraction, text, digits, value, length⟩ :=
      exists_withPlaces coefficient (Nat.pos_of_ne_zero whole)
    refine ⟨wholePart, fraction, ?_, digits, ?_⟩
    · rw [text, pointedText, if_pos (by simp)]
    · rw [decimal?_pointed wholePart (isDigits_iff.mp digits).2, Option.map_some, value, length]

/-- A finite double is written as its sign and the shortest digits that are read back. -/
theorem plainCharacters_eq {x : Float} (finite : x.isFinite = true) :
    plainCharacters x = signText (isNegative x) ++ shortestMagnitude x := by
  rw [plainCharacters, isNaN_of_isFinite finite, if_neg Bool.false_ne_true, if_pos finite, signed,
    signText]
  cases isNegative x <;> rfl

/-- With a point, whole doubles get a place behind it. -/
theorem toList_pointed {x : Float} (finite : x.isFinite = true) :
    (pointed x).toList = signText (isNegative x) ++ pointedText (shortestMagnitude x) := by
  have signedText := plainCharacters_eq finite
  have sameContains :
      (plainCharacters x).contains '.' = (shortestMagnitude x).contains '.' := by
    rw [signedText, signText]
    cases isNegative x <;> rfl
  rw [pointed, pointedText, finite, Bool.true_and, sameContains]
  cases (shortestMagnitude x).contains '.' with
  | true =>
      rw [Bool.not_true, if_neg Bool.false_ne_true, if_pos rfl, String.toList_ofList, signedText]
  | false =>
      rw [Bool.not_false, if_pos rfl, if_neg Bool.false_ne_true, String.toList_append,
        String.toList_ofList, signedText, List.append_assoc]
      rfl

/-- An infinity has a name, and no digits. -/
theorem toList_pointed_of_infinite
    {x : Float}
    (number : x.isNaN = false)
    (infinite : x.isFinite = false) :
    (pointed x).toList = signText (isNegative x) ++ ['i', 'n', 'f'] := by
  rw [pointed, infinite, Bool.false_and, if_neg Bool.false_ne_true, String.toList_ofList,
    plainCharacters, number, if_neg Bool.false_ne_true, infinite, if_neg Bool.false_ne_true, signed,
    signText]
  cases isNegative x <;> rfl

/-- The magnitude of a finite double is written as a decimal that is rounded to it. -/
theorem exists_shortestMagnitude_eq {x : Float} (finite : x.isFinite = true) :
    ∃ number : Decimal,
      shortestMagnitude x = withPlaces number.coefficient number.exponent.natAbs ∧
        number.exponent ≤ 0 ∧ number.nearest = x.abs := by
  have number := isNaN_of_isFinite finite
  unfold shortestMagnitude
  by_cases zero : (x == 0.0) = true
  · rw [if_pos zero, abs_eq_zero zero]
    exact ⟨⟨0, 0⟩, rfl, le_rfl, rfl⟩
  · rw [if_neg zero]
    have positive : 0 < value x.abs := by
      rw [value_abs number, abs_pos]
      exact fun isZero => zero (beq_iff.mpr ⟨number, isNaN_zero, isZero⟩)
    exact ⟨_, rfl, Decimal.expanded_exponent_le _,
      Decimal.nearest_shortest .upward (isFinite_abs finite) positive⟩

/-- The magnitude of a finite double is read back from its text. -/
theorem exists_shortestMagnitude {x : Float} (finite : x.isFinite = true) :
    ∃ whole fraction,
      pointedText (shortestMagnitude x) = naturalDigits whole ++ '.' :: fraction ∧
        isDigits fraction = true ∧
        (decimal? (naturalDigits whole ++ '.' :: fraction)).map Decimal.nearest = some x.abs := by
  obtain ⟨number, written, fractional, nearest⟩ := exists_shortestMagnitude_eq finite
  rw [written, ← nearest]
  exact exists_pointedText fractional

/-- A finite double is read back from its pointed text. -/
theorem exists_pointed {x : Float} (finite : x.isFinite = true) :
    ∃ whole fraction,
      (pointed x).toList =
        signText (isNegative x) ++ (naturalDigits whole ++ '.' :: fraction) ∧
        isDigits fraction = true ∧
        number? (pointed x).toList = some x := by
  obtain ⟨whole, fraction, text, digits, reads⟩ := exists_shortestMagnitude finite
  have isText := toList_pointed finite
  rw [text] at isText
  refine ⟨whole, fraction, isText, digits, ?_⟩
  rw [isText]
  have sign :=
    splitSign_signText (isNegative x) (startsWithDigit_naturalDigits whole ('.' :: fraction))
  rw [number?, sign]
  dsimp only
  rw [reads]
  exact congrArg some (abs_signed (isNaN_of_isFinite finite))

end NumberText

end LayerPlayback
