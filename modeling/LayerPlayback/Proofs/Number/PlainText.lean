import LayerPlayback.Proofs.Number.Text

namespace LayerPlayback.NumberText

/-!
# Plain text is read back

A finite double is written without an exponent: a sign if it is negative, digits, and a
point if there are places behind it.  Reading that as a number gives the double again, down
to the sign of zero.
-/

open NumberLiteral
open Scanner (Ends ends_nil takeWhile_append_of_ends dropWhile_append_of_ends)

/-- The characters of digits with a point. -/
def IsPlaceCharacter (character : Char) : Prop :=
  character.isDigit = true ∨ character = '.'

/-- Text of a number without a sign: it starts with a digit and stands for the number. -/
structure Writes (text : List Char) (number : Decimal) : Prop where
  starts : StartsWithDigit text
  places : ∀ character ∈ text, IsPlaceCharacter character
  reads : decimal? text = some number

theorem writes_naturalDigits (value : Nat) : Writes (naturalDigits value) ⟨value, 0⟩ := by
  have digits : ∀ digit ∈ naturalDigits value, digit.isDigit = true :=
    fun _ => isDigit_of_mem_naturalDigits
  have taken := takeWhile_append_of_ends digits (ends_nil Char.isDigit)
  have dropped := dropWhile_append_of_ends digits (ends_nil Char.isDigit)
  have starts := startsWithDigit_naturalDigits value []
  rw [List.append_nil] at taken dropped starts
  refine ⟨starts, fun digit member => .inl (digits digit member), ?_⟩
  unfold decimal?
  rw [taken, dropped]
  simp [splitFraction, exponent?, naturalDigits_ne_nil, digitsValue_naturalDigits]

/-- Written with its places, a decimal without zeros to append is read back. -/
theorem writes_withPlaces {number : Decimal} (fractional : number.exponent ≤ 0) :
    Writes (withPlaces number.coefficient number.exponent.natAbs) number := by
  obtain ⟨coefficient, exponent⟩ := number
  dsimp only at fractional ⊢
  obtain ⟨places, rfl⟩ : ∃ places : Nat, exponent = -places := ⟨exponent.natAbs, by omega⟩
  rw [Int.natAbs_neg, Int.natAbs_natCast]
  rcases Nat.eq_zero_or_pos places with rfl | positive
  · rw [withPlaces, if_pos rfl]
    exact writes_naturalDigits coefficient
  · obtain ⟨whole, fraction, text, isFraction, value, length⟩ :=
      exists_withPlaces coefficient positive
    obtain ⟨-, digits⟩ := isDigits_iff.mp isFraction
    rw [text]
    refine ⟨startsWithDigit_naturalDigits whole _, fun character member => ?_, ?_⟩
    · rcases List.mem_append.mp member with inWhole | behind
      · exact .inl (isDigit_of_mem_naturalDigits inWhole)
      · rcases List.mem_cons.mp behind with point | inFraction
        · exact .inr point
        · exact .inl (digits character inFraction)
    · rw [decimal?_pointed whole digits, value, length]

/-- Characters that plain text of finite doubles is made of. -/
def IsPlainCharacter (character : Char) : Prop :=
  IsPlaceCharacter character ∨ character = '-'

section Finite

variable {x : Float} (finite : x.isFinite = true)

include finite

/-- A finite double is read back from its plain text. -/
theorem number?_plainCharacters : number? (plainCharacters x) = some x := by
  obtain ⟨number, written, fractional, nearest⟩ := exists_shortestMagnitude_eq finite
  have writes := written ▸ writes_withPlaces fractional
  rw [plainCharacters_eq finite, number?, splitSign_signText _ writes.starts]
  dsimp only
  rw [writes.reads, Option.map_some, nearest]
  exact congrArg some (Binary64.abs_signed (Binary64.isNaN_of_isFinite finite))

/-- Plain text is read back as the double it was written for. -/
theorem finite?_plainCharacters : finite? (plainCharacters x) = some x := by
  rw [finite?, number?_plainCharacters finite, Option.filter_some, if_pos finite]

theorem plainCharacters_ne_nil : plainCharacters x ≠ [] := by
  obtain ⟨_, written, fractional, -⟩ := exists_shortestMagnitude_eq finite
  have writes := written ▸ writes_withPlaces fractional
  obtain ⟨first, others, starts, -⟩ := writes.starts
  rw [plainCharacters_eq finite, starts]
  exact List.append_ne_nil_of_right_ne_nil _ (List.cons_ne_nil _ _)

theorem isPlainCharacter_of_mem
    {character : Char}
    (member : character ∈ plainCharacters x) :
    IsPlainCharacter character := by
  obtain ⟨_, written, fractional, -⟩ := exists_shortestMagnitude_eq finite
  have writes := written ▸ writes_withPlaces fractional
  rw [plainCharacters_eq finite] at member
  rcases List.mem_append.mp member with inSign | inMagnitude
  · unfold signText at inSign
    split at inSign
    · exact .inr (List.mem_singleton.mp inSign)
    · cases inSign
  · exact .inl (writes.places character inMagnitude)

end Finite

end LayerPlayback.NumberText
