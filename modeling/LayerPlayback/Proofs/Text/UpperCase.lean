import Mathlib
import LayerPlayback.Text.Blank
import LayerPlayback.Text.UpperCase

namespace LayerPlayback.UpperCase

/-!
# What upper case changes

Upper case treats characters one by one.  ASCII letters count in either case, digits
and blanks stay as they are, and no character becomes one of those that end a line or
cut it short.
-/

/-! ## Letters and digits -/

theorem ofCharacters_append (earlier later : List Char) :
    ofCharacters (earlier ++ later) = ofCharacters earlier ++ ofCharacters later :=
  List.flatMap_append

/-- Text that has only characters that stay as they are does so, too. -/
theorem ofCharacters_of_settled
    {characters : List Char}
    (settled : ∀ character ∈ characters, ofCharacter character = [character]) :
    ofCharacters characters = characters := by
  calc
    ofCharacters characters = characters.flatMap fun character => [character] :=
      List.flatMap_congr settled
    _ = characters := by simp

/-- What is checked of all ASCII characters holds of them. -/
theorem forall_ascii
    (holds : Char → Prop)
    (all : ∀ code < 0x80, holds (Char.ofNat code))
    {character : Char}
    (ascii : character.toNat < 0x80) :
    holds character := by
  have checked := all character.toNat ascii
  rwa [Char.ofNat_toNat] at checked

/-- Letters and digits of this kind are ASCII. -/
theorem toNat_lt_of_isAlphanum {character : Char} (alphanumeric : character.isAlphanum = true) :
    character.toNat < 0x80 := by
  simp only [Char.isAlphanum, Char.isAlpha, Char.isUpper, Char.isLower, Char.isDigit,
    Bool.or_eq_true, Bool.and_eq_true, decide_eq_true_eq, ge_iff_le,
    UInt32.le_iff_toNat_le] at alphanumeric
  unfold Char.toNat
  rcases alphanumeric with (upper | lower) | digit
  · exact Nat.lt_of_le_of_lt upper.2 (by decide)
  · exact Nat.lt_of_le_of_lt lower.2 (by decide)
  · exact Nat.lt_of_le_of_lt digit.2 (by decide)

theorem toUpper_of_isDigit {digit : Char} (isDigit : digit.isDigit = true) :
    digit.toUpper = digit := by
  apply Char.toUpper_eq_of_not_isLower
  simp only [Char.isDigit, Char.isLower, Bool.and_eq_true, decide_eq_true_eq, ge_iff_le,
    UInt32.le_iff_toNat_le] at isDigit ⊢
  intro isLower
  exact absurd (Nat.le_trans isLower.1 isDigit.2) (by decide)

theorem map_toUpper_of_isDigit
    {digits : List Char}
    (isDigit : ∀ digit ∈ digits, digit.isDigit = true) :
    digits.map Char.toUpper = digits := by
  calc
    digits.map Char.toUpper = digits.map id :=
      List.map_congr_left fun digit member => toUpper_of_isDigit (isDigit digit member)
    _ = digits := List.map_id digits

/-- Upper case leads from letters and digits to letters and digits. -/
theorem isAlphanum_toUpper {character : Char} (alphanumeric : character.isAlphanum = true) :
    character.toUpper.isAlphanum = true := by
  rw [Char.isAlphanum, Bool.or_eq_true] at alphanumeric ⊢
  rcases alphanumeric with isLetter | isDigit
  · exact .inl (character.isAlpha_toUpper_eq_isAlpha.trans isLetter)
  · exact .inr (by rw [toUpper_of_isDigit isDigit, isDigit])

/-- ASCII letters and digits are put in upper case one by one. -/
theorem ofCharacters_of_isAlphanum
    {characters : List Char}
    (alphanumeric : ∀ character ∈ characters, character.isAlphanum = true) :
    ofCharacters characters = characters.map Char.toUpper := by
  rw [ofCharacters, List.map_eq_flatMap]
  refine List.flatMap_congr fun character member => ?_
  exact if_pos (toNat_lt_of_isAlphanum (alphanumeric character member))

/-! ## Either case -/

/-- Either case of an ASCII letter has the same upper-case form. -/
theorem ofCharacter_toUpper (character : Char) :
    ofCharacter character.toUpper = ofCharacter character := by
  by_cases ascii : character.toNat < 0x80
  · exact forall_ascii (fun character => ofCharacter character.toUpper = ofCharacter character)
      (by decide +kernel) ascii
  · have notLower : ¬ character.isLower = true := fun isLower =>
      ascii (toNat_lt_of_isAlphanum (by simp [Char.isAlphanum, Char.isAlpha, isLower]))
    rw [Char.toUpper_eq_of_not_isLower notLower]

/-- Upper case does not depend on the case of ASCII letters. -/
theorem ofCharacters_map_toUpper (characters : List Char) :
    ofCharacters (characters.map Char.toUpper) = ofCharacters characters := by
  rw [ofCharacters, List.flatMap_map]
  exact List.flatMap_congr fun character _ => ofCharacter_toUpper character

/-! ## Blanks and marks -/

/-- Blanks have no upper case; the ranges of blanks are checked one by one. -/
theorem ofCharacter_of_isBlank {blank : Char} (isBlank : Blank.isBlank blank = true) :
    ofCharacter blank = [blank] := by
  have all :
      ∀ range ∈ Blank.ranges, ∀ place ≤ range.2 - range.1,
        ofCharacter (Char.ofNat (range.1 + place)) = [Char.ofNat (range.1 + place)] := by
    decide +kernel
  obtain ⟨range, member, bounds⟩ := List.any_eq_true.mp isBlank
  simp only [Bool.and_eq_true, decide_eq_true_eq] at bounds
  have same := all range member (blank.toNat - range.1) (by omega)
  rwa [Nat.add_sub_cancel' bounds.1, Char.ofNat_toNat] at same

theorem ofCharacters_of_isBlank
    {blanks : List Char}
    (isBlank : ∀ blank ∈ blanks, Blank.isBlank blank = true) :
    ofCharacters blanks = blanks :=
  ofCharacters_of_settled fun blank member => ofCharacter_of_isBlank (isBlank blank member)

/-- Beyond ASCII, no upper-case form is a character in front of the letters. -/
theorem le_of_mem_codes {code upper : Nat} (beyond : 0x80 ≤ code) (member : upper ∈ codes code) :
    0x41 ≤ upper := by
  unfold codes at member
  cases found : expansions.lookup code with
  | some expansion =>
      have all : ∀ entry ∈ expansions, ∀ upper ∈ entry.2, 0x41 ≤ upper := by decide +kernel
      rw [found] at member
      obtain ⟨before, after, shape, -⟩ := List.lookup_eq_some_iff.mp found
      exact all (code, expansion) (by rw [shape]; simp) upper member
  | none =>
      have all : ∀ range ∈ ranges, (0x41 : Int) ≤ range.first + range.shift := by decide +kernel
      rw [found] at member
      obtain rfl := List.mem_singleton.mp member
      unfold simple
      split
      · next range isRange =>
          have atLeast := all range (List.mem_of_find?_eq_some isRange)
          have covered := List.find?_some isRange
          simp only [CaseRange.covers, Bool.and_eq_true, decide_eq_true_eq] at covered
          omega
      · omega

/-- The characters that end a line or what is interpreted of it. -/
def marks : List Char := ['\n', ';', '*']

/-- Upper case brings up no new marks. -/
theorem eq_of_mem_ofCharacter
    {mark character : Char}
    (isMark : mark ∈ marks)
    (member : mark ∈ ofCharacter character) :
    character = mark := by
  by_cases ascii : character.toNat < 0x80
  · rw [ofCharacter, if_pos ascii, List.mem_singleton] at member
    subst member
    exact (forall_ascii
      (fun character => character.toUpper ∈ marks → character.toUpper = character)
      (by decide) ascii isMark).symm
  · rw [ofCharacter, if_neg ascii] at member
    obtain ⟨code, isCode, rfl⟩ := List.mem_map.mp member
    have high := le_of_mem_codes (Nat.le_of_not_lt ascii) isCode
    have all : ∀ place ∈ marks.map Char.toNat, 0 < place ∧ place < 0x41 := by decide
    have low := all _ (List.mem_map_of_mem isMark)
    rw [Char.toNat_ofNat] at low
    split at low <;> omega

/-- Upper case brings up no mark that was not there. -/
theorem notMem_ofCharacters
    {mark : Char}
    {characters : List Char}
    (isMark : mark ∈ marks)
    (absent : mark ∉ characters) :
    mark ∉ ofCharacters characters := by
  intro member
  obtain ⟨character, isCharacter, upper⟩ := List.mem_flatMap.mp member
  exact absent (eq_of_mem_ofCharacter isMark upper ▸ isCharacter)

/-- A mark stays where it is. -/
theorem ofCharacters_cons_mark {mark : Char} (isMark : mark ∈ marks) (characters : List Char) :
    ofCharacters (mark :: characters) = mark :: ofCharacters characters := by
  have upper : ofCharacter mark = [mark] := by
    rcases List.mem_cons.mp isMark with rfl | others
    · rfl
    · rcases List.mem_pair.mp others with rfl | rfl <;> rfl
  rw [ofCharacters, List.flatMap_cons, upper, ofCharacters, List.singleton_append]

end LayerPlayback.UpperCase
