import Mathlib.Data.Nat.Digits.Defs
import LayerPlayback.Command.Decoder
import LayerPlayback.Proofs.Number.Digits
import LayerPlayback.Proofs.Number.Unsigned

namespace LayerPlayback

/-!
# Codes are compared by number

The digits of a code stand for a number, whatever their count and however many zeros are in
front, and that number selects the operation.  Digits are read into 32 bits, but the numbers
that select something are small: one that does not fit selects nothing, and it is not taken
for the number that its last 32 bits make.
-/

/-- Characters that are the decimal notation of a number, with any zeros in front. -/
structure IsNumeral (characters : List Char) (number : Nat) : Prop where
  nonempty : characters ≠ []
  digits : ∀ character ∈ characters, '0' ≤ character ∧ character ≤ '9'
  value :
    Nat.ofDigits 10 (characters.reverse.map fun digit => digit.toNat - '0'.toNat) = number

/-- A numeral is a nonempty run of digits, with the value that the positions of the digits give. -/
theorem isNumeral_iff {characters : List Char} {number : Nat} :
    IsNumeral characters number ↔
      NumberLiteral.isDigits characters = true ∧
        NumberLiteral.digitsValue characters = number := by
  have isDigit (character : Char) :
      character.isDigit = true ↔ '0' ≤ character ∧ character ≤ '9' := by
    simp only [Char.isDigit, Bool.and_eq_true, decide_eq_true_eq]
    rfl
  have value :
      Nat.ofDigits 10 (characters.reverse.map fun digit => digit.toNat - '0'.toNat) =
        NumberLiteral.digitsValue characters := by
    induction characters using List.reverseRecOn with
    | nil => rfl
    | append_singleton characters last inductionHypothesis =>
        rw [NumberLiteral.digitsValue_concat, ← inductionHypothesis, List.reverse_concat,
          List.map_cons, Nat.ofDigits_cons, Nat.add_comm, Nat.mul_comm]
        rfl
  rw [NumberLiteral.isDigits_iff]
  simp only [isDigit]
  constructor
  · rintro ⟨nonempty, digits, rfl⟩
    exact ⟨⟨nonempty, digits⟩, value.symm⟩
  · rintro ⟨⟨nonempty, digits⟩, rfl⟩
    exact ⟨nonempty, digits, value⟩

namespace Operation

/-- The numbers that select an operation of a family. -/
def numbered : List (Nat × Operation) :=
  [ (0, .linearMove true), (1, .linearMove false), (2, .arc true), (3, .arc false),
    (28, .home), (29, .home), (90, .absoluteMode), (91, .relativeMode), (92, .setPosition) ]

/-- Each number of the table selects its own operation, as no number is in it twice. -/
theorem ofNumber_of_mem
    {number : Nat}
    {operation : Operation}
    (member : (number, operation) ∈ numbered) :
    ofNumber number = operation := by
  have all : ∀ entry ∈ numbered, ofNumber entry.1 = entry.2 := by
    decide
  exact all (number, operation) member

/-- A number selects what it is listed with, or nothing. -/
theorem mem_numbered_or_eq_unknown (number : Nat) :
    (number, ofNumber number) ∈ numbered ∨ ofNumber number = .unknown true := by
  unfold ofNumber
  split
  case h_10 => exact .inr rfl
  all_goals exact .inl (by decide)

/-- A number outside the table belongs to the family, but to no operation. -/
theorem ofNumber_of_notMem
    {number : Nat}
    (absent : ∀ operation, (number, operation) ∉ numbered) :
    ofNumber number = .unknown true :=
  (mem_numbered_or_eq_unknown number).resolve_left (absent _)

/-- A number that does not fit into 32 bits selects nothing. -/
theorem ofNumber_of_le {number : Nat} (large : UInt32.size ≤ number) :
    ofNumber number = .unknown true := by
  have small : ∀ entry ∈ numbered, entry.1 < UInt32.size := by
    decide
  apply ofNumber_of_notMem
  intro operation member
  exact Nat.not_lt.mpr large (small _ member)

/-- The check for 32 bits makes no difference to what digits select. -/
theorem ofDigits_of_isDigits
    {digits : List Char}
    (isNumber : NumberLiteral.isDigits digits = true) :
    ofDigits digits = .ofNumber (NumberLiteral.digitsValue digits) := by
  rw [ofDigits, if_pos isNumber, NumberLiteral.uint32?_eq, NumberLiteral.checked?]
  by_cases fits : NumberLiteral.digitsValue digits < UInt32.size
  · simp only [fits, ↓reduceIte, UInt32.toNat_ofNat_of_lt' fits]
  · simp only [fits, ↓reduceIte]
    exact (ofNumber_of_le (Nat.not_lt.mp fits)).symm

/-- What stands behind the letter of a family never makes a code foreign to it. -/
theorem ofDigits_ne_foreign (characters : List Char) :
    ofDigits characters ≠ .unknown false := by
  by_cases isNumber : NumberLiteral.isDigits characters = true
  · have known : ∀ entry ∈ numbered, entry.2 ≠ .unknown false := by
      decide
    rw [ofDigits_of_isDigits isNumber]
    rcases mem_numbered_or_eq_unknown (NumberLiteral.digitsValue characters) with
      listed | unlisted
    · exact known _ listed
    · rw [unlisted]
      decide
  · rw [ofDigits, if_neg isNumber]
    decide

/-- Behind the family letter a code is decided by its digits alone. -/
theorem ofCode_family (family : Char) (characters : List Char) :
    ofCode family (String.ofList (family :: characters)) = ofDigits characters := by
  rw [ofCode, String.toList_ofList]
  exact if_neg (not_not_intro rfl)

/-- Exactly the codes that do not start with the letter of a family are foreign to it. -/
theorem ofCode_eq_foreign_iff {family : Char} {code : String} :
    ofCode family code = .unknown false ↔
      ∀ characters, code ≠ String.ofList (family :: characters) := by
  constructor
  · rintro isForeign characters rfl
    rw [ofCode_family] at isForeign
    exact ofDigits_ne_foreign characters isForeign
  · intro otherStart
    unfold ofCode
    cases shape : code.toList with
    | nil => rfl
    | cons first rest =>
        have otherLetter : first ≠ family := by
          rintro rfl
          exact otherStart rest (String.toList_inj.mp (shape.trans String.toList_ofList.symm))
        exact if_pos otherLetter

/--
A code with a numeral is decided by the value of the numeral, so zeros in front do not
matter.
-/
theorem ofCode_of_isNumeral
    (family : Char)
    {characters : List Char}
    {number : Nat}
    (numeral : IsNumeral characters number) :
    ofCode family (String.ofList (family :: characters)) = .ofNumber number := by
  obtain ⟨isNumber, rfl⟩ := isNumeral_iff.mp numeral
  rw [ofCode_family, ofDigits_of_isDigits isNumber]

/-- How the codes of a family select operations. -/
structure SelectsByNumber (family : Char) (select : String → Operation) : Prop where
  /-- Exactly the codes without the family letter are foreign. -/
  foreign :
    ∀ code,
      select code = .unknown false ↔
        ∀ characters, code ≠ String.ofList (family :: characters)
  /-- A number that is written behind the letter selects its operation. -/
  selected :
    ∀ characters number operation,
      IsNumeral characters number →
      (number, operation) ∈ numbered →
      select (String.ofList (family :: characters)) = operation
  /-- Other numbers, and whatever is not a number, select nothing. -/
  unselected :
    ∀ characters,
      (∀ number operation, IsNumeral characters number → (number, operation) ∉ numbered) →
      select (String.ofList (family :: characters)) = .unknown true
  /-- How a number is written does not matter. -/
  alike :
    ∀ first second number,
      IsNumeral first number →
      IsNumeral second number →
      select (String.ofList (family :: first)) = select (String.ofList (family :: second))

/-- A code selects an operation by the number behind the family letter, whichever the family. -/
theorem selectsByNumber_ofCode (family : Char) : SelectsByNumber family (ofCode family) where
  foreign _ := ofCode_eq_foreign_iff
  selected characters number operation numeral listed := by
    rw [ofCode_of_isNumeral family numeral]
    exact ofNumber_of_mem listed
  unselected characters unlisted := by
    by_cases isNumber : NumberLiteral.isDigits characters = true
    · have numeral : IsNumeral characters (NumberLiteral.digitsValue characters) :=
        isNumeral_iff.mpr ⟨isNumber, rfl⟩
      rw [ofCode_of_isNumeral family numeral]
      exact ofNumber_of_notMem fun operation => unlisted _ operation numeral
    · rw [ofCode_family, ofDigits, if_neg isNumber]
  alike first second number firstNumeral secondNumeral := by
    rw [ofCode_of_isNumeral family firstNumeral, ofCode_of_isNumeral family secondNumeral]

/-- Zeros in front do not count, and a number beyond 32 bits does not wrap around to one. -/
example :
    ofCode 'G' "G000000000000000000001" = .linearMove false ∧
      ofCode 'G' "G4294967297" = .unknown true := by
  decide

end Operation

end LayerPlayback
