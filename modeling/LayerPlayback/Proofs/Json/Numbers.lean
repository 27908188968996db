import LayerPlayback.Json.Number
import LayerPlayback.Proofs.Number.Digits
import LayerPlayback.Proofs.Text.Scanner

namespace LayerPlayback.JsonNumber

/-!
# Written JSON numbers are read back

A number with digits where digits belong is written as a text that only it is read
from.  Natural numbers and finite doubles are written with such digits.
-/

open Scanner (Ends ends_nil ends_cons takeWhile_append_of_ends dropWhile_append_of_ends)
open NumberLiteral (isDigits isDigits_iff splitSign splitFraction)
open NumberText (naturalDigits isDigit_of_mem_naturalDigits isDigits_naturalDigits
  naturalDigits_ne_nil naturalDigits_of_head)

/-- A number with digits in all its parts and no leading zero. -/
structure IsWellFormed (number : JsonNumber) : Prop where
  whole : isWholePart number.whole = true
  fraction : ∀ digit ∈ number.fraction, digit.isDigit = true
  exponent : ∀ exponent ∈ number.exponent?, isDigits exponent.digits = true

/-- The text of an exponent that may be missing. -/
def exponentText (exponent? : Option JsonExponent) : List Char :=
  (exponent?.map JsonExponent.characters).getD []

/-- The text of a fraction that may be missing. -/
def fractionText (fraction : List Char) : List Char :=
  if fraction.isEmpty then [] else '.' :: fraction

/-- An exponent that is written out is read to its end, sign and digits alike. -/
theorem readExponent?_exponentText
    {exponent? : Option JsonExponent}
    (digits : ∀ exponent ∈ exponent?, isDigits exponent.digits = true) :
    readExponent? (exponentText exponent?) = some exponent? := by
  cases exponent? with
  | none => rfl
  | some exponent =>
      obtain ⟨negative, written⟩ := exponent
      have areDigits : isDigits written = true := digits _ rfl
      cases negative <;>
        simp [exponentText, JsonExponent.characters, readExponent?, splitSign, areDigits]

theorem ends_exponentText (exponent? : Option JsonExponent) :
    Ends Char.isDigit (exponentText exponent?) := by
  cases exponent? with
  | none => exact ends_nil _
  | some exponent => exact ends_cons rfl _

/-- A fraction is read up to the exponent behind it, or to the end without one. -/
theorem readFraction?_fractionText
    {fraction : List Char}
    (digits : ∀ digit ∈ fraction, digit.isDigit = true)
    (exponent? : Option JsonExponent) :
    readFraction? (fractionText fraction ++ exponentText exponent?) =
      some (fraction, exponentText exponent?) := by
  have ends := ends_exponentText exponent?
  unfold fractionText
  cases fraction with
  | nil =>
      cases exponent? with
      | none => rfl
      | some exponent => rfl
  | cons first rest =>
      have split :
          splitFraction ('.' :: (first :: rest ++ exponentText exponent?)) =
            (first :: rest, exponentText exponent?) := by
        rw [splitFraction, takeWhile_append_of_ends digits ends,
          dropWhile_append_of_ends digits ends]
      change readFraction? ('.' :: (first :: rest ++ exponentText exponent?)) = _
      rw [readFraction?, split]
      rfl

/-- What follows the whole part ends its digits. -/
theorem ends_fractionText (fraction : List Char) (exponent? : Option JsonExponent) :
    Ends Char.isDigit (fractionText fraction ++ exponentText exponent?) := by
  cases fraction with
  | nil => exact ends_exponentText exponent?
  | cons first rest => exact ends_cons rfl _

/-- Behind the sign the three parts of a number are taken off one after the other. -/
theorem readUnsigned?_characters
    {number : JsonNumber}
    (wellFormed : number.IsWellFormed)
    (negative : Bool) :
    readUnsigned? negative
        (number.whole ++ (fractionText number.fraction ++ exponentText number.exponent?)) =
      some { number with negative := negative } := by
  obtain ⟨whole, fraction, exponent⟩ := wellFormed
  have digits : ∀ digit ∈ number.whole, digit.isDigit = true := by
    unfold isWholePart at whole
    rw [Bool.and_eq_true, isDigits_iff] at whole
    exact whole.1.2
  have ends := ends_fractionText number.fraction number.exponent?
  unfold readUnsigned?
  rw [takeWhile_append_of_ends digits ends, dropWhile_append_of_ends digits ends]
  dsimp only
  rw [if_pos whole, readFraction?_fractionText fraction]
  change ((readExponent? (exponentText number.exponent?)).bind fun exponent? =>
    some (⟨negative, number.whole, number.fraction, exponent?⟩ : JsonNumber)) = _
  rw [readExponent?_exponentText exponent]
  rfl

/-- The sign stands in front of the three parts. -/
theorem characters_eq (number : JsonNumber) :
    number.characters =
      (if number.negative then ['-'] else [])
        ++ (number.whole ++ (fractionText number.fraction ++ exponentText number.exponent?)) := by
  unfold characters fractionText exponentText
  simp only [List.append_assoc]

/-- A well-formed number is read from its text. -/
theorem ofCharacters?_characters {number : JsonNumber} (wellFormed : number.IsWellFormed) :
    ofCharacters? number.characters = some number := by
  have read := readUnsigned?_characters wellFormed number.negative
  rw [characters_eq]
  cases sign : number.negative with
  | true =>
      rw [sign] at read
      rw [if_pos rfl, List.cons_append, List.nil_append, ofCharacters?, read, ← sign]
  | false =>
      rw [sign] at read
      rw [if_neg Bool.false_ne_true, List.nil_append]
      unfold ofCharacters?
      split
      · next rest text =>
          -- A number without a sign starts with a digit.
          obtain ⟨whole, _, _⟩ := wellFormed
          unfold isWholePart at whole
          rw [Bool.and_eq_true, isDigits_iff] at whole
          obtain ⟨⟨nonempty, digits⟩, _⟩ := whole
          obtain ⟨first, more, shape⟩ := List.exists_cons_of_ne_nil nonempty
          rw [shape] at text
          obtain rfl : first = '-' := (List.cons.inj text).1
          have isDigit := digits '-' (shape ▸ List.mem_cons_self)
          cases isDigit
      · rw [read, ← sign]

/-- The digits of a natural number have no zero in front that they could do without. -/
theorem isWholePart_naturalDigits (value : Nat) : isWholePart (naturalDigits value) = true := by
  unfold isWholePart
  rw [isDigits_naturalDigits, Bool.true_and, Bool.or_eq_true, decide_eq_true_eq,
    decide_eq_true_eq]
  by_cases leading : (naturalDigits value).head? = some '0'
  · exact .inr (congrArg List.length (naturalDigits_of_head leading))
  · exact .inl leading

theorem isWellFormed_ofNat (value : Nat) : (ofNat value).IsWellFormed where
  whole := isWholePart_naturalDigits value
  fraction := List.forall_mem_nil _
  exponent := fun _ absent => nomatch absent

/-- The plain form of a decimal has digits on both sides of its point. -/
theorem isWellFormed_ofPlain (negative : Bool) (decimal : Decimal) :
    (ofPlain negative decimal).IsWellFormed := by
  unfold ofPlain
  split
  · have zero : ∀ digit ∈ ['0'], digit.isDigit = true := List.all_eq_true.mp rfl
    exact ⟨isWholePart_naturalDigits _, zero, fun _ absent => nomatch absent⟩
  · refine ⟨isWholePart_naturalDigits _, ?_, fun _ absent => nomatch absent⟩
    intro digit member
    rcases List.mem_append.mp member with zero | inDigits
    · rw [List.eq_of_mem_replicate zero]
      rfl
    · exact isDigit_of_mem_naturalDigits inDigits

/-- The scientific form has a single digit in front of its point. -/
theorem isWellFormed_ofScientific (negative : Bool) (value : Nat) (power : Int) :
    (ofScientific negative (naturalDigits value) power).IsWellFormed := by
  obtain ⟨first, rest, shape⟩ := List.exists_cons_of_ne_nil (naturalDigits_ne_nil value)
  have digits : ∀ digit ∈ first :: rest, digit.isDigit = true := by
    rw [← shape]
    exact fun _ => isDigit_of_mem_naturalDigits
  obtain ⟨firstDigit, restDigits⟩ := List.forall_mem_cons.mp digits
  unfold ofScientific
  rw [shape]
  refine ⟨?_, restDigits, ?_⟩
  · simp [isWholePart, isDigits, firstDigit]
  · intro exponent isExponent
    obtain rfl := Option.some.inj isExponent
    exact isDigits_naturalDigits _

/-- Either form of a finite double is a well-formed number. -/
theorem isWellFormed_ofFinite (x : Float) : (ofFinite x).IsWellFormed := by
  unfold ofFinite
  generalize (if x == 0.0 then (⟨0, 0⟩ : Decimal) else .shortest .toEven x.abs) = decimal
  dsimp only
  split
  · exact isWellFormed_ofPlain _ _
  · exact isWellFormed_ofScientific _ _ _

end LayerPlayback.JsonNumber
