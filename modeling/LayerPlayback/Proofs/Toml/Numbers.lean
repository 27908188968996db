import LayerPlayback.Toml.Number
import LayerPlayback.Proofs.Number.Text
import LayerPlayback.Proofs.Text.Scanner

namespace LayerPlayback.TomlNumber

/-!
# TOML numbers are read back

A number is no date, because the first character behind its digits is neither a dash
nor a colon.  The pointed text of a finite double is taken as that double, digits alone
as an integer, and `inf` as infinity.
-/

open Scanner
open NumberText (naturalDigits signText StartsWithDigit)

/-! ## Not a date -/

/-- A text in which the first character behind leading digits marks no date or time. -/
def IsDateless (text : List Char) : Prop :=
  ∀ next ∈ (text.dropWhile Char.isDigit).head?, next ≠ '-' ∧ next ≠ ':'

theorem isDateless_of_cons {digit : Char} {text : List Char}
    (isDigit : digit.isDigit = true)
    (dateless : IsDateless (digit :: text)) :
    IsDateless text := by
  unfold IsDateless at dateless ⊢
  rwa [List.dropWhile_cons_of_pos isDigit] at dateless

theorem exactly_of_isDateless
    {mark : Char}
    {text : List Char}
    (isMark : mark = '-' ∨ mark = ':')
    (dateless : IsDateless text) :
    exactly mark text = none := by
  cases text with
  | nil => rfl
  | cons first rest =>
      have notMark : first ≠ mark := by
        rintro rfl
        have notDigit : ¬ first.isDigit = true := by
          rcases isMark with rfl | rfl <;> decide
        rw [IsDateless, List.dropWhile_cons_of_neg notDigit] at dateless
        obtain ⟨notDash, notColon⟩ := dateless first rfl
        exact isMark.elim notDash notColon
      simp [notMark]

/-- Digits that are taken from a text without a date leave no date behind. -/
theorem isDateless_of_exactCount
    {count : Nat}
    {text digits rest : List Char}
    (taken : exactCount count Char.isDigit text = some (digits, rest))
    (dateless : IsDateless text) :
    IsDateless rest := by
  unfold exactCount at taken
  generalize List.range count = indices at taken
  induction indices generalizing text digits with
  | nil =>
      obtain ⟨_, rfl⟩ := Prod.mk.inj (Option.some.inj taken)
      exact dateless
  | cons index others inductionHypothesis =>
      cases text with
      | nil => simp at taken
      | cons first more =>
          rw [List.mapM_cons, bind_apply, character_cons] at taken
          by_cases isDigit : first.isDigit = true
          · rw [if_pos isDigit, Option.bind_some, bind_apply] at taken
            obtain ⟨⟨later, middle⟩, laterTaken, done⟩ := Option.bind_eq_some_iff.mp taken
            obtain ⟨_, rfl⟩ := Prod.mk.inj (Option.some.inj done)
            exact inductionHypothesis (isDateless_of_cons isDigit dateless) laterTaken
          · rw [if_neg isDigit] at taken
            cases taken

theorem isDateless_of_fieldBetween
    {count least greatest value : Nat}
    {text rest : List Char}
    (taken : fieldBetween count least greatest text = some (value, rest))
    (dateless : IsDateless text) :
    IsDateless rest := by
  rw [fieldBetween, bind_apply] at taken
  obtain ⟨⟨digits, middle⟩, digitsTaken, bounded⟩ := Option.bind_eq_some_iff.mp taken
  have middleDateless := isDateless_of_exactCount digitsTaken dateless
  dsimp only at bounded
  split at bounded
  · obtain ⟨_, rfl⟩ := Prod.mk.inj (Option.some.inj bounded)
    exact middleDateless
  · cases bounded

/-- A date needs its first dash. -/
theorem date_of_isDateless {text : List Char} (dateless : IsDateless text) : date text = none := by
  cases taken : fieldBetween 4 0 9999 text with
  | none => simp [date, taken]
  | some year =>
      have noDash := exactly_of_isDateless (.inl rfl) (isDateless_of_fieldBetween taken dateless)
      simp [date, taken, noDash]

theorem time_of_isDateless {text : List Char} (dateless : IsDateless text) : time text = none := by
  cases taken : fieldBetween 2 0 23 text with
  | none => simp [time, taken]
  | some hour =>
      have noColon := exactly_of_isDateless (.inr rfl) (isDateless_of_fieldBetween taken dateless)
      simp [time, taken, noColon]

/-- Without both separators nothing is taken for a date or a time, so numbers are tried next. -/
theorem datetime_of_isDateless {text : List Char} (dateless : IsDateless text) :
    datetime text = none := by
  simp [datetime, date_of_isDateless dateless, time_of_isDateless dateless]

/-- A text whose first character is neither a digit nor a sign is no date either. -/
theorem isDateless_of_ne
    {first : Char}
    (notDigit : first.isDigit = false)
    (notDash : first ≠ '-')
    (notColon : first ≠ ':')
    (rest : List Char) :
    IsDateless (first :: rest) := by
  intro next isNext
  rw [List.dropWhile_cons_of_neg (by simpa using notDigit)] at isNext
  obtain rfl : first = next := Option.some.inj isNext
  exact ⟨notDash, notColon⟩

/-- Digits in front do not make a date of what has none. -/
theorem isDateless_append
    {digits : List Char}
    (areDigits : ∀ digit ∈ digits, digit.isDigit = true)
    {rest : List Char}
    (dateless : IsDateless rest) :
    IsDateless (digits ++ rest) := by
  rw [IsDateless, List.dropWhile_append_of_pos areDigits]
  exact dateless

theorem isDateless_naturalDigits (value : Nat) {rest : List Char} (dateless : IsDateless rest) :
    IsDateless (naturalDigits value ++ rest) :=
  isDateless_append (fun _ => NumberText.isDigit_of_mem_naturalDigits) dateless

/-- A text that starts with a sign is no date, as no field of it does. -/
theorem datetime_of_sign (rest : List Char) : datetime ('-' :: rest) = none := by
  have noField (count least greatest : Nat) :
      fieldBetween (count + 1) least greatest ('-' :: rest) = none := by
    simp [fieldBetween, exactCount, List.range_succ_eq_map]
  simp [datetime, date, time, noField]

theorem datetime_signed (negative : Bool) {magnitude : List Char} (dateless : IsDateless magnitude) :
    datetime (signText negative ++ magnitude) = none := by
  cases negative with
  | true => exact datetime_of_sign magnitude
  | false => exact datetime_of_isDateless dateless

/-! ## Digits -/

/-- What may follow digits: neither another digit nor an underscore. -/
def EndsNumber (rest : List Char) : Prop :=
  ∀ next ∈ rest.head?, next.isDigit = false ∧ next ≠ '_'

theorem endsNumber_cons {next : Char} (notDigit : next.isDigit = false) (notUnderscore : next ≠ '_')
    (rest : List Char) :
    EndsNumber (next :: rest) := by
  intro first isFirst
  obtain rfl : next = first := Option.some.inj isFirst
  exact ⟨notDigit, notUnderscore⟩

/-- Digits are taken up to what ends a number, as nothing is between them. -/
theorem digits_append
    {word rest : List Char}
    (areDigits : NumberLiteral.isDigits word = true)
    (ends : EndsNumber rest) :
    digits Char.isDigit (word ++ rest) = some (word, rest) := by
  obtain ⟨nonempty, all⟩ := NumberLiteral.isDigits_iff.mp areDigits
  obtain ⟨first, others, rfl⟩ := List.exists_cons_of_ne_nil nonempty
  obtain ⟨firstIsDigit, othersAreDigits⟩ := List.forall_mem_cons.mp all
  have takes : ∀ letter ∈ others, ∀ more,
      (do let _ ← optional? (exactly '_'); character Char.isDigit : Scanner Char)
          (letter :: more) =
        some (letter, more) := by
    intro letter member more
    have isDigit := othersAreDigits letter member
    have notUnderscore : letter ≠ '_' := by
      rintro rfl
      cases isDigit
    simp [notUnderscore, isDigit]
  have refuses :
      (do let _ ← optional? (exactly '_'); character Char.isDigit : Scanner Char) rest = none := by
    cases rest with
    | nil => rfl
    | cons next more =>
        obtain ⟨notDigit, notUnderscore⟩ := ends next rfl
        simp [notUnderscore, notDigit]
  have repeated := many_of_repeats (repeats_word takes refuses)
  simp only [digits, bind_apply, List.cons_append, character_cons, firstIsDigit, if_true,
    Option.bind_some, repeated]
  rfl

/-- A natural number has no zero in front that the grammar would refuse. -/
theorem wholeDigits_naturalDigits (value : Nat) {rest : List Char} (ends : EndsNumber rest) :
    wholeDigits (naturalDigits value ++ rest) = some (naturalDigits value, rest) := by
  have taken := digits_append (NumberText.isDigits_naturalDigits value) ends
  by_cases leading : (naturalDigits value).head? = some '0'
  · rw [NumberText.naturalDigits_of_head leading]
    simp [wholeDigits]
  · obtain ⟨first, others, shape⟩ :=
      List.exists_cons_of_ne_nil (NumberText.naturalDigits_ne_nil value)
    rw [shape] at taken leading ⊢
    have notZero : first ≠ '0' := fun isZero => leading (by rw [isZero]; rfl)
    simp only [wholeDigits, bind_apply, peek?_apply, Option.bind_some, List.cons_append,
      List.head?_cons]
    refine Eq.trans (congrFun ?_ _) taken
    split
    · next isZero => exact absurd (Option.some.inj isZero) notZero
    · rfl

/-! ## Numbers -/

/-- What stands behind a sign that may be missing. -/
def IsUnsigned (text : List Char) : Prop :=
  ∀ first ∈ text.head?, first ≠ '+' ∧ first ≠ '-'

/-- A digit is no sign. -/
theorem isUnsigned_of_digit {text : List Char} (starts : StartsWithDigit text) :
    IsUnsigned text := by
  obtain ⟨digit, others, rfl, isDigit⟩ := starts
  intro first isFirst
  obtain rfl : digit = first := Option.some.inj isFirst
  constructor <;>
    · rintro rfl
      cases isDigit

/-- A sign is taken exactly where it is written. -/
theorem optional?_sign (negative : Bool) {magnitude : List Char} (unsigned : IsUnsigned magnitude) :
    optional? sign (signText negative ++ magnitude) =
      some (if negative then some '-' else none, magnitude) := by
  cases negative with
  | true => simp [signText, sign]
  | false =>
      cases magnitude with
      | nil => rfl
      | cons first others =>
          obtain ⟨notPlus, notMinus⟩ := unsigned first rfl
          simp [signText, sign, notPlus, notMinus]

theorem optional?_sign_naturalDigits (negative : Bool) (value : Nat) (rest : List Char) :
    optional? sign (signText negative ++ (naturalDigits value ++ rest)) =
      some (if negative then some '-' else none, naturalDigits value ++ rest) :=
  optional?_sign negative (isUnsigned_of_digit (NumberText.startsWithDigit_naturalDigits value rest))

/-- A finite double is never taken for infinity. -/
theorem beq_infinity_of_isFinite {x : Float} (finite : x.isFinite = true) :
    (x == Binary64.infinity) = false := by
  rw [Bool.eq_false_iff, ne_eq, Binary64.beq_iff]
  rintro ⟨_, _, same⟩
  have inRange := (Binary64.isFinite_iff.mp finite).2
  have isInfinity : Binary64.value Binary64.infinity = Binary64.infinityValue := one_mul _
  rw [same, isInfinity, abs_of_pos Binary64.infinityValue_pos] at inRange
  exact lt_irrefl _ inRange

/-- The places behind the point are taken up to the end of the line. -/
theorem floatTail_fraction
    {places : List Char}
    (areDigits : NumberLiteral.isDigits places = true)
    (rest : List Char) :
    floatTail ('.' :: (places ++ '\n' :: rest)) = some ('.' :: places, '\n' :: rest) := by
  have taken := digits_append areDigits (@endsNumber_cons '\n' rfl (by decide) rest)
  simp [floatTail, exponent, fraction, taken]

/-- Digits with a point are taken as the double that they are read as. -/
theorem decimalFloat_pointed
    {negative : Bool}
    {whole : Nat}
    {places : List Char}
    {x : Float}
    (areDigits : NumberLiteral.isDigits places = true)
    (reads :
      NumberLiteral.number? (signText negative ++ (naturalDigits whole ++ '.' :: places)) = some x)
    (finite : x.isFinite = true)
    (rest : List Char) :
    decimalFloat (signText negative ++ (naturalDigits whole ++ '.' :: (places ++ '\n' :: rest))) =
      some (x, '\n' :: rest) := by
  have signTaken :=
    optional?_sign_naturalDigits negative whole ('.' :: (places ++ '\n' :: rest))
  have wholeTaken :=
    wholeDigits_naturalDigits whole
      (@endsNumber_cons '.' rfl (by decide) (places ++ '\n' :: rest))
  have sameText :
      (if negative then some '-' else none : Option Char).toList ++ naturalDigits whole
          ++ '.' :: places =
        signText negative ++ (naturalDigits whole ++ '.' :: places) := by
    cases negative <;> rfl
  rw [decimalFloat, bind_apply, signTaken, Option.bind_some, bind_apply, wholeTaken,
    Option.bind_some, bind_apply, floatTail_fraction areDigits, Option.bind_some]
  dsimp only
  rw [sameText, reads]
  simp [beq_infinity_of_isFinite finite]

/-- A finite double is read from its plain form with a point, with all its digits. -/
theorem value_pointed
    {negative : Bool}
    {whole : Nat}
    {places : List Char}
    {x : Float}
    (areDigits : NumberLiteral.isDigits places = true)
    (reads :
      NumberLiteral.number? (signText negative ++ (naturalDigits whole ++ '.' :: places)) = some x)
    (finite : x.isFinite = true)
    (rest : List Char) :
    value (signText negative ++ (naturalDigits whole ++ '.' :: (places ++ '\n' :: rest))) =
      some (.float x, '\n' :: rest) := by
  have noDate :
      datetime (signText negative ++ (naturalDigits whole ++ '.' :: (places ++ '\n' :: rest))) =
        none :=
    datetime_signed negative
      (isDateless_naturalDigits whole (isDateless_of_ne rfl (by decide) (by decide) _))
  simp [value, noDate, decimalFloat_pointed areDigits reads finite]

/-- An infinity is read from its name, with its sign. -/
theorem value_infinity (negative : Bool) (rest : List Char) :
    value (signText negative ++ 'i' :: 'n' :: 'f' :: '\n' :: rest) =
      some (.float (if negative then -Binary64.infinity else Binary64.infinity), '\n' :: rest) := by
  have signTaken :=
    @optional?_sign negative ('i' :: 'n' :: 'f' :: '\n' :: rest) (by
      intro first isFirst
      obtain rfl : 'i' = first := Option.some.inj isFirst
      decide)
  have noDate : datetime (signText negative ++ 'i' :: 'n' :: 'f' :: '\n' :: rest) = none :=
    datetime_signed negative (isDateless_of_ne rfl (by decide) (by decide) _)
  have noDigits : wholeDigits ('i' :: 'n' :: 'f' :: '\n' :: rest) = none := by
    simp [wholeDigits, digits]
  have notDecimal :
      decimalFloat (signText negative ++ 'i' :: 'n' :: 'f' :: '\n' :: rest) = none := by
    rw [decimalFloat, bind_apply, signTaken, Option.bind_some, bind_apply, noDigits]
    rfl
  have named :
      namedFloat (signText negative ++ 'i' :: 'n' :: 'f' :: '\n' :: rest) =
        some (if negative then -Binary64.infinity else Binary64.infinity, '\n' :: rest) := by
    rw [namedFloat, bind_apply, signTaken, Option.bind_some]
    cases negative <;> simp [namedMagnitude]
  simp [value, noDate, notDecimal, named]

/-- In base ten, digits have the value that they have everywhere. -/
theorem valueInBase_ten {word : List Char} (areDigits : ∀ digit ∈ word, digit.isDigit = true) :
    valueInBase 10 word = NumberLiteral.digitsValue word := by
  unfold valueInBase NumberLiteral.digitsValue
  generalize 0 = start
  induction word generalizing start with
  | nil => rfl
  | cons first others inductionHypothesis =>
      obtain ⟨isDigit, othersAreDigits⟩ := List.forall_mem_cons.mp areDigits
      rw [List.foldl_cons, List.foldl_cons, if_pos isDigit]
      exact inductionHypothesis othersAreDigits _

/-- Digits alone have no mark of another base. -/
theorem basedInteger_naturalDigits
    {mark : Char}
    (notNewline : mark ≠ '\n')
    (base : Nat)
    (accepts : Char → Bool)
    (number : Nat)
    (rest : List Char) :
    basedInteger mark base accepts (naturalDigits number ++ '\n' :: rest) = none := by
  obtain ⟨first, others, shape⟩ :=
    List.exists_cons_of_ne_nil (NumberText.naturalDigits_ne_nil number)
  by_cases isZero : first = '0'
  · rw [NumberText.naturalDigits_of_head (by rw [shape, isZero]; rfl)]
    simp [basedInteger, notNewline.symm]
  · rw [shape]
    simp [basedInteger, isZero]

/-- An integer is read when it fits into 64 bits with a sign. -/
theorem integer_naturalDigits {number : Nat} (fits : (number : Int) ≤ Binary64.greatestInt64)
    (rest : List Char) :
    integer (naturalDigits number ++ '\n' :: rest) = some ((number : Int), '\n' :: rest) := by
  have signTaken := optional?_sign_naturalDigits false number ('\n' :: rest)
  have wholeTaken :=
    wholeDigits_naturalDigits number (@endsNumber_cons '\n' rfl (by decide) rest)
  have isNumber : valueInBase 10 (naturalDigits number) = number := by
    rw [valueInBase_ten fun _ => NumberText.isDigit_of_mem_naturalDigits,
      NumberText.digitsValue_naturalDigits]
  have least : Binary64.leastInt64 ≤ number :=
    le_trans (by decide : Binary64.leastInt64 ≤ 0) (Int.natCast_nonneg number)
  have decimal :
      decimalInteger (naturalDigits number ++ '\n' :: rest) =
        some ((number : Int), '\n' :: rest) := by
    change decimalInteger (signText false ++ (naturalDigits number ++ '\n' :: rest)) = _
    rw [decimalInteger, bind_apply, signTaken, Option.bind_some, bind_apply, wholeTaken,
      Option.bind_some]
    simp [isNumber, fitting, least, fits]
  simp [integer, basedInteger_naturalDigits, decimal]

/-- Without a point, digits are an integer and not a double. -/
theorem value_naturalDigits {number : Nat} (fits : (number : Int) ≤ Binary64.greatestInt64)
    (rest : List Char) :
    value (naturalDigits number ++ '\n' :: rest) = some (.integer number, '\n' :: rest) := by
  have signTaken := optional?_sign_naturalDigits false number ('\n' :: rest)
  have wholeTaken :=
    wholeDigits_naturalDigits number (@endsNumber_cons '\n' rfl (by decide) rest)
  have noDate : datetime (naturalDigits number ++ '\n' :: rest) = none :=
    datetime_of_isDateless
      (isDateless_naturalDigits number (isDateless_of_ne rfl (by decide) (by decide) _))
  have notDecimal : decimalFloat (naturalDigits number ++ '\n' :: rest) = none := by
    change decimalFloat (signText false ++ (naturalDigits number ++ '\n' :: rest)) = _
    rw [decimalFloat, bind_apply, signTaken, Option.bind_some, bind_apply, wholeTaken,
      Option.bind_some, bind_apply]
    simp [floatTail, exponent, fraction]
  have notNamed : namedFloat (naturalDigits number ++ '\n' :: rest) = none := by
    change namedFloat (signText false ++ (naturalDigits number ++ '\n' :: rest)) = _
    rw [namedFloat, bind_apply, signTaken, Option.bind_some]
    obtain ⟨first, others, shape, isDigit⟩ :=
      NumberText.startsWithDigit_naturalDigits number ('\n' :: rest)
    have notI : first ≠ 'i' := by
      rintro rfl
      cases isDigit
    have notN : first ≠ 'n' := by
      rintro rfl
      cases isDigit
    rw [shape]
    simp [namedMagnitude, notI, notN]
  simp [value, noDate, notDecimal, notNamed, integer_naturalDigits fits]

end LayerPlayback.TomlNumber
