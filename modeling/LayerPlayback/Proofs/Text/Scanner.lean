import LayerPlayback.Text.Scanner

namespace LayerPlayback.Scanner

/-!
# What scanners take

The equations of the combinators, for running a scanner on a text of which only the
front is known, and how often a repeated scanner succeeds.
-/

variable {α β : Type}

@[simp] theorem pure_apply (value : α) (characters : List Char) :
    (pure value : Scanner α) characters = some (value, characters) :=
  rfl

@[simp] theorem failure_apply (characters : List Char) :
    (failure : Scanner α) characters = none :=
  rfl

/-- The second scanner goes on where the first one stopped, with what the first one took. -/
@[simp] theorem bind_apply
    (scanner : Scanner α)
    (next : α → Scanner β)
    (characters : List Char) :
    (scanner >>= next) characters =
      (scanner characters).bind fun taken => next taken.1 taken.2 :=
  rfl

@[simp] theorem map_apply (function : α → β) (scanner : Scanner α) (characters : List Char) :
    (function <$> scanner) characters =
      (scanner characters).map fun taken => (function taken.1, taken.2) := by
  change (scanner characters).bind (fun taken => some (function taken.1, taken.2)) = _
  cases scanner characters <;> rfl

/-- The second scanner starts over from the front when the first one fails. -/
@[simp] theorem orElse_apply (first second : Scanner α) (characters : List Char) :
    (first <|> second) characters = (first characters).or (second characters) := by
  change (first characters <|> second characters) = _
  cases first characters <;> rfl

@[simp] theorem peek?_apply (characters : List Char) :
    peek? characters = some (characters.head?, characters) :=
  rfl

@[simp] theorem character_nil (accepts : Char → Bool) : character accepts [] = none :=
  rfl

@[simp] theorem character_cons (accepts : Char → Bool) (first : Char) (rest : List Char) :
    character accepts (first :: rest) = if accepts first then some (first, rest) else none :=
  rfl

@[simp] theorem exactly_nil (expected : Char) : exactly expected [] = none :=
  rfl

@[simp] theorem exactly_cons (expected first : Char) (rest : List Char) :
    exactly expected (first :: rest) = if first = expected then some ((), rest) else none := by
  by_cases same : first = expected <;> simp [exactly, same]

@[simp] theorem sequence_nil (characters : List Char) :
    sequence [] characters = some ((), characters) :=
  rfl

@[simp] theorem sequence_cons (first : Char) (others characters : List Char) :
    sequence (first :: others) characters =
      (exactly first characters).bind fun taken => sequence others taken.2 :=
  rfl

/-- An optional scanner never fails: without a match it takes nothing. -/
@[simp] theorem optional?_apply (scanner : Scanner α) (characters : List Char) :
    optional? scanner characters =
      some ((scanner characters).elim (none, characters) fun taken => (some taken.1, taken.2)) := by
  cases result : scanner characters <;> simp [optional?, result]

/-- What follows a run of characters of a class and ends it. -/
def Ends (accepts : Char → Bool) (rest : List Char) : Prop :=
  ∀ next ∈ rest.head?, accepts next = false

/-- A character outside a class ends its run. -/
theorem ends_cons {accepts : Char → Bool} {next : Char} (other : accepts next = false)
    (rest : List Char) :
    Ends accepts (next :: rest) := by
  intro first isFirst
  obtain rfl : next = first := Option.some.inj isFirst
  exact other

theorem ends_nil (accepts : Char → Bool) : Ends accepts [] := by
  intro next isNext
  cases isNext

theorem forall_ne_of_notMem {mark : Char} {characters : List Char} (absent : mark ∉ characters) :
    ∀ character ∈ characters, decide (character ≠ mark) = true :=
  fun _ member => decide_eq_true fun isMark => absent (isMark ▸ member)

/-- What a run takes is exactly the word in front of its end. -/
theorem takeWhile_append_of_ends
    {accepts : Char → Bool}
    {word rest : List Char}
    (accepted : ∀ letter ∈ word, accepts letter = true)
    (ends : Ends accepts rest) :
    (word ++ rest).takeWhile accepts = word := by
  rw [List.takeWhile_append_of_pos accepted]
  cases rest with
  | nil => simp
  | cons next others => simp [ends next rfl]

/-- Behind a run the text goes on with its end. -/
theorem dropWhile_append_of_ends
    {accepts : Char → Bool}
    {word rest : List Char}
    (accepted : ∀ letter ∈ word, accepts letter = true)
    (ends : Ends accepts rest) :
    (word ++ rest).dropWhile accepts = rest := by
  rw [List.dropWhile_append_of_pos accepted]
  cases rest with
  | nil => rfl
  | cons next others => simp [ends next rfl]

/-- A run takes a word, which may be empty, and leaves what ends it. -/
theorem run_append
    {accepts : Char → Bool}
    {word rest : List Char}
    (accepted : ∀ letter ∈ word, accepts letter = true)
    (ends : Ends accepts rest) :
    run accepts (word ++ rest) = some (word, rest) := by
  rw [run, takeWhile_append_of_ends accepted ends, dropWhile_append_of_ends accepted ends]

/-- A run that must not be empty takes a nonempty word in the same way. -/
theorem run1_append
    {accepts : Char → Bool}
    {word rest : List Char}
    (nonempty : word ≠ [])
    (accepted : ∀ letter ∈ word, accepts letter = true)
    (ends : Ends accepts rest) :
    run1 accepts (word ++ rest) = some (word, rest) := by
  simp [run1, run_append accepted ends, nonempty]

/-- A scanner that succeeds some times in a row and then refuses. -/
inductive Repeats (scanner : Scanner α) : List Char → List α → List Char → Prop where
  | done {rest : List Char} (refuses : scanner rest = none) :
      Repeats scanner rest [] rest
  | more
      {characters middle rest : List Char}
      {first : α}
      {results : List α}
      (takes : scanner characters = some (first, middle))
      (shorter : middle.length < characters.length)
      (repeats : Repeats scanner middle results rest) :
      Repeats scanner characters (first :: results) rest

/-- Every success takes a character, so the repetition does not end too early. -/
theorem atMost_of_repeats
    {scanner : Scanner α}
    {characters rest : List Char}
    {results : List α}
    (repeats : Repeats scanner characters results rest)
    {most : Nat}
    (enough : characters.length ≤ most) :
    atMost scanner most characters = some (results, rest) := by
  induction repeats generalizing most with
  | @done rest refuses =>
      cases most with
      | zero => rfl
      | succ fewer => simp [atMost, refuses]
  | @more characters middle rest first results takes shorter _ inductionHypothesis =>
      cases most with
      | zero => omega
      | succ fewer =>
          have others := @inductionHypothesis fewer (by omega)
          simp [atMost, takes, others]

/-- Repetition takes all that the scanner accepts one after the other, and stops where it fails. -/
theorem many_of_repeats
    {scanner : Scanner α}
    {characters rest : List Char}
    {results : List α}
    (repeats : Repeats scanner characters results rest) :
    many scanner characters = some (results, rest) :=
  atMost_of_repeats repeats (Nat.le_refl _)

/-- A scanner that takes each letter of a word by itself repeats through the word. -/
theorem repeats_word
    {scanner : Scanner Char}
    {word rest : List Char}
    (takes : ∀ letter ∈ word, ∀ others, scanner (letter :: others) = some (letter, others))
    (refuses : scanner rest = none) :
    Repeats scanner (word ++ rest) word rest := by
  induction word with
  | nil => exact .done refuses
  | cons first others inductionHypothesis =>
      obtain ⟨takesFirst, takesOthers⟩ := List.forall_mem_cons.mp takes
      exact .more (takesFirst _) (Nat.lt_succ_self _) (inductionHypothesis takesOthers)

/-- Scanned once, when no separator follows. -/
theorem separated_of_one
    {scanner : Scanner α}
    {separator : Scanner β}
    {characters rest : List Char}
    {result : α}
    (takes : scanner characters = some (result, rest))
    (refuses : separator rest = none) :
    separated scanner separator characters = some ([result], rest) := by
  have noMore : (do let _ ← separator; scanner : Scanner α) rest = none := by
    simp [refuses]
  simp [separated, takes, many_of_repeats (.done noMore)]

end LayerPlayback.Scanner
