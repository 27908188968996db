namespace LayerPlayback

/-!
# Command words

The words of a command give a value to some letters.  They are kept in order of
the letters' code points, one value a letter, so that equal words are written
alike.
-/

/-- Values of letters, in ascending order of the letters. -/
structure Words where
  entries : List (Char × Float)
  ascending : entries.Pairwise fun earlier later => earlier.1 < later.1
  deriving Repr

namespace Words

/-- No words at all. -/
def empty : Words :=
  ⟨[], .nil⟩

/-- The value of a letter, if it has one. -/
def get? (words : Words) (letter : Char) : Option Float :=
  words.entries.lookup letter

/-- Put a value at the place of its letter, in place of an earlier one. -/
def insertEntry (letter : Char) (value : Float) :
    List (Char × Float) → List (Char × Float)
  | [] => [(letter, value)]
  | entry :: rest =>
      if letter < entry.1 then
        (letter, value) :: entry :: rest
      else if letter = entry.1 then
        (letter, value) :: rest
      else
        entry :: insertEntry letter value rest

/-- An inserted list holds the new letter and old ones. -/
theorem letter_of_mem_insertEntry
    {letter : Char}
    {value : Float}
    {entries : List (Char × Float)}
    {entry : Char × Float}
    (member : entry ∈ insertEntry letter value entries) :
    entry.1 = letter ∨ entry ∈ entries := by
  induction entries with
  | nil =>
      simp_all [insertEntry]
  | cons first rest inductionHypothesis =>
      unfold insertEntry at member
      split at member
      · rcases List.mem_cons.mp member with rfl | older
        · exact .inl rfl
        · exact .inr older
      · split at member
        · rcases List.mem_cons.mp member with rfl | older
          · exact .inl rfl
          · exact .inr (List.mem_cons_of_mem _ older)
        · rcases List.mem_cons.mp member with rfl | older
          · exact .inr List.mem_cons_self
          · exact (inductionHypothesis older).imp_right (List.mem_cons_of_mem _)

/-- Insertion keeps the letters in ascending order. -/
theorem ascending_insertEntry
    (letter : Char)
    (value : Float)
    {entries : List (Char × Float)}
    (ascending : entries.Pairwise fun earlier later => earlier.1 < later.1) :
    (insertEntry letter value entries).Pairwise
      fun earlier later => earlier.1 < later.1 := by
  induction entries with
  | nil =>
      simp [insertEntry]
  | cons first rest inductionHypothesis =>
      obtain ⟨firstBelow, restAscending⟩ := List.pairwise_cons.mp ascending
      unfold insertEntry
      split
      · next below =>
          refine List.pairwise_cons.mpr ⟨fun entry member => ?_, ascending⟩
          rcases List.mem_cons.mp member with rfl | older
          · exact below
          · exact Char.lt_trans below (firstBelow entry older)
      · next notBelow =>
          split
          · next same =>
              exact List.pairwise_cons.mpr ⟨same ▸ firstBelow, restAscending⟩
          · next different =>
              have above : first.1 < letter :=
                Decidable.byContradiction fun notAbove =>
                  different
                    (Char.le_antisymm (Char.not_lt.mp notAbove) (Char.not_lt.mp notBelow))
              refine List.pairwise_cons.mpr
                ⟨fun entry member => ?_, inductionHypothesis restAscending⟩
              rcases letter_of_mem_insertEntry member with same | older
              · exact same ▸ above
              · exact firstBelow entry older

/-- Give a value to a letter. -/
def insert (words : Words) (letter : Char) (value : Float) : Words :=
  ⟨insertEntry letter value words.entries, ascending_insertEntry _ _ words.ascending⟩

/-- Take the value of a letter away. -/
def erase (words : Words) (letter : Char) : Words :=
  ⟨words.entries.filter fun entry => entry.1 != letter, words.ascending.filter _⟩

/-- Words from values in any order; the last value of a letter counts. -/
def ofList (entries : List (Char × Float)) : Words :=
  entries.foldl (fun words entry => words.insert entry.1 entry.2) empty

@[simp] theorem get?_empty (letter : Char) : empty.get? letter = none :=
  rfl

/-- In a list that has been inserted into, the new letter has the new value. -/
theorem lookup_insertEntry
    (letter : Char)
    (value : Float)
    (entries : List (Char × Float))
    (other : Char) :
    (insertEntry letter value entries).lookup other
      = if other = letter then some value else entries.lookup other := by
  induction entries with
  | nil => grind [insertEntry]
  | cons first rest inductionHypothesis => grind [insertEntry]

/-- A letter that is given a value has it, and the others keep theirs. -/
theorem get?_insert (words : Words) (letter : Char) (value : Float) (other : Char) :
    (words.insert letter value).get? other
      = if other = letter then some value else words.get? other :=
  lookup_insertEntry letter value words.entries other

/-- In a list without a letter, the letter has no value. -/
theorem lookup_filter_ne (letter : Char) (entries : List (Char × Float)) (other : Char) :
    (entries.filter fun entry => entry.1 != letter).lookup other
      = if other = letter then none else entries.lookup other := by
  induction entries with
  | nil => simp
  | cons first rest inductionHypothesis => grind

/-- A letter that is erased has no value, and the others keep theirs. -/
theorem get?_erase (words : Words) (letter other : Char) :
    (words.erase letter).get? other
      = if other = letter then none else words.get? other :=
  lookup_filter_ne letter words.entries other

end Words

end LayerPlayback
