namespace LayerPlayback.Blank

/-!
# Blanks and words

A blank is a character with the Unicode property `White_Space`.  The words of a
text are its maximal runs of other characters.
-/

/-- The code points with the Unicode property `White_Space`, as closed ranges. -/
def ranges : List (Nat × Nat) :=
  [ (0x0009, 0x000D),
    (0x0020, 0x0020),
    (0x0085, 0x0085),
    (0x00A0, 0x00A0),
    (0x1680, 0x1680),
    (0x2000, 0x200A),
    (0x2028, 0x2029),
    (0x202F, 0x202F),
    (0x205F, 0x205F),
    (0x3000, 0x3000) ]

/-- Whether a character separates words. -/
def isBlank (character : Char) : Bool :=
  ranges.any fun (first, last) =>
    first ≤ character.toNat && character.toNat ≤ last

/-- The maximal runs of characters that are not blank, from left to right. -/
def words (characters : List Char) : List (List Char) :=
  (characters.splitOnP isBlank).filter fun word => !word.isEmpty

end LayerPlayback.Blank
