import LayerPlayback.Text.UpperCaseTable

namespace LayerPlayback.UpperCase

/-!
# Upper case

The full Unicode upper-case mapping.  It works character by character, without
regard to neighbours or language, and may lengthen the text: `ß` becomes `SS`.
-/

/-- Whether a code point is one of those that a range lists. -/
def CaseRange.covers (range : CaseRange) (code : Nat) : Bool :=
  range.first ≤ code && code ≤ range.last && (code - range.first) % range.stride = 0

/-- The simple upper-case form of a code point beyond ASCII. -/
def simple (code : Nat) : Nat :=
  match ranges.find? fun range => range.covers code with
  | some range => (code + range.shift).toNat
  | none => code

/-- The upper-case form of a code point beyond ASCII. -/
def codes (code : Nat) : List Nat :=
  (expansions.lookup code).getD [simple code]

/-- The upper-case form of a character. -/
def ofCharacter (character : Char) : List Char :=
  if character.toNat < 0x80 then
    [character.toUpper]
  else
    (codes character.toNat).map Char.ofNat

/-- The upper-case form of a text. -/
def ofCharacters (characters : List Char) : List Char :=
  characters.flatMap ofCharacter

end LayerPlayback.UpperCase
