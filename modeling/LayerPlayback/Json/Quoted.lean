namespace LayerPlayback.JsonQuoted

/-!
# Quoted text in JSON

Writing escapes quotes, backslashes, and control characters.  Reading undoes
every escape; a character beyond `U+FFFF` may be written as two escapes, a high
and a low surrogate, and a surrogate that is not part of such a pair stands for no
text.
-/

/-- One piece of quoted text: a character, or a code unit from an escape. -/
inductive Piece where
  | character (character : Char)
  | unit (code : Nat)
  deriving Repr, DecidableEq

/-- Whether a code unit is the first half of a pair. -/
def isHighSurrogate (code : Nat) : Bool :=
  0xD800 ≤ code && code ≤ 0xDBFF

/-- Whether a code unit is the second half of a pair. -/
def isLowSurrogate (code : Nat) : Bool :=
  0xDC00 ≤ code && code ≤ 0xDFFF

/-- The character that a pair of surrogates stands for. -/
def pairedCharacter (high low : Nat) : Char :=
  Char.ofNat (0x10000 + (high - 0xD800) * 0x400 + (low - 0xDC00))

/-- Put the character of a piece in front of text; a high surrogate takes the unit after it. -/
def assemble? : List Piece → Option (List Char)
  | [] => some []
  | .character character :: rest => (assemble? rest).map (character :: ·)
  | .unit high :: .unit low :: rest =>
      if isHighSurrogate high then
        if isLowSurrogate low then
          (assemble? rest).map (pairedCharacter high low :: ·)
        else
          none
      else if isLowSurrogate high then
        none
      else
        (assemble? (.unit low :: rest)).map (Char.ofNat high :: ·)
  | .unit code :: rest =>
      if isHighSurrogate code || isLowSurrogate code then
        none
      else
        (assemble? rest).map (Char.ofNat code :: ·)

/-- The character that a backslash and a letter stand for. -/
def unescape? : Char → Option Char
  | '\x22' => some '\x22'
  | '\\' => some '\\'
  | '/' => some '/'
  | 'b' => some '\x08'
  | 'f' => some '\x0C'
  | 'n' => some '\n'
  | 'r' => some '\r'
  | 't' => some '\t'
  | _ => none

/-- The value of a hexadecimal digit. -/
def hexValue? (digit : Char) : Option Nat :=
  if '0' ≤ digit ∧ digit ≤ '9' then
    some (digit.toNat - '0'.toNat)
  else if 'a' ≤ digit ∧ digit ≤ 'f' then
    some (digit.toNat - 'a'.toNat + 10)
  else if 'A' ≤ digit ∧ digit ≤ 'F' then
    some (digit.toNat - 'A'.toNat + 10)
  else
    none

/-- The lower-case hexadecimal digit of a value below sixteen. -/
def hexDigit (value : Nat) : Char :=
  if value < 10 then
    Char.ofNat ('0'.toNat + value)
  else
    Char.ofNat ('a'.toNat + (value - 10))

/-- A character inside quotes. -/
def escape (character : Char) : List Char :=
  match character with
  | '\x22' => ['\\', '\x22']
  | '\\' => ['\\', '\\']
  | '\x08' => ['\\', 'b']
  | '\x0C' => ['\\', 'f']
  | '\n' => ['\\', 'n']
  | '\r' => ['\\', 'r']
  | '\t' => ['\\', 't']
  | other =>
      if other.toNat < 0x20 then
        ['\\', 'u', '0', '0', hexDigit (other.toNat / 16), hexDigit (other.toNat % 16)]
      else
        [other]

/-- Text with its quotes. -/
def encode (text : List Char) : List Char :=
  '\x22' :: text.flatMap escape ++ ['\x22']

end LayerPlayback.JsonQuoted
