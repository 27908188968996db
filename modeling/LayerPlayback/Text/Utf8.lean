namespace LayerPlayback.Utf8

/-!
# Reading UTF-8

Bytes are read one at a time.  A lead byte fixes how many bytes must follow and
which values the first of them may take; this excludes overlong forms,
surrogates, and values beyond `U+10FFFF`.  A byte that cannot continue the open
character closes it as ill-formed and is then read as a lead byte, so every
ill-formed part is as long as it can be.

The result keeps ill-formed parts as `none`: a strict reader refuses them, and a
forgiving one replaces each by `U+FFFD`.
-/

/-- A character of which some bytes have been read. -/
structure Opened where
  /-- The bits read so far. -/
  value : Nat
  /-- How many more bytes complete the character after the next one. -/
  afterNext : Nat
  least : Nat
  greatest : Nat
  deriving Repr, DecidableEq

/-- What was read so far, the latest part first. -/
structure Reader where
  parts : List (Option Char)
  opened? : Option Opened
  deriving Repr, DecidableEq

/-- What a byte that starts a multi-byte character opens. -/
def opened? (byte : Nat) : Option Opened :=
  if 0xC2 ≤ byte ∧ byte ≤ 0xDF then
    some ⟨byte - 0xC0, 0, 0x80, 0xBF⟩
  else if 0xE0 ≤ byte ∧ byte ≤ 0xEF then
    some ⟨byte - 0xE0, 1,
      if byte = 0xE0 then 0xA0 else 0x80,
      if byte = 0xED then 0x9F else 0xBF⟩
  else if 0xF0 ≤ byte ∧ byte ≤ 0xF4 then
    some ⟨byte - 0xF0, 2,
      if byte = 0xF0 then 0x90 else 0x80,
      if byte = 0xF4 then 0x8F else 0xBF⟩
  else
    none

/-- Read a byte between characters. -/
def lead (parts : List (Option Char)) (byte : Nat) : Reader :=
  if byte < 0x80 then
    ⟨some (Char.ofNat byte) :: parts, none⟩
  else
    match opened? byte with
    | some opened => ⟨parts, some opened⟩
    | none => ⟨none :: parts, none⟩

/-- Read a byte that continues the open character. -/
def continued (parts : List (Option Char)) (opened : Opened) (byte : Nat) : Reader :=
  let value := opened.value * 64 + (byte - 0x80)
  match opened.afterNext with
  | 0 => ⟨some (Char.ofNat value) :: parts, none⟩
  | more + 1 => ⟨parts, some ⟨value, more, 0x80, 0xBF⟩⟩

/-- Read one byte. -/
def step (reader : Reader) (byte : UInt8) : Reader :=
  match reader.opened? with
  | none => lead reader.parts byte.toNat
  | some opened =>
      if opened.least ≤ byte.toNat ∧ byte.toNat ≤ opened.greatest then
        continued reader.parts opened byte.toNat
      else
        lead (none :: reader.parts) byte.toNat

/-- The parts in order; a character that is still open is ill-formed. -/
def Reader.finished (reader : Reader) : List (Option Char) :=
  match reader.opened? with
  | none => reader.parts.reverse
  | some _ => (none :: reader.parts).reverse

/-- The characters of a byte sequence, with `none` for each ill-formed part. -/
def parts (bytes : List UInt8) : List (Option Char) :=
  (bytes.foldl step ⟨[], none⟩).finished

/-- The text of a byte sequence that is well-formed UTF-8. -/
def strict? (bytes : List UInt8) : Option String :=
  let found := parts bytes
  if found.all Option.isSome then
    some (String.ofList (found.filterMap id))
  else
    none

/-- The text of a byte sequence, with `U+FFFD` for each ill-formed part. -/
def replacing (bytes : List UInt8) : String :=
  String.ofList ((parts bytes).map fun part => part.getD '\uFFFD')

end LayerPlayback.Utf8
