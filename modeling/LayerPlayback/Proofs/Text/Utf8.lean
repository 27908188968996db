import Mathlib.Data.List.Basic
import LayerPlayback.Text.Utf8

namespace LayerPlayback.Utf8

/-!
# Text survives its encoding

The bytes of an encoded character complete it and leave no character open, so the
strict reader gives every text back.
-/

theorem toNat_ofNat {byte : Nat} (fits : byte < 256) : (UInt8.ofNat byte).toNat = byte :=
  Nat.mod_eq_of_lt fits

/-- A lead byte of two opens a sequence with one byte to come. -/
theorem opened?_of_two {byte : Nat} (atLeast : 0xC2 ≤ byte) (atMost : byte ≤ 0xDF) :
    opened? byte = some ⟨byte - 0xC0, 0, 0x80, 0xBF⟩ := by
  unfold opened?
  rw [if_pos ⟨atLeast, atMost⟩]

/--
A lead byte of three leaves two to come; the next byte rules out overlong forms and
surrogates.
-/
theorem opened?_of_three {byte : Nat} (atLeast : 0xE0 ≤ byte) (atMost : byte ≤ 0xEF) :
    opened? byte =
      some ⟨byte - 0xE0, 1,
        if byte = 0xE0 then 0xA0 else 0x80,
        if byte = 0xED then 0x9F else 0xBF⟩ := by
  unfold opened?
  rw [if_neg (by omega), if_pos ⟨atLeast, atMost⟩]

/-- A lead byte of four leaves three to come; the next byte rules out what is not a code point. -/
theorem opened?_of_four {byte : Nat} (atLeast : 0xF0 ≤ byte) (atMost : byte ≤ 0xF4) :
    opened? byte =
      some ⟨byte - 0xF0, 2,
        if byte = 0xF0 then 0x90 else 0x80,
        if byte = 0xF4 then 0x8F else 0xBF⟩ := by
  unfold opened?
  rw [if_neg (by omega), if_neg (by omega), if_pos ⟨atLeast, atMost⟩]

section Bytes

variable (parts : List (Option Char))

/-- A byte between characters that opens one leaves it open. -/
theorem step_lead
    {byte : Nat}
    {opened : Opened}
    (opens : opened? byte = some opened)
    (beyondAscii : 0x80 ≤ byte)
    (fits : byte < 256) :
    step ⟨parts, none⟩ (UInt8.ofNat byte) = ⟨parts, some opened⟩ := by
  unfold step
  dsimp only
  rw [toNat_ofNat fits, lead, if_neg (Nat.not_lt.mpr beyondAscii), opens]

variable {value least greatest bits : Nat}

/-- A byte that is allowed after an open character gives it six more bits. -/
theorem step_middle
    (more : Nat)
    (atLeast : least ≤ bits + 0x80)
    (atMost : bits + 0x80 ≤ greatest)
    (small : bits < 64) :
    step ⟨parts, some ⟨value, more + 1, least, greatest⟩⟩ (UInt8.ofNat (bits + 0x80)) =
      ⟨parts, some ⟨value * 64 + bits, more, 0x80, 0xBF⟩⟩ := by
  unfold step
  dsimp only
  rw [toNat_ofNat (by omega), if_pos ⟨atLeast, atMost⟩, continued]
  dsimp only
  rw [Nat.add_sub_cancel]

/-- The last byte of an open character completes it. -/
theorem step_last
    (atLeast : least ≤ bits + 0x80)
    (atMost : bits + 0x80 ≤ greatest)
    (small : bits < 64) :
    step ⟨parts, some ⟨value, 0, least, greatest⟩⟩ (UInt8.ofNat (bits + 0x80)) =
      ⟨some (Char.ofNat (value * 64 + bits)) :: parts, none⟩ := by
  unfold step
  dsimp only
  rw [toNat_ofNat (by omega), if_pos ⟨atLeast, atMost⟩, continued]
  dsimp only
  rw [Nat.add_sub_cancel]

variable {code : Nat}

/-- One byte is an ASCII character. -/
theorem foldl_step_one (ascii : code < 0x80) :
    [UInt8.ofNat code].foldl step ⟨parts, none⟩ = ⟨some (Char.ofNat code) :: parts, none⟩ := by
  rw [List.foldl_cons, List.foldl_nil, step]
  dsimp only
  rw [toNat_ofNat (by omega), lead, if_pos ascii]

/-- Two bytes are put together to the code point that they were taken from. -/
theorem foldl_step_two (beyondOne : 0x80 ≤ code) (atMost : code < 0x800) :
    [ UInt8.ofNat (code / 64 % 0x20 + 0xc0),
      UInt8.ofNat (code % 0x40 + 0x80) ].foldl step ⟨parts, none⟩ =
      ⟨some (Char.ofNat code) :: parts, none⟩ := by
  have joined : (code / 64 % 0x20 + 0xc0 - 0xC0) * 64 + code % 0x40 = code := by omega
  rw [List.foldl_cons, List.foldl_cons, List.foldl_nil,
    step_lead parts (opened?_of_two (by omega) (by omega)) (by omega) (by omega),
    step_last parts (by omega) (by omega) (by omega), joined]

theorem foldl_step_three
    (beyondTwo : 0x800 ≤ code)
    (atMost : code < 0x10000)
    (noSurrogate : code < 0xD800 ∨ 0xDFFF < code) :
    [ UInt8.ofNat (code / 4096 % 0x10 + 0xe0),
      UInt8.ofNat (code / 64 % 0x40 + 0x80),
      UInt8.ofNat (code % 0x40 + 0x80) ].foldl step ⟨parts, none⟩ =
      ⟨some (Char.ofNat code) :: parts, none⟩ := by
  have joined :
      ((code / 4096 % 0x10 + 0xe0 - 0xE0) * 64 + code / 64 % 0x40) * 64 + code % 0x40 =
        code := by
    omega
  rw [List.foldl_cons, List.foldl_cons, List.foldl_cons, List.foldl_nil,
    step_lead parts (opened?_of_three (by omega) (by omega)) (by omega) (by omega),
    -- Neither overlong forms nor surrogates get past the bounds of the second byte.
    step_middle parts 0 (by split <;> omega) (by split <;> omega) (by omega),
    step_last parts (by omega) (by omega) (by omega), joined]

theorem foldl_step_four (beyondThree : 0x10000 ≤ code) (atMost : code < 0x110000) :
    [ UInt8.ofNat (code / 262144 % 0x08 + 0xf0),
      UInt8.ofNat (code / 4096 % 0x40 + 0x80),
      UInt8.ofNat (code / 64 % 0x40 + 0x80),
      UInt8.ofNat (code % 0x40 + 0x80) ].foldl step ⟨parts, none⟩ =
      ⟨some (Char.ofNat code) :: parts, none⟩ := by
  have joined :
      (((code / 262144 % 0x08 + 0xf0 - 0xF0) * 64 + code / 4096 % 0x40) * 64
          + code / 64 % 0x40) * 64 + code % 0x40 =
        code := by
    omega
  rw [List.foldl_cons, List.foldl_cons, List.foldl_cons, List.foldl_cons, List.foldl_nil,
    step_lead parts (opened?_of_four (by omega) (by omega)) (by omega) (by omega),
    step_middle parts 1 (by split <;> omega) (by split <;> omega) (by omega),
    step_middle parts 0 (by omega) (by omega) (by omega),
    step_last parts (by omega) (by omega) (by omega), joined]

end Bytes

/-- The bytes of a character are read as that character. -/
theorem foldl_step_encoded (parts : List (Option Char)) (character : Char) :
    (String.utf8EncodeChar character).foldl step ⟨parts, none⟩ =
      ⟨some character :: parts, none⟩ := by
  have valid : character.toNat < 0xD800 ∨ 0xDFFF < character.toNat ∧ character.toNat < 0x110000 :=
    character.valid
  have restored : Char.ofNat character.toNat = character := Char.ofNat_toNat character
  have code : character.val.toNat = character.toNat := rfl
  unfold String.utf8EncodeChar
  dsimp only
  rw [code]
  generalize character.toNat = code at valid restored
  rw [← restored]
  by_cases one : code ≤ 0x7f
  · rw [if_pos one]
    exact foldl_step_one parts (by omega)
  · by_cases two : code ≤ 0x7ff
    · rw [if_neg one, if_pos two]
      exact foldl_step_two parts (by omega) (by omega)
    · by_cases three : code ≤ 0xffff
      · rw [if_neg one, if_neg two, if_pos three]
        exact foldl_step_three parts (by omega) (by omega) (by omega)
      · rw [if_neg one, if_neg two, if_neg three]
        exact foldl_step_four parts (by omega) (by omega)

/-- Text that is encoded is decoded character by character. -/
theorem foldl_step_encodedAll (parts : List (Option Char)) (characters : List Char) :
    (characters.flatMap String.utf8EncodeChar).foldl step ⟨parts, none⟩ =
      ⟨(characters.map some).reverse ++ parts, none⟩ := by
  induction characters generalizing parts with
  | nil => rfl
  | cons first rest inductionHypothesis =>
      rw [List.flatMap_cons, List.foldl_append, foldl_step_encoded, inductionHypothesis]
      simp

/-- The encoded bytes of a text are well-formed and read as that text. -/
theorem strict?_encoded (text : String) :
    strict? text.toByteArray.data.toList = some text := by
  have encoded :
      text.toByteArray.data.toList = text.toList.flatMap String.utf8EncodeChar := by
    conv_lhs => rw [← String.ofList_toList (s := text), String.toByteArray_ofList]
    exact List.toList_data_toByteArray
  have found : parts text.toByteArray.data.toList = text.toList.map some := by
    rw [parts, encoded, foldl_step_encodedAll, Reader.finished]
    simp
  unfold strict?
  rw [found]
  simp

end LayerPlayback.Utf8
