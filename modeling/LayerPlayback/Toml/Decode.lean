import LayerPlayback.Number.Binary64
import LayerPlayback.Toml.Value

namespace LayerPlayback.Toml

/-!
# Typed readings of TOML values

A record is a table with its fields in any order, or an array with the first of
them in declaration order.  Unknown fields and further items are passed over, and
every field has a value of its own when it is missing.  A date counts as a table of
which nothing is known.
-/

/-- The value of each named field, none when it is missing. -/
def record? (names : List String) : Toml → Option (List (Option Toml))
  | .table entries => some (names.map fun name => entries.lookup name)
  | .array items => some ((List.range names.length).map fun index => items[index]?)
  | .datetime => some (names.map fun _ => none)
  | _ => none

/-- A field that has a value of its own when it is missing. -/
def defaulted? {α : Type}
    (decode? : Toml → Option α)
    (fallback : α) :
    Option Toml → Option α
  | none => some fallback
  | some value => decode? value

/-- The name of a case without contents; a table may hold something empty under it. -/
def unitCase? : Toml → Option String
  | .string name => some name
  | .table [(name, .table [])] => some name
  | .table [(name, .array [])] => some name
  | _ => none

/-- A truth value. -/
def bool? : Toml → Option Bool
  | .bool value => some value
  | _ => none

/-- The double of an integer. -/
def floatOfInteger (value : Int) : Float :=
  if value < 0 then -(Float.ofNat value.natAbs) else Float.ofNat value.natAbs

/-- A double; integers are read too. -/
def float? : Toml → Option Float
  | .float value => some value
  | .integer value => some (floatOfInteger value)
  | _ => none

/-- A natural number below `2 ^ 32`. -/
def uint32? : Toml → Option UInt32
  | .integer value =>
      if 0 ≤ value ∧ value < UInt32.size then some value.toNat.toUInt32 else none
  | _ => none

/-- A text of one character. -/
def char? : Toml → Option Char
  | .string text =>
      match text.toList with
      | [character] => some character
      | _ => none
  | _ => none

end LayerPlayback.Toml
