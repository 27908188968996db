import LayerPlayback.Json.Value

namespace LayerPlayback.Json

/-!
# Typed readings of JSON values

A record is written as an object with its fields in any order, or as an array with
all of them in declaration order.  Unknown fields of an object are passed over; a
known field may not be repeated.  A choice is written as the name of its case, or
as an object whose only field is that name with the contents of the case.
-/

/-- The value of each named field, none when it is missing; a repeated one is refused. -/
def named? (names : List String) (fields : List (String × Json)) :
    Option (List (Option Json)) :=
  names.mapM fun name =>
    match fields.filter fun field => field.1 = name with
    | [] => some none
    | [field] => some (some field.2)
    | _ => none

/-- The fields of a record. -/
def record? (names : List String) : Json → Option (List (Option Json))
  | .object fields => named? names fields
  | .array items => if items.length = names.length then some (items.map some) else none
  | _ => none

/-- The fields of a record whose array may end early. -/
def openRecord? (names : List String) : Json → Option (List (Option Json))
  | .object fields => named? names fields
  | .array items =>
      if items.length ≤ names.length then
        some (items.map some ++ List.replicate (names.length - items.length) none)
      else
        none
  | _ => none

/-- A field that must be there. -/
def required? {α : Type} (decode? : Json → Option α) (field? : Option Json) : Option α :=
  field?.bind decode?

/-- A field that may be missing or null. -/
def optional? {α : Type} (decode? : Json → Option α) : Option Json → Option (Option α)
  | none => some none
  | some .null => some none
  | some value => (decode? value).map some

/-- A field that has a value of its own when it is missing. -/
def defaulted? {α : Type}
    (decode? : Json → Option α)
    (fallback : α) :
    Option Json → Option α
  | none => some fallback
  | some value => decode? value

/-- The name of a case, and its contents if it has any. -/
def case? : Json → Option (String × Option Json)
  | .string name => some (name, none)
  | .object [(name, contents)] => some (name, some contents)
  | _ => none

/-- The name of a case that has no contents. -/
def unitCase? (json : Json) : Option String :=
  match case? json with
  | some (name, none) => some name
  | some (name, some .null) => some name
  | _ => none

/-- A truth value. -/
def bool? : Json → Option Bool
  | .bool value => some value
  | _ => none

/-- A double; whole numbers are read too. -/
def float? : Json → Option Float
  | .number written => written.float?
  | _ => none

/-- A natural number below `2 ^ 64`. -/
def natural? : Json → Option Nat
  | .number written => written.natural? (UInt64.size - 1)
  | _ => none

/-- A natural number below `2 ^ 32`. -/
def uint32? : Json → Option UInt32
  | .number written => (written.natural? (UInt32.size - 1)).map Nat.toUInt32
  | _ => none

/-- A text. -/
def string? : Json → Option String
  | .string text => some text
  | _ => none

/-- The character of a text that has exactly one. -/
def onlyCharacter? (text : String) : Option Char :=
  match text.toList with
  | [character] => some character
  | _ => none

/-- A text of one character. -/
def char? (json : Json) : Option Char :=
  json.string?.bind onlyCharacter?

/-- A list of values. -/
def list? {α : Type} (decode? : Json → Option α) : Json → Option (List α)
  | .array items => items.mapM decode?
  | _ => none

/-- The entries of an object, in the order in which they are written. -/
def entries? : Json → Option (List (String × Json))
  | .object fields => some fields
  | _ => none

end LayerPlayback.Json
