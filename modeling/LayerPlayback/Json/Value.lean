import LayerPlayback.Json.Number

namespace LayerPlayback

/-!
# JSON values

A value as it is written: numbers keep their digits and objects their order,
with keys that are repeated.
-/

/-- A JSON value. -/
inductive Json where
  | null
  | bool (value : Bool)
  | number (number : JsonNumber)
  | string (text : String)
  | array (items : List Json)
  | object (fields : List (String × Json))
  /--
  A string, or an object with a key, whose escapes hold an unpaired surrogate: it
  has the right syntax but stands for no text.
  -/
  | illFormed
  deriving Repr

namespace Json

/-- A natural number. -/
def ofNat (value : Nat) : Json :=
  .number (.ofNat value)

/-- A double; what is not finite has no number and becomes null. -/
def ofFloat (x : Float) : Json :=
  if x.isFinite then .number (.ofFinite x) else .null

/-- A value that may be missing. -/
def ofOption {α : Type} (encode : α → Json) : Option α → Json
  | some value => encode value
  | none => .null

/-- A list of values. -/
def ofList {α : Type} (encode : α → Json) (values : List α) : Json :=
  .array (values.map encode)

/-- A character as a string. -/
def ofChar (character : Char) : Json :=
  .string character.toString

end Json

end LayerPlayback
