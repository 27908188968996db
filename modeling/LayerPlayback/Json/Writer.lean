import LayerPlayback.Json.Quoted
import LayerPlayback.Json.Value

namespace LayerPlayback

/-!
# Writing JSON

The compact form has no blanks; the indented form has one item or field a line,
two spaces deeper than what holds it, and nothing inside empty arrays and objects.
A value without text has no written form, and null stands in for it.
-/

namespace Json

/-- Separate pieces of text with commas. -/
def separated (separator : List Char) (pieces : List (List Char)) : List Char :=
  separator.intercalate pieces

mutual

/-- A value without blanks. -/
def compact : Json → List Char
  | .null => ['n', 'u', 'l', 'l']
  | .bool true => ['t', 'r', 'u', 'e']
  | .bool false => ['f', 'a', 'l', 's', 'e']
  | .number written => written.characters
  | .string text => JsonQuoted.encode text.toList
  | .array items => '[' :: separated [','] (compactItems items) ++ [']']
  | .object fields => '\x7b' :: separated [','] (compactFields fields) ++ ['\x7d']
  | .illFormed => ['n', 'u', 'l', 'l']

/-- Each item without blanks. -/
def compactItems : List Json → List (List Char)
  | [] => []
  | item :: rest => compact item :: compactItems rest

/-- Each field without blanks. -/
def compactFields : List (String × Json) → List (List Char)
  | [] => []
  | (key, value) :: rest =>
      (JsonQuoted.encode key.toList ++ ':' :: compact value) :: compactFields rest

end

/-- A new line at a depth. -/
def lineBreak (depth : Nat) : List Char :=
  '\n' :: List.replicate (2 * depth) ' '

/-- Pieces between brackets, each on a line of its own. -/
def block (opening closing : Char) (depth : Nat) : List (List Char) → List Char
  | [] => [opening, closing]
  | pieces =>
      opening :: lineBreak (depth + 1)
        ++ separated (',' :: lineBreak (depth + 1)) pieces
        ++ lineBreak depth
        ++ [closing]

mutual

/-- A value at a depth, with indented contents. -/
def indented (depth : Nat) : Json → List Char
  | .array items => block '[' ']' depth (indentedItems depth items)
  | .object fields => block '\x7b' '\x7d' depth (indentedFields depth fields)
  | .null => ['n', 'u', 'l', 'l']
  | .bool true => ['t', 'r', 'u', 'e']
  | .bool false => ['f', 'a', 'l', 's', 'e']
  | .number written => written.characters
  | .string text => JsonQuoted.encode text.toList
  | .illFormed => ['n', 'u', 'l', 'l']

/-- Each item of an array at a depth. -/
def indentedItems (depth : Nat) : List Json → List (List Char)
  | [] => []
  | item :: rest => indented (depth + 1) item :: indentedItems depth rest

/-- Each field of an object at a depth. -/
def indentedFields (depth : Nat) : List (String × Json) → List (List Char)
  | [] => []
  | (key, value) :: rest =>
      (JsonQuoted.encode key.toList ++ ':' :: ' ' :: indented (depth + 1) value)
        :: indentedFields depth rest

end

mutual

/-- The value with the fields of every object in ascending order of their keys. -/
def sorted : Json → Json
  | .array items => .array (sortedItems items)
  | .object fields =>
      .object ((sortedFields fields).mergeSort fun first second => first.1 ≤ second.1)
  | other => other

/-- Each item with sorted objects. -/
def sortedItems : List Json → List Json
  | [] => []
  | item :: rest => sorted item :: sortedItems rest

/-- Each field with sorted objects in its value. -/
def sortedFields : List (String × Json) → List (String × Json)
  | [] => []
  | (key, value) :: rest => (key, sorted value) :: sortedFields rest

end

/-- The text of a value without blanks. -/
def compactText (json : Json) : String :=
  String.ofList json.compact

/-- The text of a value on indented lines. -/
def indentedText (json : Json) : String :=
  String.ofList (json.indented 0)

end Json

end LayerPlayback
