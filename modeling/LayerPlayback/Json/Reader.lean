import LayerPlayback.Json.Token

namespace LayerPlayback

/-!
# Reading JSON

The reader takes one token after the other and keeps the arrays and objects that
are still open on a stack, so values may be nested to any depth.
-/

/-- An array or object that is still open. -/
inductive JsonFrame where
  /-- An array with the items before the next one, the last first. -/
  | items (reversed : List Json)
  /-- An object with the fields before the next one, the last first, and its key. -/
  | fields (reversed : List (Option String × Json)) (key? : Option String)
  deriving Repr

/-- What a reader waits for. -/
inductive JsonReader where
  /-- Any value. -/
  | value (stack : List JsonFrame)
  /-- The first item of an array, or its end. -/
  | itemOrEnd (stack : List JsonFrame)
  /-- The first key of an object, or its end. -/
  | keyOrEnd (stack : List JsonFrame)
  /-- A further key of an object. -/
  | key (reversed : List (Option String × Json)) (stack : List JsonFrame)
  /-- The colon after a key. -/
  | colon
      (reversed : List (Option String × Json))
      (key? : Option String)
      (stack : List JsonFrame)
  /-- What follows a complete value. -/
  | complete (value : Json) (stack : List JsonFrame)
  deriving Repr

namespace JsonReader

/-- The object of some fields; a key without text leaves it without meaning. -/
def objectOf (fields : List (Option String × Json)) : Json :=
  if fields.all fun field => field.1.isSome then
    .object (fields.filterMap fun (name?, read) => name?.map fun name => (name, read))
  else
    .illFormed

/-- Read the first token of a value. -/
def stepValue (stack : List JsonFrame) : JsonToken → Option JsonReader
  | .scalar read => some (.complete read stack)
  | .openArray => some (.itemOrEnd stack)
  | .openObject => some (.keyOrEnd stack)
  | _ => none

/-- Read a key. -/
def stepKey
    (reversed : List (Option String × Json))
    (stack : List JsonFrame) :
    JsonToken → Option JsonReader
  | .scalar (.string text) => some (.colon reversed (some text) stack)
  | .scalar .illFormed => some (.colon reversed none stack)
  | _ => none

/-- Read what follows a complete value. -/
def stepComplete (read : Json) : List JsonFrame → JsonToken → Option JsonReader
  | .items reversed :: stack, .comma =>
      some (.value (.items (read :: reversed) :: stack))
  | .items reversed :: stack, .closeArray =>
      some (.complete (.array (read :: reversed).reverse) stack)
  | .fields reversed name? :: stack, .comma =>
      some (.key ((name?, read) :: reversed) stack)
  | .fields reversed name? :: stack, .closeObject =>
      some (.complete (objectOf ((name?, read) :: reversed).reverse) stack)
  | _, _ => none

/-- Read one token. -/
def step (reader : JsonReader) (token : JsonToken) : Option JsonReader :=
  match reader, token with
  | .value stack, token => stepValue stack token
  | .itemOrEnd stack, .closeArray => some (.complete (.array []) stack)
  | .itemOrEnd stack, token => stepValue (.items [] :: stack) token
  | .keyOrEnd stack, .closeObject => some (.complete (.object []) stack)
  | .keyOrEnd stack, token => stepKey [] stack token
  | .key reversed stack, token => stepKey reversed stack token
  | .colon reversed name? stack, .colon => some (.value (.fields reversed name? :: stack))
  | .colon _ _ _, _ => none
  | .complete read stack, token => stepComplete read stack token

/-- The value that was read, when nothing is open. -/
def finished? : JsonReader → Option Json
  | .complete read [] => some read
  | _ => none

end JsonReader

namespace Json

/-- The value of a list of tokens. -/
def ofTokens? (tokens : List JsonToken) : Option Json :=
  (tokens.foldlM JsonReader.step (.value [])).bind JsonReader.finished?

/-- The value that a text holds, with nothing but blanks around it. -/
def ofText? (text : String) : Option Json :=
  (JsonToken.ofCharacters? text.toList).bind ofTokens?

end Json

end LayerPlayback
