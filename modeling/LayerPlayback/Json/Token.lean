import LayerPlayback.Json.Quoted
import LayerPlayback.Json.Value

namespace LayerPlayback

/-!
# JSON tokens

The lexer reads a text character by character.  Between tokens it skips blanks and
takes punctuation; a quote opens a string, and letters, digits, signs, and points
collect into a bare word, which must be a number or one of three names.
-/

/-- A token; strings, numbers, and names are complete values. -/
inductive JsonToken where
  | openArray
  | closeArray
  | openObject
  | closeObject
  | colon
  | comma
  | scalar (value : Json)
  deriving Repr

/-- What the lexer is in the middle of. -/
inductive JsonLexing where
  | between
  /-- A bare word, its last character first. -/
  | bare (reversed : List Char)
  /-- A string, its last piece first. -/
  | quoted (reversed : List JsonQuoted.Piece)
  /-- A string after a backslash. -/
  | escape (reversed : List JsonQuoted.Piece)
  /-- A string inside an escape by number, with the digits that are still to come. -/
  | hex (reversed : List JsonQuoted.Piece) (value digitsLeft : Nat)
  deriving Repr

/-- A lexer with the tokens so far, the last one first. -/
structure JsonLexer where
  reversed : List JsonToken := []
  lexing : JsonLexing := .between
  deriving Repr

namespace JsonLexer

/-- The blanks between tokens. -/
def isSpace (character : Char) : Bool :=
  character = ' ' || character = '\n' || character = '\t' || character = '\r'

/-- The characters of numbers and names. -/
def isBare (character : Char) : Bool :=
  character.isAlphanum || character = '+' || character = '-' || character = '.'

/-- The token of a punctuation character. -/
def punctuation? : Char → Option JsonToken
  | '[' => some .openArray
  | ']' => some .closeArray
  | '\x7b' => some .openObject
  | '\x7d' => some .closeObject
  | ':' => some .colon
  | ',' => some .comma
  | _ => none

/-- The value of a bare word. -/
def bareValue? : List Char → Option Json
  | ['n', 'u', 'l', 'l'] => some .null
  | ['t', 'r', 'u', 'e'] => some (.bool true)
  | ['f', 'a', 'l', 's', 'e'] => some (.bool false)
  | characters => (JsonNumber.ofCharacters? characters).map .number

/-- The value of a string. -/
def quotedValue (pieces : List JsonQuoted.Piece) : Json :=
  match JsonQuoted.assemble? pieces with
  | some characters => .string (String.ofList characters)
  | none => .illFormed

/-- Read a character between tokens. -/
def stepBetween (reversed : List JsonToken) (character : Char) : Option JsonLexer :=
  if isSpace character then
    some ⟨reversed, .between⟩
  else if character = '\x22' then
    some ⟨reversed, .quoted []⟩
  else if isBare character then
    some ⟨reversed, .bare [character]⟩
  else
    (punctuation? character).map fun token => ⟨token :: reversed, .between⟩

/-- Read a character of a string. -/
def stepQuoted
    (reversed : List JsonToken)
    (pieces : List JsonQuoted.Piece)
    (character : Char) :
    Option JsonLexer :=
  if character = '\x22' then
    some ⟨.scalar (quotedValue pieces.reverse) :: reversed, .between⟩
  else if character = '\\' then
    some ⟨reversed, .escape pieces⟩
  else if character.toNat < 0x20 then
    none
  else
    some ⟨reversed, .quoted (.character character :: pieces)⟩

/-- Read the character after a backslash. -/
def stepEscape
    (reversed : List JsonToken)
    (pieces : List JsonQuoted.Piece)
    (character : Char) :
    Option JsonLexer :=
  if character = 'u' then
    some ⟨reversed, .hex pieces 0 4⟩
  else
    (JsonQuoted.unescape? character).map fun unescaped =>
      ⟨reversed, .quoted (.character unescaped :: pieces)⟩

/-- Read a digit of an escape by number. -/
def stepHex
    (reversed : List JsonToken)
    (pieces : List JsonQuoted.Piece)
    (value digitsLeft : Nat)
    (character : Char) :
    Option JsonLexer :=
  (JsonQuoted.hexValue? character).map fun digit =>
    let next := 16 * value + digit
    if digitsLeft ≤ 1 then
      ⟨reversed, .quoted (.unit next :: pieces)⟩
    else
      ⟨reversed, .hex pieces next (digitsLeft - 1)⟩

/-- Read one character. -/
def step (lexer : JsonLexer) (character : Char) : Option JsonLexer :=
  match lexer.lexing with
  | .between => stepBetween lexer.reversed character
  | .bare reversed =>
      if isBare character then
        some ⟨lexer.reversed, .bare (character :: reversed)⟩
      else
        (bareValue? reversed.reverse).bind fun value =>
          stepBetween (.scalar value :: lexer.reversed) character
  | .quoted pieces => stepQuoted lexer.reversed pieces character
  | .escape pieces => stepEscape lexer.reversed pieces character
  | .hex pieces value digitsLeft =>
      stepHex lexer.reversed pieces value digitsLeft character

/-- The tokens in order, when the text ends between tokens or with a bare word. -/
def finished? (lexer : JsonLexer) : Option (List JsonToken) :=
  match lexer.lexing with
  | .between => some lexer.reversed.reverse
  | .bare reversed =>
      (bareValue? reversed.reverse).map fun value =>
        (.scalar value :: lexer.reversed).reverse
  | _ => none

end JsonLexer

/-- The tokens of a text. -/
def JsonToken.ofCharacters? (characters : List Char) : Option (List JsonToken) :=
  (characters.foldlM JsonLexer.step {}).bind JsonLexer.finished?

end LayerPlayback
