import LayerPlayback.Text.Scanner

namespace LayerPlayback.TomlQuoted

/-!
# TOML strings

Strings in double quotes have escapes, strings in single quotes have none.  Three
quotes in a row open a string over several lines, which drops a line end right
after them and may hold up to two quotes in a row, also before the closing ones.
-/

open Scanner

/-- A blank within a line. -/
def isSpace (character : Char) : Bool :=
  character = ' ' || character = '\t'

/-- A character that is no control character; tabs are allowed. -/
def isPlain (character : Char) : Bool :=
  character = '\t' || (0x20 ≤ character.toNat && character.toNat ≠ 0x7F)

/-- A character that stands for itself in double quotes. -/
def isBasic (character : Char) : Bool :=
  isPlain character && character ≠ '\x22' && character ≠ '\\'

/-- A character that stands for itself in single quotes. -/
def isLiteral (character : Char) : Bool :=
  isPlain character && character ≠ '\x27'

/-- A line end. -/
def newline : Scanner Unit :=
  exactly '\n' <|> sequence ['\r', '\n']

/-- The value of a hexadecimal digit. -/
def hexDigit : Scanner Nat := do
  let digit ← character Char.isAlphanum
  if digit.isDigit then
    return digit.toNat - '0'.toNat
  else if 'a' ≤ digit.toLower ∧ digit.toLower ≤ 'f' then
    return digit.toLower.toNat - 'a'.toNat + 10
  else
    failure

/-- The character with a code point of some hexadecimal digits. -/
def numbered (count : Nat) : Scanner Char := do
  let digits ← (List.range count).mapM fun _ => hexDigit
  let code := digits.foldl (fun value digit => 16 * value + digit) 0
  if code.isValidChar then return Char.ofNat code else failure

/-- The character that an escape stands for. -/
def escaped : Scanner Char := do
  exactly '\\'
  match ← character fun _ => true with
  | 'b' => return '\x08'
  | 't' => return '\t'
  | 'n' => return '\n'
  | 'f' => return '\x0C'
  | 'r' => return '\r'
  | '\x22' => return '\x22'
  | '\\' => return '\\'
  | 'u' => numbered 4
  | 'U' => numbered 8
  | _ => failure

/-- A string in double quotes on one line. -/
def basic : Scanner (List Char) := do
  exactly '\x22'
  let characters ← many (character isBasic <|> escaped)
  exactly '\x22'
  return characters

/-- A string in single quotes on one line. -/
def literal : Scanner (List Char) := do
  exactly '\x27'
  let characters ← run isLiteral
  exactly '\x27'
  return characters

/-- Up to two quotes that do not close a string of several lines. -/
def innerQuotes (quote : Char) : Scanner (List Char) := do
  let quotes ← run1 (· = quote)
  if quotes.length ≤ 2 then return quotes else failure

/-- The closing quotes; up to two more in front of them belong to the string. -/
def closingQuotes (quote : Char) : Scanner (List Char) := do
  let quotes ← run (· = quote)
  if 3 ≤ quotes.length ∧ quotes.length ≤ 5 then
    return List.replicate (quotes.length - 3) quote
  else
    failure

/-- A line end inside a string. -/
def innerNewline : Scanner (List Char) := do
  newline
  return ['\n']

/-- A backslash at the end of a line, which joins it with the next text. -/
def joinedLines : Scanner (List Char) := do
  exactly '\\'
  let _ ← run isSpace
  newline
  let _ ← many (newline <|> do let _ ← run1 isSpace)
  return []

/-- A string over several lines, from what it may hold between quotes. -/
def overLines (quote : Char) (piece : Scanner (List Char)) : Scanner (List Char) := do
  sequence [quote, quote, quote]
  let _ ← optional? newline
  let pieces ← many (piece <|> innerQuotes quote <|> innerNewline)
  let last ← closingQuotes quote
  return pieces.flatten ++ last

/-- A string in double quotes over several lines. -/
def basicOverLines : Scanner (List Char) :=
  overLines '\x22'
    (run1 isBasic <|> joinedLines <|> do return [← escaped])

/-- A string in single quotes over several lines. -/
def literalOverLines : Scanner (List Char) :=
  overLines '\x27' (run1 isLiteral)

/-- Any string. -/
def value : Scanner (List Char) :=
  basicOverLines <|> basic <|> literalOverLines <|> literal

end LayerPlayback.TomlQuoted
