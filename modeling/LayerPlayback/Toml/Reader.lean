import LayerPlayback.Toml.Document
import LayerPlayback.Toml.Number
import LayerPlayback.Toml.Quoted

namespace LayerPlayback

/-!
# Reading TOML

A document is a sequence of lines: assignments, headers, and comments.  Values in
brackets and braces may be nested up to a limit, and a dotted key has a greatest
length.
-/

namespace TomlReader

open Scanner
open TomlQuoted (isPlain isSpace newline)

/-- How deep values may be nested, and how many parts a dotted key may have. -/
def greatestDepth : Nat := 79

/-- Blanks within a line. -/
def spaces : Scanner Unit := do
  let _ ← run isSpace

/-- A comment up to the end of its line. -/
def comment : Scanner Unit := do
  exactly '#'
  let _ ← run isPlain

/-- The end of the text. -/
def textEnd : Scanner Unit := do
  match ← peek? with
  | none => return ()
  | some _ => failure

/-- The rest of a line after a statement. -/
def lineEnd : Scanner Unit := do
  spaces
  let _ ← optional? comment
  newline <|> textEnd

/-- Blanks, line ends, and comments between the parts of an array. -/
def filler : Scanner Unit := do
  let _ ← many ((do let _ ← run1 isSpace) <|> newline <|> comment)

/-- A character of a key without quotes. -/
def isBareKey (character : Char) : Bool :=
  character.isAlphanum || character = '_' || character = '-'

/-- One part of a key. -/
def simpleKey : Scanner String := do
  let characters ← TomlQuoted.basic <|> TomlQuoted.literal <|> run1 isBareKey
  return String.ofList characters

/-- A key with blanks around each of its parts. -/
def keyParts : Scanner (List String) := do
  let parts ← separated (do spaces; let part ← simpleKey; spaces; return part) (exactly '.')
  if parts.length ≤ greatestDepth then return parts else failure

/-- A key: the path to its table, and its last part. -/
def key : Scanner (List String × String) := do
  let parts ← keyParts
  match parts.getLast? with
  | some last => return (parts.dropLast, last)
  | none => failure

/-- An array, from a scanner for its items. -/
def array (item : Scanner Toml) : Scanner Toml := do
  exactly '['
  let items ← separated (do filler; let value ← item; filler; return value) (exactly ',')
  if !items.isEmpty then
    let _ ← optional? (exactly ',')
  filler
  exactly ']'
  return .array items

/-- One assignment in braces. -/
def inlineAssignment (item : Scanner Toml) : Scanner (List String × String × Toml) := do
  let (path, last) ← key
  exactly '='
  spaces
  let value ← item
  spaces
  return (path, last, value)

/-- A table in braces, from a scanner for its values. -/
def inlineTable (item : Scanner Toml) : Scanner Toml := do
  exactly '\x7b'
  let assignments ← separated (inlineAssignment item) (exactly ',')
  spaces
  exactly '\x7d'
  let entries? :=
    assignments.foldlM
      (fun entries (path, last, value) =>
        TomlEntries.putDotted path last value .declared entries)
      []
  match entries? with
  | some entries => return .table (TomlEntries.toValues entries)
  | none => failure

/-- A truth value. -/
def bool : Scanner Toml :=
  (do sequence ['t', 'r', 'u', 'e']; return .bool true)
    <|> (do sequence ['f', 'a', 'l', 's', 'e']; return .bool false)

/-- A value without brackets and braces. -/
def scalar : Scanner Toml :=
  (do return .string (String.ofList (← TomlQuoted.value)))
    <|> bool
    <|> TomlNumber.value

/-- A value with at most a number of brackets and braces around its scalars. -/
def value : Nat → Scanner Toml
  | 0 => scalar
  | levels + 1 => array (value levels) <|> inlineTable (value levels) <|> scalar

/-- An assignment on a line. -/
def assignment : Scanner TomlStatement := do
  let (path, last) ← key
  exactly '='
  spaces
  let value ← value greatestDepth
  lineEnd
  return .assign path last value

/-- The header of one more table of an array. -/
def elementHeader : Scanner TomlStatement := do
  sequence ['[', '[']
  let (path, last) ← key
  sequence [']', ']']
  lineEnd
  return .elementHeader path last

/-- The header of a table. -/
def header : Scanner TomlStatement := do
  exactly '['
  let (path, last) ← key
  exactly ']'
  lineEnd
  return .header path last

/-- A line without a statement. -/
def emptyLine : Scanner (Option TomlStatement) := do
  let _ ← optional? comment
  newline
  return none

/-- A line with its leading blanks. -/
def line : Scanner (Option TomlStatement) := do
  spaces
  emptyLine <|> do
    return some (← elementHeader <|> header <|> assignment)

/-- The statements of a document. -/
def document : Scanner (List TomlStatement) := do
  let _ ← optional? (exactly '\uFEFF')
  let lines ← many line
  spaces
  let _ ← optional? comment
  return lines.filterMap id

end TomlReader

namespace Toml

/-- The table that a text holds. -/
def ofText? (text : String) : Option Toml := do
  let statements ← Scanner.all? TomlReader.document text.toList
  TomlDocument.value? statements

end Toml

end LayerPlayback
