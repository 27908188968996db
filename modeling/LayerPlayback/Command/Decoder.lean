import LayerPlayback.Command
import LayerPlayback.Diagnostic
import LayerPlayback.Number.Unsigned
import LayerPlayback.Text.Blank
import LayerPlayback.Text.Line
import LayerPlayback.Text.UpperCase

namespace LayerPlayback

/-!
# Decoding program lines

A line is put in upper case, cut at its comment and its checksum, and split into
words at blanks.  A leading line number is skipped, the next word is the
operation code, and every further word is a letter with a number.  A letter by
itself has the value one.  A word whose number is malformed takes back what an
earlier word gave to its letter.
-/

/-- The operation that the characters behind a family letter select. -/
def Operation.ofDigits (digits : List Char) : Operation :=
  if NumberLiteral.isDigits digits then
    match NumberLiteral.uint32? digits with
    | some number => .ofNumber number.toNat
    | none => .unknown true
  else
    .unknown true

/-- The operation that a code selects for a family letter. -/
def Operation.ofCharacters (family : Char) : List Char → Operation
  | [] => .unknown false
  | first :: digits => if first ≠ family then .unknown false else .ofDigits digits

/-- The operation that a code selects for a family letter. -/
def Operation.ofCode (family : Char) (code : String) : Operation :=
  .ofCharacters family code.toList

/-- What one line gives: a command unless it is blank, and what was wrong with it. -/
structure DecodedLine where
  command? : Option Command := none
  diagnostics : List Diagnostic := []
  deriving Repr

namespace Decoder

/-- A line without its first comment, which runs from a semicolon to the line's end. -/
def withoutComment (characters : List Char) : List Char :=
  characters.takeWhile (· ≠ ';')
    ++ (characters.dropWhile (· ≠ ';')).dropWhile (· ≠ '\n')

/-- The part of a line that is interpreted; an asterisk starts its checksum. -/
def body (line : List Char) : List Char :=
  (withoutComment (UpperCase.ofCharacters line)).takeWhile (· ≠ '*')

/-- Whether a word is a line number of the program rather than a code. -/
def isLineNumber : List Char → Bool
  | 'N' :: digits => NumberLiteral.isDigits digits
  | _ => false

/-- The words without a line number in front. -/
def withoutLineNumber : List (List Char) → List (List Char)
  | [] => []
  | first :: rest => if isLineNumber first then rest else first :: rest

/-- The code and the further words of a line. -/
def codeAndArguments (line : List Char) : List (List Char) :=
  withoutLineNumber (Blank.words (body line))

/-- The value of a letter that is written without digits. -/
def bareValue : Float := 1.0

/-- The value that the characters after a letter stand for. -/
def value? : List Char → Option Float
  | [] => some bareValue
  | characters => NumberLiteral.finite? characters

/-- Take one argument into account: a malformed one leaves its letter without value. -/
def addArgument (words : Words) : List Char → Words
  | [] => words
  | letter :: characters =>
      match value? characters with
      | some value => words.insert letter value
      | none => words.erase letter

/-- The words that the arguments of a command add up to. -/
def argumentWords (arguments : List (List Char)) : Words :=
  arguments.foldl addArgument .empty

/-- What is wrong with an argument. -/
def argumentDiagnostic? (lineNumber : Nat) : List Char → Option Diagnostic
  | [] => none
  | letter :: characters =>
      match value? characters with
      | some _ => none
      | none => some (.malformedArgument lineNumber letter (String.ofList characters))

/-- Decode the code and the arguments of a line. -/
def decodeWords (family : Char) (lineNumber : Nat) : List (List Char) → DecodedLine
  | [] => {}
  | code :: arguments =>
      { command? := some
          { lineNumber := lineNumber
            code := String.ofList code
            operation := .ofCharacters family code
            words := argumentWords arguments }
        diagnostics := arguments.filterMap (argumentDiagnostic? lineNumber) }

end Decoder

/-- A decoder for the commands of one family. -/
structure Decoder where
  /-- The family letter; an ASCII letter is in upper case. -/
  family : Char
  deriving Repr, DecidableEq

namespace Decoder

/-- The family letter of a decoder that is not told otherwise. -/
def defaultFamily : Char := 'G'

/-- A decoder for the family of a letter in either case. -/
def ofLetter (letter : Char) : Decoder :=
  ⟨letter.toUpper⟩

/-- Decode one line. -/
def decode (decoder : Decoder) (line : String) (lineNumber : Nat) : DecodedLine :=
  decodeWords decoder.family lineNumber (codeAndArguments line.toList)

/-- The lines of a text with their numbers, counted from one. -/
def numberedLines (text : String) : List (String × Nat) :=
  (Line.ofText text).zipIdx 1

/-- Decode every line of a text and keep those that hold a command. -/
def decodeAll (decoder : Decoder) (text : String) : List DecodedLine :=
  (numberedLines text).map (fun (line, number) => decoder.decode line number)
    |>.filter fun decoded => decoded.command?.isSome

end Decoder

end LayerPlayback
