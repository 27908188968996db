import LayerPlayback.Command.Operation
import LayerPlayback.Command.Words
import LayerPlayback.Position

namespace LayerPlayback

/-!
# Commands

A decoded program line: its code, the operation that the code selects, and the
values of its words.
-/

/-- A decoded command. -/
structure Command where
  /-- The number of its line in the program text, counted from one. -/
  lineNumber : Nat
  /-- The operation code in upper case. -/
  code : String
  operation : Operation
  words : Words
  deriving Repr

namespace Command

/-- The value of a word, if the command has it. -/
def word? (command : Command) (letter : Char) : Option Float :=
  command.words.get? letter

/-- The values of the tracked axes that the command names. -/
def axes (command : Command) : PartialPosition :=
  .ofFunction fun axis => command.word? axis.letter

/-- One word as it is written in a command. -/
def wordCharacters (entry : Char × Float) : List Char :=
  ' ' :: entry.1 :: NumberText.plainCharacters entry.2

/-- The command as a program line: its code, then its words by letter. -/
def display (command : Command) : String :=
  String.ofList (command.code.toList ++ command.words.entries.flatMap wordCharacters)

end Command

end LayerPlayback
