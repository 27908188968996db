import LayerPlayback.Command
import LayerPlayback.Diagnostic
import LayerPlayback.Json.Decode

namespace LayerPlayback

/-!
# JSON forms of commands and diagnostics

Operations and diagnostics are choices named by their cases; the words of a
command are an object from letters to values.
-/

/-- An operation in JSON. -/
def Operation.toJson : Operation → Json
  | .linearMove rapid => .object [("LinearMove", .object [("rapid", .bool rapid)])]
  | .home => .string "Home"
  | .absoluteMode => .string "AbsoluteMode"
  | .relativeMode => .string "RelativeMode"
  | .setPosition => .string "SetPosition"
  | .arc clockwise => .object [("Arc", .object [("clockwise", .bool clockwise)])]
  | .unknown inFamily => .object [("Unknown", .object [("in_family", .bool inFamily)])]

/-- Read the only field of a case, which is a truth value. -/
def Operation.flag? (name : String) (contents : Json) : Option Bool :=
  match contents.record? [name] with
  | some [field] => Json.required? Json.bool? field
  | _ => none

/-- Read an operation without details. -/
def Operation.ofName? : String → Option Operation
  | "Home" => some .home
  | "AbsoluteMode" => some .absoluteMode
  | "RelativeMode" => some .relativeMode
  | "SetPosition" => some .setPosition
  | _ => none

/-- Read an operation. -/
def Operation.ofJson? (json : Json) : Option Operation :=
  match json.case? with
  | some ("LinearMove", some contents) => (flag? "rapid" contents).map .linearMove
  | some ("Arc", some contents) => (flag? "clockwise" contents).map .arc
  | some ("Unknown", some contents) => (flag? "in_family" contents).map .unknown
  | _ => json.unitCase?.bind ofName?

/-- Words in JSON, by letter. -/
def Words.toJson (words : Words) : Json :=
  .object (words.entries.map fun (letter, value) => (letter.toString, .ofFloat value))

/-- Read one word. -/
def Words.entryOfJson? (field : String × Json) : Option (Char × Float) := do
  let letter ← Json.onlyCharacter? field.1
  let value ← field.2.float?
  some (letter, value)

/-- Read words; the last value of a letter counts. -/
def Words.ofJson? (json : Json) : Option Words := do
  let fields ← json.entries?
  let entries ← fields.mapM entryOfJson?
  some (.ofList entries)

/-- A command in JSON. -/
def Command.toJson (command : Command) : Json :=
  .object
    [ ("line_number", .ofNat command.lineNumber),
      ("code", .string command.code),
      ("operation", command.operation.toJson),
      ("words", command.words.toJson) ]

/-- Read a command. -/
def Command.ofJson? (json : Json) : Option Command :=
  match json.record? ["line_number", "code", "operation", "words"] with
  | some [lineNumber, code, operation, words] => do
      some
        { lineNumber := ← Json.required? Json.natural? lineNumber
          code := ← Json.required? Json.string? code
          operation := ← Json.required? Operation.ofJson? operation
          words := ← Json.required? Words.ofJson? words }
  | _ => none

/-- A severity in JSON. -/
def Severity.toJson : Severity → Json
  | .info => .string "Info"
  | .warning => .string "Warning"

/-- Read a severity. -/
def Severity.ofJson? (json : Json) : Option Severity :=
  match json.unitCase? with
  | some "Info" => some .info
  | some "Warning" => some .warning
  | _ => none

/-- A diagnostic in JSON. -/
def Diagnostic.toJson : Diagnostic → Json
  | .malformedArgument lineNumber word value =>
      .object
        [ ("MalformedArgument", .object
            [ ("line_number", .ofNat lineNumber),
              ("word", .ofChar word),
              ("value", .string value) ]) ]
  | .unsupportedOperation lineNumber code reason =>
      .object
        [ ("UnsupportedOperation", .object
            [ ("line_number", .ofNat lineNumber),
              ("code", .string code),
              ("reason", .string reason) ]) ]
  | .unknownOperation lineNumber code =>
      .object
        [ ("UnknownOperation", .object
            [ ("line_number", .ofNat lineNumber),
              ("code", .string code) ]) ]
  | .emptyInput => .string "EmptyInput"

/-- Read what a malformed argument holds. -/
def Diagnostic.malformedOfJson? (contents : Json) : Option Diagnostic :=
  match contents.record? ["line_number", "word", "value"] with
  | some [lineNumber, word, value] => do
      some (.malformedArgument
        (← Json.required? Json.natural? lineNumber)
        (← Json.required? Json.char? word)
        (← Json.required? Json.string? value))
  | _ => none

/-- Read what an unsupported operation holds. -/
def Diagnostic.unsupportedOfJson? (contents : Json) : Option Diagnostic :=
  match contents.record? ["line_number", "code", "reason"] with
  | some [lineNumber, code, reason] => do
      some (.unsupportedOperation
        (← Json.required? Json.natural? lineNumber)
        (← Json.required? Json.string? code)
        (← Json.required? Json.string? reason))
  | _ => none

/-- Read what an unknown operation holds. -/
def Diagnostic.unknownOfJson? (contents : Json) : Option Diagnostic :=
  match contents.record? ["line_number", "code"] with
  | some [lineNumber, code] => do
      some (.unknownOperation
        (← Json.required? Json.natural? lineNumber)
        (← Json.required? Json.string? code))
  | _ => none

/-- Read a diagnostic. -/
def Diagnostic.ofJson? (json : Json) : Option Diagnostic :=
  match json.case? with
  | some ("MalformedArgument", some contents) => malformedOfJson? contents
  | some ("UnsupportedOperation", some contents) => unsupportedOfJson? contents
  | some ("UnknownOperation", some contents) => unknownOfJson? contents
  | _ => if json.unitCase? = some "EmptyInput" then some .emptyInput else none

end LayerPlayback
