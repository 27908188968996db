namespace LayerPlayback

/-!
# Diagnostics

What cannot be interpreted is reported and skipped; it never ends a reading.
Line numbers count from one.
-/

/-- How loudly a diagnostic is surfaced. -/
inductive Severity where
  | info
  | warning
  deriving Repr, DecidableEq

namespace Severity

/-- The word for a severity. -/
def label : Severity → String
  | .info => "info"
  | .warning => "warning"

/-- The louder of two severities. -/
def louder : Severity → Severity → Severity
  | .info, .info => .info
  | _, _ => .warning

end Severity

/-- A condition found while program text is interpreted. -/
inductive Diagnostic where
  /-- A word whose value is no finite number. -/
  | malformedArgument (lineNumber : Nat) (word : Char) (value : String)
  /-- A command of the family that is not interpreted, or not in full. -/
  | unsupportedOperation (lineNumber : Nat) (code reason : String)
  /-- A command of the family without a meaning. -/
  | unknownOperation (lineNumber : Nat) (code : String)
  /-- The text held no command. -/
  | emptyInput
  deriving Repr, DecidableEq

namespace Diagnostic

/-- Dropped input is a warning; what is merely not needed is information. -/
def severity : Diagnostic → Severity
  | .malformedArgument .. => .warning
  | .unsupportedOperation .. => .warning
  | .unknownOperation .. => .info
  | .emptyInput => .info

/-- The line that a diagnostic refers to. -/
def lineNumber? : Diagnostic → Option Nat
  | .malformedArgument lineNumber _ _ => some lineNumber
  | .unsupportedOperation lineNumber _ _ => some lineNumber
  | .unknownOperation lineNumber _ => some lineNumber
  | .emptyInput => none

/-- The wording of a diagnostic. -/
def message : Diagnostic → String
  | .malformedArgument lineNumber word value =>
      s!"Malformed argument '{word}{value}' at line {lineNumber}"
  | .unsupportedOperation lineNumber code reason =>
      s!"Unsupported operation {code} at line {lineNumber}: {reason}"
  | .unknownOperation lineNumber code =>
      s!"Unknown operation {code} at line {lineNumber}"
  | .emptyInput => "Input contains no commands"

end Diagnostic

end LayerPlayback
