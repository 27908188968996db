namespace LayerPlayback

/-!
# Scanners

A scanner takes something from the front of a list of characters and leaves the
rest, or refuses.  A choice tries its second scanner on the same characters when the
first one refuses.
-/

/-- A scanner for values of a type. -/
abbrev Scanner (α : Type) : Type :=
  StateT (List Char) Option α

namespace Scanner

/-- The next character, which stays. -/
def peek? : Scanner (Option Char) :=
  return (← get).head?

/-- A character of a class. -/
def character (accepts : Char → Bool) : Scanner Char := fun characters =>
  match characters with
  | first :: rest => if accepts first then some (first, rest) else none
  | [] => none

/-- One particular character. -/
def exactly (expected : Char) : Scanner Unit := do
  let _ ← character (· = expected)

/-- A particular sequence of characters. -/
def sequence (expected : List Char) : Scanner Unit :=
  expected.forM exactly

/-- All characters of a class up to the first other one. -/
def run (accepts : Char → Bool) : Scanner (List Char) := fun characters =>
  some (characters.takeWhile accepts, characters.dropWhile accepts)

/-- All characters of a class, at least one. -/
def run1 (accepts : Char → Bool) : Scanner (List Char) := do
  let found ← run accepts
  if found.isEmpty then failure else return found

/-- A number of characters of a class. -/
def exactCount (count : Nat) (accepts : Char → Bool) : Scanner (List Char) :=
  (List.range count).mapM fun _ => character accepts

/-- Something or nothing. -/
def optional? {α : Type} (scanner : Scanner α) : Scanner (Option α) :=
  (do return some (← scanner)) <|> return none

/-- Repeat a scanner until it refuses, at most a number of times. -/
def atMost {α : Type} (scanner : Scanner α) : Nat → Scanner (List α)
  | 0 => return []
  | more + 1 => do
      match ← optional? scanner with
      | some first => return first :: (← atMost scanner more)
      | none => return []

/--
Repeat a scanner until it refuses.  A scanner that takes characters cannot
succeed more often than there are characters.
-/
def many {α : Type} (scanner : Scanner α) : Scanner (List α) := fun characters =>
  atMost scanner characters.length characters

/-- Repeat a scanner with a separator between its results. -/
def separated {α β : Type} (scanner : Scanner α) (separator : Scanner β) :
    Scanner (List α) := do
  match ← optional? scanner with
  | none => return []
  | some first => return first :: (← many (do let _ ← separator; scanner))

/-- The result of a scanner that takes all the characters. -/
def all? {α : Type} (scanner : Scanner α) (characters : List Char) : Option α :=
  match scanner characters with
  | some (result, []) => some result
  | _ => none

end Scanner

end LayerPlayback
