import LayerPlayback.Command.Decoder

namespace LayerPlayback

/-!
# Decoded words are finite

The decoder gives a letter a value only when its characters are a finite number,
or when there are none and the value is one.  So all values of a decoded command
are finite, and so are the coordinates that it names.
-/

/-- Every value of the words is finite. -/
def Words.IsFinite (words : Words) : Prop :=
  ∀ letter value, words.get? letter = some value → value.isFinite = true

/-- Every coordinate that is named is finite. -/
def PartialPosition.IsFinite (named : PartialPosition) : Prop :=
  ∀ axis value, named.get? axis = some value → value.isFinite = true

namespace Decoder

/-- What follows a letter stands for a finite value or for none. -/
theorem isFinite_of_value?
    {characters : List Char}
    {value : Float}
    (read : value? characters = some value) :
    value.isFinite = true := by
  cases characters with
  | nil =>
      cases read
      decide
  | cons first rest =>
      have accepted := Option.filter_eq_some_iff.mp read
      exact accepted.2

theorem isFinite_addArgument
    {words : Words}
    (finite : words.IsFinite)
    (argument : List Char) :
    (addArgument words argument).IsFinite := by
  intro other value found
  unfold addArgument at found
  split at found
  · exact finite other value found
  · next letter characters =>
      split at found
      · next given read =>
          rw [Words.get?_insert] at found
          split at found
          · cases found
            exact isFinite_of_value? read
          · exact finite other value found
      · rw [Words.get?_erase] at found
        split at found
        · cases found
        · exact finite other value found

/-- The words of a command are finite, whatever its arguments are. -/
theorem isFinite_argumentWords (arguments : List (List Char)) :
    (argumentWords arguments).IsFinite := by
  refine List.foldlRecOn arguments addArgument (fun letter value found => ?_) ?_
  · simp at found
  · exact fun words finite argument _ => isFinite_addArgument finite argument

/-- A command that a line gives names finite coordinates only. -/
theorem isFinite_axes_of_decode
    {decoder : Decoder}
    {line : String}
    {lineNumber : Nat}
    {command : Command}
    (decoded : (decoder.decode line lineNumber).command? = some command) :
    command.axes.IsFinite := by
  intro axis value named
  unfold decode at decoded
  cases words : codeAndArguments line.toList with
  | nil =>
      simp [words, decodeWords] at decoded
  | cons code arguments =>
      rw [words] at decoded
      cases decoded
      rw [Command.axes, PartialPosition.get?_ofFunction] at named
      exact isFinite_argumentWords arguments axis.letter value named

end Decoder

end LayerPlayback
