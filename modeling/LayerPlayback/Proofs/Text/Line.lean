import LayerPlayback.Text.Line

namespace LayerPlayback.Line

/-!
# Lines of texts that are put together

A text whose last line is ended by a line feed can be continued with another text
without a change to either's lines.  No text has more lines than characters.
-/

/-- A text without a last line that is still open: it is empty or ends with a line feed. -/
def IsClosed (text : String) : Prop :=
  ∀ last ∈ text.toList.getLast?, last = '\n'

instance (text : String) : Decidable (IsClosed text) :=
  Option.decidableForallMem text.toList.getLast?

/-- The lines before a line feed are followed by those after it. -/
theorem ofCharacters_append_feed (earlier later : List Char) :
    ofCharacters (earlier ++ '\n' :: later) =
      (earlier.splitOn '\n').map withoutReturn ++ ofCharacters later := by
  have someLater := List.splitOn_ne_nil '\n' later
  unfold ofCharacters
  dsimp only
  rw [List.splitOn_append_cons_self, List.dropLast_append_of_ne_nil someLater,
    List.getLast?_append, List.getLast?_eq_some_getLast someLater, Option.some_or,
    List.map_append, List.append_assoc]

theorem ofCharacters_nil : ofCharacters [] = [] :=
  rfl

/-- Characters without a line feed, ended by one, are a line. -/
theorem ofCharacters_feed {line : List Char} (oneLine : '\n' ∉ line) :
    ofCharacters (line ++ ['\n']) = [withoutReturn line] := by
  rw [ofCharacters_append_feed, List.splitOn_eq_singleton oneLine]
  rfl

/-- Behind a closed text, the lines of another one follow. -/
theorem ofText_append {earlier : String} (closed : IsClosed earlier) (later : String) :
    ofText (earlier ++ later) = ofText earlier ++ ofText later := by
  unfold ofText
  rw [← List.map_append, String.toList_append]
  congr 1
  cases ending : earlier.toList.getLast? with
  | none =>
      rw [List.getLast?_eq_none_iff.mp ending]
      rfl
  | some last =>
      obtain rfl : last = '\n' := closed last ending
      obtain ⟨characters, shape⟩ := List.getLast?_eq_some_iff.mp ending
      rw [shape, List.append_assoc, List.singleton_append, ofCharacters_append_feed,
        ofCharacters_append_feed, ofCharacters_nil, List.append_nil]

theorem length_ofCharacters_le (characters : List Char) :
    (ofCharacters characters).length ≤ characters.length := by
  induction size : characters.length using Nat.strongRecOn generalizing characters with
  | ind _ inductionHypothesis =>
      subst size
      by_cases hasFeed : '\n' ∈ characters
      · -- The first line takes at least its line feed.
        obtain ⟨line, rest, rfl, oneLine⟩ := List.eq_append_cons_of_mem hasFeed
        have shorter : rest.length < (line ++ '\n' :: rest).length := by
          simp only [List.length_append, List.length_cons]
          omega
        have restLines := inductionHypothesis rest.length shorter rest rfl
        rw [ofCharacters_append_feed, List.splitOn_eq_singleton oneLine, List.length_append]
        exact Nat.le_trans (Nat.add_le_add_left restLines 1) (by omega)
      · unfold ofCharacters
        rw [List.splitOn_eq_singleton hasFeed]
        cases characters <;> simp

/-- A text has no more lines than characters. -/
theorem length_ofText_le (text : String) : (ofText text).length ≤ text.length := by
  rw [ofText, List.length_map, ← String.length_toList]
  exact length_ofCharacters_le text.toList

end LayerPlayback.Line
