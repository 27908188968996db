namespace LayerPlayback.Line

/-!
# Lines of a text

A line ends at a line feed; a carriage return right before that line feed
belongs to the line end.  Characters after the last line feed form a line of
their own, and there a carriage return is kept.
-/

/-- A line without the carriage return that stood before its line feed. -/
def withoutReturn (line : List Char) : List Char :=
  if line.getLast? = some '\r' then line.dropLast else line

/-- The lines of a list of characters. -/
def ofCharacters (characters : List Char) : List (List Char) :=
  let pieces := characters.splitOn '\n'
  pieces.dropLast.map withoutReturn
    ++ pieces.getLast?.toList.filter fun rest => !rest.isEmpty

/-- The lines of a text. -/
def ofText (text : String) : List String :=
  (ofCharacters text.toList).map String.ofList

end LayerPlayback.Line
