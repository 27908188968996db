import LayerPlayback.Playback.Window

namespace LayerPlayback

/-!
# View cursors

A cursor is a window and a progress between zero and the number of segments that
can be revealed.  When that number changes, the progress keeps its share of it.
-/

/-- A window with a progress. -/
structure ViewCursor where
  window : LayerWindow
  progress : Float := 0.0
  /-- How many segments can be revealed. -/
  progressMax : Nat := 0
  deriving Repr, BEq

namespace ViewCursor

/-- A cursor that is fully revealed once it learns how many segments there are. -/
def ofWindow (window : LayerWindow) : ViewCursor :=
  { window := window }

/-- Move the lower bound of the window. -/
def setLower (cursor : ViewCursor) (value : Float) : ViewCursor :=
  { cursor with window := cursor.window.setLower value }

/-- Move the upper bound of the window. -/
def setUpper (cursor : ViewCursor) (value : Float) : ViewCursor :=
  { cursor with window := cursor.window.setUpper value }

/-- A value brought into a range that starts at zero; NaN becomes zero. -/
def clamped (value greatest : Float) : Float :=
  if value.isNaN || value < 0.0 then
    0.0
  else if greatest < value then
    greatest
  else
    value

/-- Set the progress within its range. -/
def setProgress (cursor : ViewCursor) (value : Float) : ViewCursor :=
  { cursor with progress := clamped value (Float.ofNat cursor.progressMax) }

/-- The share of segments that is revealed; all of them in an empty range. -/
def fraction (cursor : ViewCursor) : Float :=
  if cursor.progressMax = 0 then
    1.0
  else
    cursor.progress / Float.ofNat cursor.progressMax

/-- Change how many segments can be revealed and keep the share that is. -/
def rescale (cursor : ViewCursor) (progressMax : Nat) : ViewCursor :=
  if progressMax = cursor.progressMax then
    cursor
  else
    { cursor with
      progress := cursor.fraction * Float.ofNat progressMax
      progressMax := progressMax }

/-- How many whole segments are revealed. -/
def revealed (cursor : ViewCursor) : Nat :=
  Binary64.wholeUnits cursor.progress

end ViewCursor

end LayerPlayback
