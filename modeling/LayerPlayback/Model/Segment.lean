import LayerPlayback.Position

namespace LayerPlayback

/-!
# Segments

A segment is one straight motion in space.  It deposits material or only travels.
-/

/-- Whether a motion lays material down. -/
inductive MoveKind where
  | travel
  | deposit
  deriving Repr, DecidableEq

namespace MoveKind

/-- The kind of a motion that deposits or does not. -/
def ofDeposits (deposits : Bool) : MoveKind :=
  if deposits then .deposit else .travel

/-- Whether motions of a kind lay material down. -/
def isDeposit : MoveKind → Bool
  | .deposit => true
  | .travel => false

/-- The word for a kind. -/
def label : MoveKind → String
  | .travel => "travel"
  | .deposit => "deposit"

end MoveKind

/-- A straight motion from one point to another. -/
structure Segment where
  start : Point
  finish : Point
  /-- Whether the material feed strictly increased during the motion. -/
  deposits : Bool
  deriving Repr, BEq

namespace Segment

/-- Whether a segment lays material down. -/
def kind (segment : Segment) : MoveKind :=
  .ofDeposits segment.deposits

/-- The distance between the ends of a segment. -/
def length (segment : Segment) : Float :=
  segment.start.distance segment.finish

end Segment

end LayerPlayback
