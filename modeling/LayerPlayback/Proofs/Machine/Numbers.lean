import LayerPlayback.Proofs.Command.FiniteWords
import LayerPlayback.Proofs.Machine.Coordinates
import LayerPlayback.Proofs.Position

namespace LayerPlayback

/-!
# No coordinate becomes NaN

Coordinates can overflow to infinity, but every sum and difference that the
machine forms has a finite word as one of its terms.  So positions and offsets
that are free of NaN stay free of it.
-/

/-- Finite words lead from numbers to numbers. -/
theorem PartialPosition.IsFinite.leads {named : PartialPosition} (finite : named.IsFinite) :
    named.Leads (fun x => x.isNaN = false) (fun x => x.isNaN = false) where
  unnamed _ number := number
  wordPlus axis word given _ number :=
    have wordFinite := finite axis word given
    Binary64.isNaN_add (Binary64.isNaN_of_isFinite wordFinite) number (.inl wordFinite)
  plusWord axis word given _ number :=
    have wordFinite := finite axis word given
    Binary64.isNaN_add number (Binary64.isNaN_of_isFinite wordFinite) (.inr wordFinite)
  minusWord axis word given _ number :=
    have wordFinite := finite axis word given
    Binary64.isNaN_sub number (Binary64.isNaN_of_isFinite wordFinite) (.inr wordFinite)

namespace Machine

/-- No coordinate of the position or of the offset is NaN. -/
structure IsNumber (machine : Machine) : Prop where
  position : machine.position.IsNumber
  offset : machine.offset.IsNumber

/-- That a machine has no NaN is a property of its coordinates. -/
theorem isNumber_iff_coordinates {machine : Machine} :
    machine.IsNumber ↔ machine.Coordinates fun x => x.isNaN = false :=
  ⟨fun number => ⟨number.position, number.offset⟩,
    fun coordinates => ⟨coordinates.position, coordinates.offset⟩⟩

/-- A machine that starts at numbers has only numbers, as its offsets are zero. -/
theorem isNumber_startingAt
    {position : Position}
    (number : position.IsNumber) :
    (startingAt position).IsNumber where
  position := number
  offset := Position.isNumber_origin

theorem isNumber_fresh : IsNumber {} :=
  isNumber_startingAt Position.isNumber_origin

end Machine

end LayerPlayback
