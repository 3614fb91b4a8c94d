import MarketdataProvider.Foundation.Grid

namespace Foundation

variable {Time Period : Type} [LinearOrder Time] [LinearOrder Period]
  {period : Time → Period} {next : Time → Time} {time other : Time}

/-- The times before the end of a period are those of that period and of the earlier ones. -/
def Tiles (period : Time → Period) (next : Time → Time) : Prop :=
  ∀ time other, other < next time ↔ period other ≤ period time

namespace Tiles

theorem lt_next (tiles : Tiles period next) (time : Time) : time < next time :=
  (tiles time time).mpr le_rfl

theorem monotone (tiles : Tiles period next) : Monotone period := by
  intro early late before
  apply (tiles late early).mp
  exact before.trans_lt (tiles.lt_next late)

/-- The period lasts until its end. -/
theorem period_eq (tiles : Tiles period next) (after : time ≤ other) (before : other < next time) :
    period other = period time :=
  ((tiles time other).mp before).antisymm (tiles.monotone after)

/-- Within a period the end is the same. -/
theorem next_eq (tiles : Tiles period next) (same : period other = period time) : next other = next time := by
  apply eq_of_forall_lt_iff
  intro last
  rw [tiles, tiles, same]

theorem next_monotone (tiles : Tiles period next) : Monotone next := by
  intro early late before
  apply le_of_forall_lt
  intro last inside
  apply (tiles late last).mpr
  exact ((tiles early last).mp inside).trans (tiles.monotone before)

/-- Periods of places are periods of the finer points between the places. -/
theorem scale {period : Int → Period} {next : Int → Int} (tiles : Tiles period next) {size : Int}
    (positive : 0 < size) : Tiles (fun time => period (time / size)) fun time => next (time / size) * size := by
  intro time other
  rw [← Int.ediv_lt_iff_lt_mul positive]
  exact tiles (time / size) (other / size)

/-- A counter that takes one step at a time ends a period where it steps. -/
theorem of_unitSteps {count next : Int → Int} (steps : Grid.UnitSteps count)
    (last : ∀ place, count (next place - 1) = count place)
    (fresh : ∀ place, count (next place) = count place + 1) : Tiles count next := by
  intro place other
  constructor
  · intro before
    rw [← last place]
    apply steps.monotone
    omega
  · intro counted
    by_contra after
    have late := steps.monotone (show next place ≤ other by omega)
    have new := fresh place
    omega

end Tiles

end Foundation
