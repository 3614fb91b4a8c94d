import MarketdataProvider.Contracts.Periods
import MarketdataProvider.Exchanges.KlinePages

namespace MarketdataProvider

open Foundation

section Starts

/-- The first millisecond of the next UTC day, of the next Monday or of the next month. -/
structure StartsNextUnit (canonical : String) (time next : Int) : Prop where
  later : time < next
  midnight : next % dayMs = 0
  day : canonical = "1D" → utcDay next = nextDate (utcDay time) ∧
    ∀ other, time ≤ other → other < next → utcDay other = utcDay time
  week : canonical = "1W" → weekday (next / dayMs) = 0 ∧
    ∀ other, time < other → other < next → ¬ (other % dayMs = 0 ∧ weekday (other / dayMs) = 0)
  month : canonical = "1M" →
    utcDay next = ((nextMonth (utcMonth time)).1, (nextMonth (utcMonth time)).2, 1) ∧
      ∀ other, time ≤ other → other < next → utcMonth other = utcMonth time

variable {canonical : String}

/-- The calendar units tile the milliseconds. -/
theorem calendar_tiles (canonical : String) : Tiles (fun time => calendarUnit canonical (time / dayMs))
    fun time => nextUnitDay canonical (time / dayMs) * dayMs :=
  (calendarUnit_tiles canonical).scale (by decide)

theorem startsNextUnit (canonical : String) (time : Int) :
    StartsNextUnit canonical time (nextUnitDay canonical (time / dayMs) * dayMs) := by
  have tiles := calendar_tiles canonical
  have place : nextUnitDay canonical (time / dayMs) * dayMs / dayMs = nextUnitDay canonical (time / dayMs) :=
    Int.mul_ediv_cancel _ (by decide)
  refine ⟨tiles.lt_next time, Int.mul_emod_left _ _, ?_, ?_, ?_⟩
  · rintro rfl
    constructor
    · rw [utcDay, place]
      exact civilOfDays_succ (time / dayMs)
    · intro other after before
      exact congrArg civilOfDays (tiles.period_eq after before)
  · rintro rfl
    rw [place]
    constructor
    · change weekday (time / dayMs - weekday (time / dayMs) + 7) = 0
      simp only [weekday]
      omega
    · rintro other after before ⟨midnight, monday⟩
      change other < (time / dayMs - weekday (time / dayMs) + 7) * dayMs at before
      simp only [weekday, dayMs] at *
      omega
  · rintro rfl
    constructor
    · rw [utcDay, place]
      exact civilOfDays_nextMonth (time / dayMs)
    · intro other after before
      have same : monthOfTime other = monthOfTime time := tiles.period_eq after before
      exact utcMonth_eq_iff.mpr ⟨utcMonth_month time, same⟩

end Starts

section Cursor

variable [PyText] {tf canonical : String} {time close : Int}

/-- `next_cursor` -/
def nextCursor (lastOpenTime : Int) (tf : String) (cursor : Int) : Except PyError Int := do
  let next ← nextOpenTimeMs lastOpenTime tf
  if next ≤ cursor then
    .error (.mdPaginationStalled ("Pagination cursor stalled at " ++ toString cursor) [])
  else return next

theorem datetimeRange_of_close (closes : closeTimeMs time tf = .ok close) : datetimeRange time = true := by
  obtain ⟨canonical, -, closes⟩ := bind_eq_ok.mp closes
  dsimp only at closes
  split_ifs at closes with outside
  all_goals simpa using outside

theorem close_of_fixed (accepted : canonicalTimeframe tf = .ok canonical)
    (fixed : ¬ CalendarTimeframe canonical) (closes : closeTimeMs time tf = .ok close) :
    ∃ duration, timeframeMs tf = .ok duration ∧ close = time + duration - 1 := by
  have inside := datetimeRange_of_close closes
  simp only [CalendarTimeframe, not_or] at fixed
  rw [closeTimeMs, accepted, ok_bind] at closes
  dsimp only at closes
  rw [if_neg (by simp [inside]), if_neg fixed.1, if_neg fixed.2.1, if_neg fixed.2.2,
    timeframeMs_canonical accepted] at closes
  obtain ⟨duration, known, made⟩ := bind_eq_ok.mp closes
  exact ⟨duration, known, (Except.ok.inj made).symm⟩

/-- A period of positive length ends after each of its times. -/
theorem closeTimeMs_after (accepted : canonicalTimeframe tf = .ok canonical)
    (positive : canonical = "1M" ∨ ∃ duration, timeframeMs tf = .ok duration ∧ 0 < duration)
    (inside : datetimeRange time = true) : ∃ close, closeTimeMs time tf = .ok close ∧ time ≤ close := by
  by_cases calendar : CalendarTimeframe canonical
  · refine ⟨_, closeTimeMs_calendar accepted calendar inside, ?_⟩
    have after := (calendar_tiles canonical).lt_next time
    omega
  · obtain ⟨duration, known, long⟩ := positive.resolve_left fun month => calendar (.inr (.inr month))
    refine ⟨_, closeTimeMs_fixed accepted calendar known inside, ?_⟩
    omega

/-- A forward page moves the cursor to the open of the next period. -/
theorem nextCursor_forward {cursor : Int} (closes : closeTimeMs time tf = .ok close) (after : time ≤ close)
    (forward : cursor ≤ time) : nextCursor time tf cursor = .ok (close + 1) := by
  rw [nextCursor, nextOpenTimeMs, closes]
  change (if close + 1 ≤ cursor then _ else _) = _
  rw [if_neg (by omega)]
  rfl

theorem closeTimeMs_mono {early late earlyClose lateClose : Int}
    (accepted : canonicalTimeframe tf = .ok canonical) (ordered : early ≤ late)
    (first : closeTimeMs early tf = .ok earlyClose) (second : closeTimeMs late tf = .ok lateClose) :
    earlyClose ≤ lateClose := by
  have earlyInside := datetimeRange_of_close first
  have lateInside := datetimeRange_of_close second
  by_cases calendar : CalendarTimeframe canonical
  · rw [closeTimeMs_calendar accepted calendar earlyInside] at first
    rw [closeTimeMs_calendar accepted calendar lateInside] at second
    obtain rfl := Except.ok.inj first
    obtain rfl := Except.ok.inj second
    have ends := (calendar_tiles canonical).next_monotone ordered
    omega
  · obtain ⟨duration, known, rfl⟩ := close_of_fixed accepted calendar first
    obtain ⟨again, same, rfl⟩ := close_of_fixed accepted calendar second
    obtain rfl := Except.ok.inj (known.symm.trans same)
    omega

/-- Periods tile the time axis, and calendar periods are those of the calendar. -/
theorem periods_tile (accepted : canonicalTimeframe tf = .ok canonical)
    (positive : canonical = "1M" ∨ ∃ duration, timeframeMs tf = .ok duration ∧ 0 < duration) :
    (∀ time, datetimeRange time = true → ∃ close, closeTimeMs time tf = .ok close ∧ time ≤ close ∧
      nextOpenTimeMs time tf = .ok (close + 1) ∧ time < close + 1 ∧
        ∀ cursor ≤ time, nextCursor time tf cursor = .ok (close + 1)) ∧
    (CalendarTimeframe canonical → ∀ time close, closeTimeMs time tf = .ok close →
      StartsNextUnit canonical time (close + 1) ∧
        ∀ other, time ≤ other → other ≤ close → datetimeRange other = true →
          closeTimeMs other tf = .ok close) ∧
    ∀ early late earlyClose lateClose, early ≤ late → closeTimeMs early tf = .ok earlyClose →
      closeTimeMs late tf = .ok lateClose → earlyClose ≤ lateClose := by
  refine ⟨?_, ?_, ?_⟩
  · intro time inside
    obtain ⟨close, closes, after⟩ := closeTimeMs_after accepted positive inside
    refine ⟨close, closes, after, ?_, by omega, ?_⟩
    · rw [nextOpenTimeMs, closes]
      rfl
    · intro cursor forward
      exact nextCursor_forward closes after forward
  · intro calendar time close closes
    have inside := datetimeRange_of_close closes
    rw [closeTimeMs_calendar accepted calendar inside] at closes
    have ends : nextUnitDay canonical (time / dayMs) * dayMs = close + 1 := by
      have value := Except.ok.inj closes
      omega
    constructor
    · rw [← ends]
      exact startsNextUnit canonical time
    · intro other after before otherInside
      have same : calendarUnit canonical (other / dayMs) = calendarUnit canonical (time / dayMs) :=
        (calendar_tiles canonical).period_eq after (by omega)
      have next : nextUnitDay canonical (other / dayMs) * dayMs = nextUnitDay canonical (time / dayMs) * dayMs :=
        (calendar_tiles canonical).next_eq same
      rw [closeTimeMs_calendar accepted calendar otherInside, next]
      exact closes
  · intro early late earlyClose lateClose ordered first second
    exact closeTimeMs_mono accepted ordered first second

end Cursor

end MarketdataProvider

namespace MarketdataProvider

open Reference Foundation
open scoped Reference

/-- The last week of 9999 closes on the second of January of the year 10000, which `datetime` has not. -/
theorem last_week_leaves_range :
    datetimeRange 253402214400000 = true ∧
    closeTimeMs 253402214400000 "1W" = .ok 253402473599999 ∧
    (253402214400000 : Int) ≤ 253402300800000 ∧ (253402300800000 : Int) ≤ 253402473599999 ∧
    closeTimeMs 253402300800000 "1W" = .error (.valueError "year is out of range") := by
  refine ⟨by decide, eq_ok_of_toOption (by decide +kernel), by decide, by decide, ?_⟩
  have accepted : canonicalTimeframe "1W" = .ok "1W" := CanonicalForm.week.accepted
  rw [closeTimeMs, accepted, ok_bind]
  exact if_pos (by decide)

/-- The leap day of 2024 lies in its month, and March comes next. -/
theorem periods_tile_february : ∃ close, closeTimeMs 1709164800000 "M" = .ok close ∧
    StartsNextUnit "1M" 1709164800000 (close + 1) ∧
    closeTimeMs 1709251199999 "M" = .ok close ∧ nextCursor 1709164800000 "M" 0 = .ok (close + 1) := by
  have accepted : canonicalTimeframe "M" = .ok "1M" := eq_ok_of_toOption (by decide +kernel)
  obtain ⟨page, unit, -⟩ := periods_tile accepted (.inl rfl)
  obtain ⟨close, closes, -, -, -, cursor⟩ := page 1709164800000 (by decide)
  obtain ⟨starts, same⟩ := unit (.inr (.inr rfl)) _ _ closes
  refine ⟨close, closes, starts, ?_, cursor 0 (by decide)⟩
  have month : closeTimeMs 1709164800000 "M" = .ok 1709251199999 := eq_ok_of_toOption (by decide +kernel)
  obtain rfl := Except.ok.inj (month.symm.trans closes)
  exact same 1709251199999 (by decide) (by decide) (by decide)

/-- The day after the leap day is the first of March. -/
example : nextDate (2024, 2, 29) = (2024, 3, 1) ∧ nextDate (2023, 12, 31) = (2024, 1, 1) := by decide

end MarketdataProvider
