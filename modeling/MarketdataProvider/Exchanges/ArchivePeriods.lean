import Mathlib.Data.Prod.Lex
import MarketdataProvider.Contracts.Calendar
import MarketdataProvider.Foundation.Keyed
import MarketdataProvider.Foundation.Outcome

namespace MarketdataProvider

open Foundation

/-- The nearest whole number to a quotient, and the even one between two of them. -/
def roundHalfEven (numerator denominator : Nat) : Nat :=
  let whole := numerator / denominator
  let rest := numerator % denominator
  if 2 * rest < denominator ∨ 2 * rest = denominator ∧ whole % 2 = 0 then whole else whole + 1

/-- The binary64 number nearest to a quotient below `2 ^ 53`, as a numerator over a power of two. -/
def nearestDouble (numerator denominator : Nat) : Nat × Nat :=
  let exponent := 53 + denominator.log2 - numerator.log2
  let shift := if 2 ^ 53 ≤ numerator * 2 ^ exponent / denominator then exponent - 1 else exponent
  (roundHalfEven (numerator * 2 ^ shift) denominator, 2 ^ shift)

/-- The microseconds of `datetime.fromtimestamp(time / 1000, UTC)`: the fraction of the quotient is
scaled and rounded. -/
def microsecond (time : Int) : Int :=
  let seconds := nearestDouble time.natAbs 1000
  let scaled := nearestDouble (seconds.1 % seconds.2 * 1000000) seconds.2
  let rounded : Int := roundHalfEven scaled.1 scaled.2
  if time < 0 then -rounded % 1000000 else rounded

/-- The time of day in microseconds. -/
def timeOfDay (time : Int) : Int := time % dayMs / 1000 * 1000000 + microsecond time

/-- A `datetime` at the first day of a month. -/
structure MonthCursor where
  year : Int
  month : Int
  time : Int
  calendar : year ≤ 9999 ∧ 1 ≤ month ∧ month ≤ 12

namespace MonthCursor

def number (cursor : MonthCursor) : Int := monthNumber cursor.year cursor.month

/-- `cursor <= last` -/
def notAfter (cursor last : MonthCursor) : Bool :=
  cursor.year < last.year || cursor.year = last.year &&
    (cursor.month < last.month || cursor.month = last.month && cursor.time ≤ last.time)

/-- `cursor.replace(year=year, month=month)` with the next month -/
def next (cursor : MonthCursor) : Except PyError MonthCursor :=
  if december : cursor.month = 12 then
    if inside : cursor.year + 1 ≤ 9999 then
      .ok { cursor with year := cursor.year + 1, month := 1, calendar := ⟨inside, by decide⟩ }
    else .error (.valueError "year 10000 is out of range")
  else .ok {
    cursor with
    month := cursor.month + 1
    calendar := by
      have known := cursor.calendar
      exact ⟨known.1, by omega⟩ }

variable {cursor last following : MonthCursor}

theorem number_bound (cursor : MonthCursor) : cursor.number ≤ 119999 := by
  have known := cursor.calendar
  rw [number, monthNumber]
  omega

theorem notAfter_iff : cursor.notAfter last = true ↔
    cursor.number < last.number ∨ cursor.number = last.number ∧ cursor.time ≤ last.time := by
  have first := cursor.calendar
  have second := last.calendar
  simp only [notAfter, number, monthNumber, Bool.or_eq_true, Bool.and_eq_true, decide_eq_true_eq]
  omega

theorem next_ok (advanced : cursor.next = .ok following) :
    following.number = cursor.number + 1 ∧ following.time = cursor.time := by
  rw [next] at advanced
  split at advanced
  · rename_i december
    split at advanced
    · cases advanced
      refine ⟨?_, rfl⟩
      simp only [number, monthNumber, december]
      omega
    · cases advanced
  · cases advanced
    refine ⟨?_, rfl⟩
    simp only [number, monthNumber]
    omega

theorem next_error_iff : (∃ error, cursor.next = .error error) ↔ cursor.number = 119999 := by
  have known := cursor.calendar
  rw [next, number, monthNumber]
  split
  · rename_i december
    split
    · rename_i inside
      simp only [reduceCtorEq, exists_false, false_iff]
      omega
    · simp only [Except.error.injEq, exists_eq', true_iff]
      omega
  · simp only [reduceCtorEq, exists_false, false_iff]
    omega

end MonthCursor

theorem utcMonth_calendar {time : Int} (inside : datetimeRange time) :
    (utcMonth time).1 ≤ 9999 ∧ 1 ≤ (utcMonth time).2 ∧ (utcMonth time).2 ≤ 12 := by
  have known := utcMonth_month time
  have bound := monthOfTime_le inside
  rw [← monthNumber_utcMonth, monthNumber] at bound
  exact ⟨by omega, known⟩

/-- `datetime.fromtimestamp(time / 1000, UTC).replace(day=1)` -/
def monthCursor (time : Int) : Except PyError MonthCursor :=
  if inside : datetimeRange time then .ok {
    year := (utcMonth time).1
    month := (utcMonth time).2
    time := timeOfDay time
    calendar := utcMonth_calendar inside }
  else .error (.valueError "year is out of range")

/-- The loop over the months up to the one of the last cursor; a cursor keeps its time of day. -/
def monthsUpTo (last cursor : MonthCursor) (months : List (Int × Int)) :
    Except PyError (List (Int × Int)) :=
  if cursor.notAfter last then
    match _advanced : cursor.next with
    | .error error => .error error
    | .ok following => monthsUpTo last following (months ++ [(cursor.year, cursor.month)])
  else .ok months
termination_by (120000 - cursor.number).toNat
decreasing_by
  have step := (MonthCursor.next_ok _advanced).1
  have bound := following.number_bound
  omega

def monthsForInterval (interval : Int × Int) : Except PyError (List (Int × Int)) := do
  let cursor ← monthCursor interval.1
  let last ← monthCursor (max interval.1 (interval.2 - 1))
  monthsUpTo last cursor []

/-- The order of the tuples. -/
def monthKey (period : Int × Int) : Lex (Int × Int) := toLex period

def dayKey (period : Int × Int × Int) : Lex (Int × Lex (Int × Int)) := toLex (period.1, toLex period.2)

theorem monthKey_injective : Function.Injective monthKey := toLex.injective

theorem dayKey_injective : Function.Injective dayKey := by
  intro left right same
  have parts := Prod.mk.inj (toLex.injective same)
  exact Prod.ext parts.1 (toLex.injective parts.2)

/-- `sorted` of the set of the months -/
def sortedMonths (months : List (Int × Int)) : List (Int × Int) :=
  Keyed.byKey monthKey months

def monthsForIntervals (intervals : List (Int × Int)) : Except PyError (List (Int × Int)) := do
  let months ← intervals.mapM monthsForInterval
  return sortedMonths months.flatten

/-- `datetime.fromtimestamp(time / 1000, UTC)`, of which the day is kept -/
def dayOfTimestamp (time : Int) : Except PyError (Int × Int × Int) :=
  if datetimeRange time then .ok (utcDay time) else .error (.valueError "year is out of range")

/-- The cursors of the loop start at the day of the interval and step by one day. -/
def daysForInterval (interval : Int × Int) : Except PyError (List (Int × Int × Int)) :=
  let last := max interval.1 (interval.2 - 1) / dayMs * dayMs
  (Grid.points (interval.1 / dayMs * dayMs) (last + 1) dayMs).mapM dayOfTimestamp

def sortedDays (days : List (Int × Int × Int)) : List (Int × Int × Int) :=
  Keyed.byKey dayKey days

def daysForIntervals (intervals : List (Int × Int)) : Except PyError (List (Int × Int × Int)) := do
  let days ← intervals.mapM daysForInterval
  return sortedDays days.flatten

section Months

variable (last : MonthCursor) {cursor : MonthCursor} {reach : Int}

/-- The loop collects the months up to the last one whose cursor does not pass the end. -/
theorem monthsUpTo_ok (bounded : reach < 119999)
    (reaches : ∀ other : MonthCursor, other.time = cursor.time →
      (other.notAfter last = true ↔ other.number ≤ reach)) (months : List (Int × Int)) :
    ∃ more, monthsUpTo last cursor months = .ok (months ++ more) ∧
      ∀ year month, (year, month) ∈ more ↔ (1 ≤ month ∧ month ≤ 12) ∧
        cursor.number ≤ monthNumber year month ∧ monthNumber year month ≤ reach := by
  induction left : (reach + 1 - cursor.number).toNat generalizing cursor months with
  | zero =>
      have passed : ¬ cursor.notAfter last = true := by
        rw [reaches cursor rfl]
        omega
      unfold monthsUpTo
      rw [if_neg passed]
      refine ⟨[], by rw [List.append_nil], ?_⟩
      intro year month
      simp only [List.not_mem_nil, false_iff]
      omega
  | succ left ih =>
      have here : cursor.notAfter last = true := by
        rw [reaches cursor rfl]
        omega
      unfold monthsUpTo
      rw [if_pos here]
      split
      · rename_i error failed
        have december := MonthCursor.next_error_iff.mp ⟨error, failed⟩
        omega
      · rename_i following advanced
        obtain ⟨step, time⟩ := MonthCursor.next_ok advanced
        obtain ⟨more, collected, members⟩ := ih
          (fun other same => reaches other (same.trans time)) (months ++ [(cursor.year, cursor.month)])
          (by omega)
        refine ⟨(cursor.year, cursor.month) :: more, by rw [collected, List.append_assoc]; rfl, ?_⟩
        intro year month
        rw [List.mem_cons, members, step]
        have known := cursor.calendar
        simp only [Prod.mk.injEq, MonthCursor.number, monthNumber] at *
        omega

/-- The loop fails when it passes the last month of the calendar. -/
theorem monthsUpTo_error (reaches : ∀ other : MonthCursor, other.time = cursor.time →
      other.notAfter last = true) (months : List (Int × Int)) :
    ∃ error, monthsUpTo last cursor months = .error error := by
  induction left : (119999 - cursor.number).toNat generalizing cursor months with
  | zero =>
      unfold monthsUpTo
      rw [if_pos (reaches cursor rfl)]
      split
      · exact ⟨_, rfl⟩
      · rename_i following advanced
        have step := (MonthCursor.next_ok advanced).1
        have bound := following.number_bound
        omega
  | succ left ih =>
      unfold monthsUpTo
      rw [if_pos (reaches cursor rfl)]
      split
      · exact ⟨_, rfl⟩
      · rename_i following advanced
        obtain ⟨step, time⟩ := MonthCursor.next_ok advanced
        exact ih (fun other same => reaches other (same.trans time)) _ (by omega)

end Months

section Intervals

variable {interval : Int × Int} {intervals : List (Int × Int)}

/-- An interval of times that `datetime` can represent. -/
structure InDatetimeRange (interval : Int × Int) : Prop where
  epoch : 0 ≤ interval.1
  nonempty : interval.1 < interval.2
  year : datetimeRange (interval.2 - 1) = true

/-- An interval with ends that `datetime` can represent, before or after the epoch. -/
structure DatetimeInterval (interval : Int × Int) : Prop where
  start : datetimeRange interval.1 = true
  nonempty : interval.1 < interval.2
  year : datetimeRange (interval.2 - 1) = true

theorem InDatetimeRange.ends (inside : InDatetimeRange interval) : DatetimeInterval interval where
  start := by
    have epoch := inside.epoch
    have nonempty := inside.nonempty
    have year := inside.year
    simp only [datetimeRange, Bool.and_eq_true, decide_eq_true_eq] at year ⊢
    omega
  nonempty := inside.nonempty
  year := inside.year

theorem DatetimeInterval.last (inside : DatetimeInterval interval) :
    max interval.1 (interval.2 - 1) = interval.2 - 1 := by
  have nonempty := inside.nonempty
  omega

/-- The month is one of the interval's, and the loop reaches it: the last month is lost when the
interval starts at a later time of day than it ends. -/
def ReachesMonth (interval : Int × Int) (month : Int) : Prop :=
  monthOfTime interval.1 ≤ month ∧ (month < monthOfTime (interval.2 - 1) ∨
    month = monthOfTime (interval.2 - 1) ∧ timeOfDay interval.1 ≤ timeOfDay (interval.2 - 1))

instance (interval : Int × Int) (month : Int) : Decidable (ReachesMonth interval month) :=
  inferInstanceAs (Decidable (_ ∧ _))

/-- December of the year 9999 -/
def lastMonth : Int := 119999

/-- The months of an interval are those that its loop reaches; it fails in the last month. -/
theorem monthsForInterval_spec (inside : DatetimeInterval interval) :
    (¬ ReachesMonth interval lastMonth → ∃ months, monthsForInterval interval = .ok months ∧
      ∀ year month, (year, month) ∈ months ↔
        (1 ≤ month ∧ month ≤ 12) ∧ ReachesMonth interval (monthNumber year month)) ∧
    (ReachesMonth interval lastMonth → ∃ error, monthsForInterval interval = .error error) := by
  have bound := monthOfTime_le inside.year
  simp only [monthsForInterval, monthCursor, inside.last, dif_pos inside.start, dif_pos inside.year, ok_bind]
  generalize cursors : MonthCursor.mk (utcMonth interval.1).1 _ _ _ = cursor
  generalize lasts : MonthCursor.mk (utcMonth (interval.2 - 1)).1 _ _ _ = last
  have first : cursor.number = monthOfTime interval.1 := by
    rw [← cursors]
    rfl
  have final : last.number = monthOfTime (interval.2 - 1) := by
    rw [← lasts]
    rfl
  have started : cursor.time = timeOfDay interval.1 := by rw [← cursors]
  have ended : last.time = timeOfDay (interval.2 - 1) := by rw [← lasts]
  constructor
  · intro unreached
    let reach := if timeOfDay interval.1 ≤ timeOfDay (interval.2 - 1) then last.number else last.number - 1
    have reached (month : Int) :
        ReachesMonth interval month ↔ cursor.number ≤ month ∧ month ≤ reach := by
      simp only [ReachesMonth, ← first, ← final, reach]
      split <;> omega
    have bounded : reach < 119999 := by
      by_contra late
      have ordered : cursor.number ≤ 119999 := cursor.number_bound
      exact unreached ((reached lastMonth).mpr ⟨ordered, by rw [lastMonth]; omega⟩)
    obtain ⟨more, collected, members⟩ := monthsUpTo_ok last bounded (by
      intro other same
      rw [MonthCursor.notAfter_iff, same, started, ended]
      simp only [reach]
      split <;> omega) []
    refine ⟨more, collected, ?_⟩
    intro year month
    rw [members, reached]
  · rintro ⟨-, later | ⟨same, ordered⟩⟩
    · rw [lastMonth] at later
      omega
    · apply monthsUpTo_error
      intro other time
      have known := other.number_bound
      rw [MonthCursor.notAfter_iff, time, started, ended, final, ← same, lastMonth]
      omega

/-- The period is that of a time in one of the intervals. -/
def Intersects {Period : Type} (period : Int → Period) (intervals : List (Int × Int)) (given : Period) :
    Prop :=
  ∃ interval ∈ intervals, ∃ time, interval.1 ≤ time ∧ time < interval.2 ∧ period time = given

/-- Exactly the periods of the intervals, in ascending order. -/
def CoversExactly {Period Key : Type} [LT Key] (key : Period → Key) (period : Int → Period)
    (intervals : List (Int × Int)) (outcome : Except PyError (List Period)) : Prop :=
  ∃ periods, outcome = .ok periods ∧ periods.Pairwise (fun left right => key left < key right) ∧
    ∀ given, given ∈ periods ↔ Intersects period intervals given

theorem intersects_month_iff (inside : ∀ interval ∈ intervals, InDatetimeRange interval)
    {year month : Int} : Intersects utcMonth intervals (year, month) ↔
      (1 ≤ month ∧ month ≤ 12) ∧ ∃ interval ∈ intervals,
        monthOfTime interval.1 ≤ monthNumber year month ∧
          monthNumber year month ≤ monthOfTime (interval.2 - 1) := by
  constructor
  · rintro ⟨interval, member, time, after, before, same⟩
    obtain ⟨bounds, number⟩ := utcMonth_eq_iff.mp same
    exact ⟨bounds, interval, member,
      (exists_month_iff (inside interval member).nonempty).mp ⟨time, after, before, number⟩⟩
  · rintro ⟨bounds, interval, member, between⟩
    obtain ⟨time, after, before, number⟩ :=
      (exists_month_iff (inside interval member).nonempty).mpr between
    exact ⟨interval, member, time, after, before, utcMonth_eq_iff.mpr ⟨bounds, number⟩⟩

/-- The months are exact when the last month of each interval is reached, by its own loop or by that of
another interval, and none of them is the last month of the calendar. -/
theorem months_exact_iff (inside : ∀ interval ∈ intervals, InDatetimeRange interval) :
    CoversExactly monthKey utcMonth intervals (monthsForIntervals intervals) ↔
      ∀ interval ∈ intervals, monthOfTime (interval.2 - 1) ≠ lastMonth ∧
        ∃ other ∈ intervals, ReachesMonth other (monthOfTime (interval.2 - 1)) := by
  have ends (interval : Int × Int) (member : interval ∈ intervals) : Intersects utcMonth intervals
      (utcMonth (interval.2 - 1)) := by
    have nonempty := (inside interval member).nonempty
    exact ⟨interval, member, interval.2 - 1, by omega, by omega, rfl⟩
  constructor
  · rintro ⟨periods, made, -, members⟩ interval member
    simp only [monthsForIntervals, bind_eq_ok, pure_eq_ok] at made
    obtain ⟨months, mapped, rfl⟩ := made
    have reached : ∃ other ∈ intervals, ¬ ReachesMonth other lastMonth ∧
        ReachesMonth other (monthOfTime (interval.2 - 1)) := by
      have found := (members _).mpr (ends interval member)
      rw [sortedMonths, Keyed.mem_byKey_iff monthKey_injective, List.mem_flatten] at found
      obtain ⟨collected, source, listed⟩ := found
      obtain ⟨other, known, loop⟩ := of_mem_mapM mapped collected source
      have spec := monthsForInterval_spec (inside other known).ends
      have open_end : ¬ ReachesMonth other lastMonth := by
        intro last
        obtain ⟨error, failed⟩ := spec.2 last
        rw [failed] at loop
        cases loop
      obtain ⟨same, returned, exact_months⟩ := spec.1 open_end
      rw [returned, Except.ok.injEq] at loop
      rw [← loop, exact_months] at listed
      exact ⟨other, known, open_end, listed.2⟩
    obtain ⟨other, known, open_end, reaches⟩ := reached
    refine ⟨?_, other, known, reaches⟩
    intro last
    rw [last] at reaches
    exact open_end reaches
  · intro condition
    have unreached (interval : Int × Int) (member : interval ∈ intervals) :
        ¬ ReachesMonth interval lastMonth := by
      have bound := monthOfTime_le (inside interval member).year
      rintro ⟨-, later | ⟨same, -⟩⟩
      · rw [lastMonth] at later
        omega
      · exact (condition interval member).1 same.symm
    obtain ⟨months, mapped⟩ := mapM_ok fun interval member => by
      obtain ⟨months, returned, -⟩ :=
        (monthsForInterval_spec (inside interval member).ends).1 (unreached interval member)
      exact ⟨months, returned⟩
    refine ⟨sortedMonths months.flatten, ?_, Keyed.byKey_sorted, ?_⟩
    · simp only [monthsForIntervals, mapped, ok_bind]
      rfl
    · rintro ⟨year, month⟩
      rw [sortedMonths, Keyed.mem_byKey_iff monthKey_injective, List.mem_flatten, intersects_month_iff inside]
      constructor
      · rintro ⟨collected, source, listed⟩
        obtain ⟨interval, member, loop⟩ := of_mem_mapM mapped collected source
        obtain ⟨same, returned, exact_months⟩ :=
          (monthsForInterval_spec (inside interval member).ends).1 (unreached interval member)
        rw [returned, Except.ok.injEq] at loop
        rw [← loop, exact_months] at listed
        refine ⟨listed.1, interval, member, listed.2.1, ?_⟩
        rcases listed.2.2 with before | ⟨equal, -⟩
        · exact before.le
        · exact equal.le
      · rintro ⟨bounds, interval, member, after, before⟩
        have reached : ∃ other ∈ intervals, ReachesMonth other (monthNumber year month) := by
          rcases before.lt_or_eq with earlier | final
          · exact ⟨interval, member, after, .inl earlier⟩
          · rw [final]
            exact (condition interval member).2
        obtain ⟨other, known, reaches⟩ := reached
        obtain ⟨collected, returned, exact_months⟩ :=
          (monthsForInterval_spec (inside other known).ends).1 (unreached other known)
        exact ⟨collected, mem_of_mapM mapped known returned, (exact_months year month).mpr ⟨bounds, reaches⟩⟩

theorem daysForInterval_spec (inside : DatetimeInterval interval) :
    ∃ days, daysForInterval interval = .ok days ∧ ∀ given, given ∈ days ↔
      ∃ day, interval.1 / dayMs ≤ day ∧ day ≤ (interval.2 - 1) / dayMs ∧ civilOfDays day = given := by
  have positive : 0 < dayMs := by decide
  have nonempty := inside.nonempty
  have start := inside.start
  have year := inside.year
  have cursors (cursor : Int) : cursor ∈ Grid.points (interval.1 / dayMs * dayMs)
      ((interval.2 - 1) / dayMs * dayMs + 1) dayMs ↔
      ∃ day, interval.1 / dayMs ≤ day ∧ day ≤ (interval.2 - 1) / dayMs ∧ cursor = day * dayMs := by
    rw [Grid.mem_points_iff positive]
    simp only [dayMs]
    constructor
    · rintro ⟨after, before, aligned⟩
      exact ⟨cursor / 86400000, by omega, by omega, by omega⟩
    · rintro ⟨day, after, before, rfl⟩
      omega
  have represented (day : Int) (after : interval.1 / dayMs ≤ day)
      (before : day ≤ (interval.2 - 1) / dayMs) : dayOfTimestamp (day * dayMs) = .ok (civilOfDays day) := by
    have range : datetimeRange (day * dayMs) = true := by
      rw [datetimeRange, Bool.and_eq_true, decide_eq_true_eq, decide_eq_true_eq] at start year ⊢
      simp only [dayMs] at *
      omega
    rw [dayOfTimestamp, if_pos range, utcDay, Int.mul_ediv_cancel _ positive.ne']
  obtain ⟨days, mapped⟩ := mapM_ok fun cursor member => by
    obtain ⟨day, after, before, rfl⟩ := (cursors cursor).mp member
    exact ⟨civilOfDays day, represented day after before⟩
  refine ⟨days, by simp only [daysForInterval, inside.last, mapped], ?_⟩
  intro given
  constructor
  · intro listed
    obtain ⟨cursor, member, made⟩ := of_mem_mapM mapped given listed
    obtain ⟨day, after, before, rfl⟩ := (cursors cursor).mp member
    rw [represented day after before, Except.ok.injEq] at made
    exact ⟨day, after, before, made⟩
  · rintro ⟨day, after, before, rfl⟩
    exact mem_of_mapM mapped ((cursors _).mpr ⟨day, after, before, rfl⟩) (represented day after before)

/-- The days are exact for all intervals. -/
theorem days_exact (inside : ∀ interval ∈ intervals, InDatetimeRange interval) :
    CoversExactly dayKey utcDay intervals (daysForIntervals intervals) := by
  obtain ⟨days, mapped⟩ := mapM_ok fun interval member => by
    obtain ⟨days, returned, -⟩ := daysForInterval_spec (inside interval member).ends
    exact ⟨days, returned⟩
  refine ⟨sortedDays days.flatten, ?_, Keyed.byKey_sorted, ?_⟩
  · simp only [daysForIntervals, mapped, ok_bind]
    rfl
  · intro given
    rw [sortedDays, Keyed.mem_byKey_iff dayKey_injective, List.mem_flatten]
    constructor
    · rintro ⟨collected, source, listed⟩
      obtain ⟨interval, member, loop⟩ := of_mem_mapM mapped collected source
      obtain ⟨same, returned, exact_days⟩ := daysForInterval_spec (inside interval member).ends
      rw [returned, Except.ok.injEq] at loop
      rw [← loop, exact_days] at listed
      have times := exists_time_iff (inside interval member).nonempty fun day => civilOfDays day = given
      obtain ⟨time, after, before, period⟩ := times.mpr listed
      exact ⟨interval, member, time, after, before, period⟩
    · rintro ⟨interval, member, time, after, before, period⟩
      obtain ⟨collected, returned, exact_days⟩ := daysForInterval_spec (inside interval member).ends
      have times := exists_time_iff (inside interval member).nonempty fun day => civilOfDays day = given
      exact ⟨collected, mem_of_mapM mapped member returned,
        (exact_days given).mpr (times.mp ⟨time, after, before, period⟩)⟩

/-- Days and months cover the intervals exactly when the last month of each interval is reached, by its
own loop or by that of another interval, and none of them is the last month of the calendar. -/
theorem archive_periods_exact_iff (inside : ∀ interval ∈ intervals, InDatetimeRange interval) :
    CoversExactly monthKey utcMonth intervals (monthsForIntervals intervals) ∧
        CoversExactly dayKey utcDay intervals (daysForIntervals intervals) ↔
      ∀ interval ∈ intervals, monthOfTime (interval.2 - 1) ≠ lastMonth ∧
        ∃ other ∈ intervals, ReachesMonth other (monthOfTime (interval.2 - 1)) := by
  rw [months_exact_iff inside]
  exact and_iff_left (days_exact inside)

/-- The first quarter of 1970, and a winter from the middle of a December into February. -/
def quarterAndWinter : List (Int × Int) := [(0, 7776000000), (30240000000, 36288000001)]

theorem archive_periods_exact_winter :
    CoversExactly monthKey utcMonth quarterAndWinter (monthsForIntervals quarterAndWinter) ∧
      CoversExactly dayKey utcDay quarterAndWinter (daysForIntervals quarterAndWinter) := by
  have inside : ∀ interval ∈ quarterAndWinter, InDatetimeRange interval := by
    intro interval member
    rcases List.mem_pair.mp member with rfl | rfl
    · exact ⟨by decide, by decide, by decide⟩
    · exact ⟨by decide, by decide, by decide⟩
  refine (archive_periods_exact_iff inside).mpr ?_
  decide +kernel

/-- From noon of the first of January to the first millisecond of February: February is left out. -/
theorem february_lost :
    ¬ CoversExactly monthKey utcMonth [(43200000, 2678400001)] (monthsForIntervals [(43200000, 2678400001)]) := by
  have inside : ∀ interval ∈ [((43200000 : Int), (2678400001 : Int))], InDatetimeRange interval := by
    intro interval member
    obtain rfl := List.mem_singleton.mp member
    exact ⟨by decide, by decide, by decide⟩
  rw [months_exact_iff inside]
  decide +kernel

end Intervals

end MarketdataProvider
