import MarketdataProvider.Contracts.Calendar
import MarketdataProvider.Foundation.Tiling

namespace MarketdataProvider

open Foundation

section Dates

/-- The day after a date. -/
def nextDate (date : Int × Int × Int) : Int × Int × Int :=
  if date.2.2 < monthLength date.1 date.2.1 then (date.1, date.2.1, date.2.2 + 1)
  else if date.2.1 < 12 then (date.1, date.2.1 + 1, 1)
  else (date.1 + 1, 1, 1)

/-- The date of a day of a year that starts in March. -/
def civilFrom (year dayOfYear : Int) : Int × Int × Int :=
  (year + (if civilMonth (marchMonth dayOfYear) ≤ 2 then 1 else 0), civilMonth (marchMonth dayOfYear),
    dayOfYear - (153 * marchMonth dayOfYear + 2) / 5 + 1)

/-- The length of a year that starts in March; its last month is the February of the next one. -/
def marchYearLength (year : Int) : Int := 337 + monthLength (year + 1) 2

theorem marchYearLength_cases (year : Int) :
    marchYearLength year = 365 ∧ monthLength (year + 1) 2 = 28 ∨
      marchYearLength year = 366 ∧ monthLength (year + 1) 2 = 29 := by
  simp only [marchYearLength, monthLength, if_pos]
  split
  · right
    omega
  · left
    omega

/-- The days of a year before a month, from March on. -/
def daysBeforeMonth (month : Int) : Int := (153 * month + 2) / 5

theorem marchMonth_bounds {dayOfYear : Int} (first : 0 ≤ dayOfYear) (last : dayOfYear ≤ 365) :
    (0 ≤ marchMonth dayOfYear ∧ marchMonth dayOfYear ≤ 11) ∧
      daysBeforeMonth (marchMonth dayOfYear) ≤ dayOfYear ∧
      dayOfYear < daysBeforeMonth (marchMonth dayOfYear + 1) := by
  simp only [marchMonth, daysBeforeMonth]
  omega

theorem marchMonth_eq {dayOfYear month : Int} (starts : daysBeforeMonth month ≤ dayOfYear)
    (ends : dayOfYear < daysBeforeMonth (month + 1)) : marchMonth dayOfYear = month := by
  simp only [marchMonth, daysBeforeMonth] at *
  omega

/-- The months from March to January have fixed lengths. -/
theorem monthLength_march (year : Int) {month : Int} (first : 0 ≤ month) (last : month ≤ 10) :
    monthLength year (civilMonth month) = daysBeforeMonth (month + 1) - daysBeforeMonth month := by
  have each : month = 0 ∨ month = 1 ∨ month = 2 ∨ month = 3 ∨ month = 4 ∨ month = 5 ∨ month = 6 ∨
      month = 7 ∨ month = 8 ∨ month = 9 ∨ month = 10 := by omega
  rcases each with rfl | rfl | rfl | rfl | rfl | rfl | rfl | rfl | rfl | rfl | rfl <;> rfl

/-- A day before the last one of its month. -/
theorem nextDate_inside {year month day : Int} (inside : day < monthLength year month) :
    nextDate (year, month, day) = (year, month, day + 1) := if_pos inside

/-- The last day of a month. -/
theorem nextDate_last {year month day : Int} (last : day = monthLength year month) :
    nextDate (year, month, day) = if month < 12 then (year, month + 1, 1) else (year + 1, 1, 1) := by
  rw [nextDate, if_neg (by dsimp only; omega)]

theorem civilFrom_eq (year dayOfYear : Int) {month : Int} (known : marchMonth dayOfYear = month) :
    civilFrom year dayOfYear = (year + (if civilMonth month ≤ 2 then 1 else 0), civilMonth month,
      dayOfYear - daysBeforeMonth month + 1) := by
  rw [civilFrom, known, daysBeforeMonth]

/-- Within a year that starts in March each day is followed by the next date. -/
theorem civilFrom_succ {year dayOfYear : Int} (first : 0 ≤ dayOfYear)
    (last : dayOfYear + 1 < marchYearLength year) :
    civilFrom year (dayOfYear + 1) = nextDate (civilFrom year dayOfYear) := by
  have length := marchYearLength_cases year
  obtain ⟨⟨low, high⟩, starts, ends⟩ := marchMonth_bounds first (by omega)
  obtain ⟨month, known⟩ : ∃ month, marchMonth dayOfYear = month := ⟨_, rfl⟩
  rw [known] at low high starts ends
  rw [civilFrom_eq year dayOfYear known]
  by_cases same : dayOfYear + 1 < daysBeforeMonth (month + 1)
  · have stays : marchMonth (dayOfYear + 1) = month := marchMonth_eq (by omega) same
    rw [civilFrom_eq year _ stays, nextDate_inside]
    · congr 2
      omega
    · by_cases february : month = 11
      · subst february
        change _ < monthLength (year + 1) 2
        change dayOfYear - 337 + 1 < _
        omega
      · rw [monthLength_march _ low (by omega)]
        omega
  · have early : month ≤ 10 := by
      by_contra late
      obtain rfl : month = 11 := by omega
      change ¬ dayOfYear + 1 < 367 at same
      omega
    have next : marchMonth (dayOfYear + 1) = month + 1 := by
      apply marchMonth_eq
      · omega
      · simp only [daysBeforeMonth] at *
        omega
    rw [civilFrom_eq year _ next, nextDate_last]
    · have fresh : dayOfYear + 1 - daysBeforeMonth (month + 1) + 1 = 1 := by omega
      rw [fresh]
      simp only [civilMonth]
      split_ifs
      all_goals
        rw [Prod.mk.injEq, Prod.mk.injEq]
        omega
    · rw [monthLength_march _ low early]
      omega

/-- The last day of February is followed by the first of March. -/
theorem civilFrom_last {year dayOfYear : Int} (last : dayOfYear + 1 = marchYearLength year) :
    civilFrom (year + 1) 0 = nextDate (civilFrom year dayOfYear) := by
  have length := marchYearLength_cases year
  have february : marchMonth dayOfYear = 11 := by
    simp only [marchMonth]
    omega
  rw [civilFrom_eq year _ february]
  change _ = nextDate (year + 1, 2, dayOfYear - 337 + 1)
  rw [nextDate_last (by omega)]
  exact Prod.ext (add_zero _) rfl

/-- The year from March on in which a day lies. -/
def marchYear (days : Int) : Int :=
  yearOfEra ((days + 719468) % 146097) + (days + 719468) / 146097 * 400

def dayOfMarchYear (days : Int) : Int :=
  (days + 719468) % 146097 - daysBefore (yearOfEra ((days + 719468) % 146097))

theorem civilOfDays_eq_civilFrom (days : Int) :
    civilOfDays days = civilFrom (marchYear days) (dayOfMarchYear days) :=
  civilOfDays_eq days

/-- The leap years of an era are those of the calendar. -/
theorem marchYearLength_eq {year : Int} (era : Int) (first : 0 ≤ year) (last : year ≤ 398) :
    marchYearLength (year + era * 400) = daysBefore (year + 1) - daysBefore year := by
  simp only [marchYearLength, monthLength, if_pos, daysBefore]
  split
  · rename_i leap
    omega
  · rename_i common
    omega

theorem yearOfEra_bounds {dayOfEra : Int} (first : 0 ≤ dayOfEra) (last : dayOfEra ≤ 146095) :
    0 ≤ yearOfEra dayOfEra ∧ yearOfEra dayOfEra ≤ 399 := by
  obtain ⟨starts, ends⟩ := yearOfEra_spec first last
  constructor
  · by_contra negative
    have early := daysBefore_mono (show yearOfEra dayOfEra + 1 ≤ 0 by omega)
    change _ ≤ 0 at early
    omega
  · by_contra late
    have after := daysBefore_mono (show 400 ≤ yearOfEra dayOfEra by omega)
    change 146096 ≤ _ at after
    omega

/-- A day is followed by the next one of its year from March on, or by a new year. -/
theorem marchYear_succ (days : Int) :
    (dayOfMarchYear days + 1 < marchYearLength (marchYear days) ∧
      marchYear (days + 1) = marchYear days ∧ dayOfMarchYear (days + 1) = dayOfMarchYear days + 1) ∨
    (dayOfMarchYear days + 1 = marchYearLength (marchYear days) ∧
      marchYear (days + 1) = marchYear days + 1 ∧ dayOfMarchYear (days + 1) = 0) := by
  simp only [marchYear, dayOfMarchYear]
  obtain ⟨era, eras⟩ : ∃ era, era = (days + 719468) / 146097 := ⟨_, rfl⟩
  obtain ⟨dayOfEra, dayKnown⟩ : ∃ dayOfEra, dayOfEra = (days + 719468) % 146097 := ⟨_, rfl⟩
  have inEra : 0 ≤ dayOfEra ∧ dayOfEra ≤ 146096 := by omega
  rw [← eras, ← dayKnown]
  have lastLength : marchYearLength (399 + era * 400) = 366 := by
    simp only [marchYearLength, monthLength, if_pos]
    rw [if_pos (by omega)]
    rfl
  by_cases leapDay : dayOfEra = 146096
  · right
    have nextEra : (days + 1 + 719468) / 146097 = era + 1 := by omega
    have nextDay : (days + 1 + 719468) % 146097 = 0 := by omega
    rw [nextEra, nextDay, leapDay]
    change 146096 - 145731 + 1 = marchYearLength (399 + era * 400) ∧ 0 + (era + 1) * 400 = 399 + era * 400 + 1 ∧ _
    rw [lastLength]
    refine ⟨rfl, ?_, rfl⟩
    omega
  have sameEra : (days + 1 + 719468) / 146097 = era := by omega
  have nextDay : (days + 1 + 719468) % 146097 = dayOfEra + 1 := by omega
  rw [sameEra, nextDay]
  by_cases lastDay : dayOfEra = 146095
  · left
    rw [lastDay]
    change 146095 - 145731 + 1 < marchYearLength (399 + era * 400) ∧ 399 + era * 400 = 399 + era * 400 ∧ _
    rw [lastLength]
    exact ⟨by decide, rfl, rfl⟩
  obtain ⟨starts, ends⟩ := yearOfEra_spec inEra.1 (show dayOfEra ≤ 146095 by omega)
  obtain ⟨nextStarts, nextEnds⟩ := yearOfEra_spec (show 0 ≤ dayOfEra + 1 by omega) (by omega)
  have bounds := yearOfEra_bounds inEra.1 (show dayOfEra ≤ 146095 by omega)
  have nextBounds := yearOfEra_bounds (show 0 ≤ dayOfEra + 1 by omega) (show dayOfEra + 1 ≤ 146095 by omega)
  generalize yearOfEra dayOfEra = year at *
  generalize yearOfEra (dayOfEra + 1) = next at *
  have long := daysBefore_succ year
  rcases lt_trichotomy next year with before | rfl | after
  · have ordered := daysBefore_mono (show next + 1 ≤ year by omega)
    omega
  · left
    have length : daysBefore (next + 1) - daysBefore next ≤ marchYearLength (next + era * 400) := by
      by_cases final : next = 399
      · subst final
        rw [lastLength]
        omega
      · rw [marchYearLength_eq era bounds.1 (by omega)]
    omega
  · right
    obtain rfl : next = year + 1 := by
      by_contra different
      have ordered := daysBefore_mono (show year + 1 + 1 ≤ next by omega)
      have longer := daysBefore_succ (year + 1)
      omega
    rw [marchYearLength_eq era bounds.1 (by omega)]
    omega

theorem dayOfMarchYear_nonneg (days : Int) : 0 ≤ dayOfMarchYear days :=
  (dayOfYear_bounds (show 0 ≤ (days + 719468) % 146097 by omega) (by omega)).1

/-- The date of the next day is the next date. -/
theorem civilOfDays_succ (days : Int) : civilOfDays (days + 1) = nextDate (civilOfDays days) := by
  rw [civilOfDays_eq_civilFrom, civilOfDays_eq_civilFrom]
  rcases marchYear_succ days with ⟨inside, year, day⟩ | ⟨last, year, day⟩
  · rw [year, day]
    exact civilFrom_succ (dayOfMarchYear_nonneg days) inside
  · rw [year, day]
    exact civilFrom_last last

/-- Each date lies in its month. -/
theorem civilOfDays_day (days : Int) : 1 ≤ (civilOfDays days).2.2 ∧
    (civilOfDays days).2.2 ≤ monthLength (civilOfDays days).1 (civilOfDays days).2.1 := by
  have length := marchYearLength_cases (marchYear days)
  have first := dayOfMarchYear_nonneg days
  have last : dayOfMarchYear days < marchYearLength (marchYear days) := by
    rcases marchYear_succ days with ⟨inside, -⟩ | ⟨ends, -⟩
    · omega
    · omega
  obtain ⟨⟨low, high⟩, starts, ends⟩ := marchMonth_bounds first (by omega)
  obtain ⟨month, known⟩ : ∃ month, marchMonth (dayOfMarchYear days) = month := ⟨_, rfl⟩
  rw [known] at low high starts ends
  rw [civilOfDays_eq_civilFrom, civilFrom_eq _ _ known]
  by_cases february : month = 11
  · subst february
    change 1 ≤ dayOfMarchYear days - 337 + 1 ∧ dayOfMarchYear days - 337 + 1 ≤ monthLength (marchYear days + 1) 2
    change 337 ≤ dayOfMarchYear days at starts
    omega
  · rw [monthLength_march _ low (by omega)]
    dsimp only
    omega

/-- The dates of a month follow each other. -/
theorem civilOfDays_add (days : Int) (count : Nat) (inside : (civilOfDays days).2.2 + count ≤
      monthLength (civilOfDays days).1 (civilOfDays days).2.1) :
    civilOfDays (days + count) =
      ((civilOfDays days).1, (civilOfDays days).2.1, (civilOfDays days).2.2 + count) := by
  induction count with
  | zero => simp
  | succ count ih =>
      have before := ih (by omega)
      rw [Int.natCast_succ, ← add_assoc, civilOfDays_succ, before, nextDate_inside (by omega), add_assoc]

/-- The first day of the next month. -/
def nextMonthDay (days : Int) : Int :=
  days - (civilOfDays days).2.2 + monthLength (civilOfDays days).1 (civilOfDays days).2.1 + 1

/-- The month after a month. -/
def nextMonth (month : Int × Int) : Int × Int :=
  if month.2 < 12 then (month.1, month.2 + 1) else (month.1 + 1, 1)

theorem civilOfDays_monthEnd (days : Int) : civilOfDays (nextMonthDay days - 1) =
    ((civilOfDays days).1, (civilOfDays days).2.1,
      monthLength (civilOfDays days).1 (civilOfDays days).2.1) := by
  have inside := (civilOfDays_day days).2
  obtain ⟨count, left⟩ := Int.eq_ofNat_of_zero_le (show 0 ≤
    monthLength (civilOfDays days).1 (civilOfDays days).2.1 - (civilOfDays days).2.2 by omega)
  have place : nextMonthDay days - 1 = days + count := by
    rw [nextMonthDay]
    omega
  have day : (civilOfDays days).2.2 + count = monthLength (civilOfDays days).1 (civilOfDays days).2.1 := by
    omega
  rw [place, civilOfDays_add days count (by omega), day]

/-- The next month starts with its first day. -/
theorem civilOfDays_nextMonth (days : Int) : civilOfDays (nextMonthDay days) =
    ((nextMonth ((civilOfDays days).1, (civilOfDays days).2.1)).1,
      (nextMonth ((civilOfDays days).1, (civilOfDays days).2.1)).2, 1) := by
  have place : nextMonthDay days = nextMonthDay days - 1 + 1 := by omega
  rw [place, civilOfDays_succ, civilOfDays_monthEnd, nextDate_last rfl, nextMonth]
  dsimp only
  split
  · rfl
  · rfl

end Dates

section Units

/-- Monday is the first day of a week; the epoch starts on a Thursday. -/
def weekday (days : Int) : Int := (days + 3) % 7

/-- The number of the unit in which a day lies: a day, a week or a month. -/
def calendarUnit (canonical : String) (days : Int) : Int :=
  if canonical = "1D" then days else if canonical = "1W" then (days + 3) / 7 else monthOfDay days

/-- The first day of the next unit. -/
def nextUnitDay (canonical : String) (days : Int) : Int :=
  if canonical = "1D" then days + 1 else if canonical = "1W" then days - weekday days + 7
  else nextMonthDay days

theorem monthOfDay_nextMonth (days : Int) : monthOfDay (nextMonthDay days) = monthOfDay days + 1 := by
  rw [monthOfDay, monthOfDay, civilOfDays_nextMonth, nextMonth]
  obtain ⟨-, last, -⟩ := monthOfDay_eq days
  simp only [monthNumber]
  split
  · dsimp only
    omega
  · dsimp only
    omega

/-- The calendar units tile the days. -/
theorem calendarUnit_tiles (canonical : String) : Tiles (calendarUnit canonical) (nextUnitDay canonical) := by
  unfold calendarUnit nextUnitDay
  split_ifs
  · intro days other
    exact Int.lt_add_one_iff
  · intro days other
    simp only [weekday]
    omega
  · apply Tiles.of_unitSteps monthOfDay_steps
    · intro days
      rw [monthOfDay, monthOfDay, civilOfDays_monthEnd]
    · exact monthOfDay_nextMonth

end Units

section Close

variable [PyText] {tf canonical : String} {time : Int}

/-- The timeframes that close with a unit of the calendar. -/
def CalendarTimeframe (canonical : String) : Prop :=
  canonical = "1D" ∨ canonical = "1W" ∨ canonical = "1M"

/-- A unit of the calendar closes one millisecond before the next one. -/
theorem closeTimeMs_calendar (accepted : canonicalTimeframe tf = .ok canonical)
    (calendar : CalendarTimeframe canonical) (inside : datetimeRange time = true) :
    closeTimeMs time tf = .ok (nextUnitDay canonical (time / dayMs) * dayMs - 1) := by
  rw [closeTimeMs, accepted, ok_bind]
  dsimp only
  rw [if_neg (by simp [inside])]
  unfold nextUnitDay
  rcases calendar with rfl | rfl | rfl
  · rw [if_pos rfl, if_pos rfl, dayMs]
    congr 1
    omega
  · rw [if_neg (by decide), if_pos rfl, if_neg (by decide), if_pos rfl, weekday, dayMs]
    congr 1
    omega
  · rw [if_neg (by decide), if_neg (by decide), if_pos rfl, if_neg (by decide), if_neg (by decide),
      nextMonthDay, dayMs]
    congr 1
    omega

/-- A fixed period closes one millisecond before the next one. -/
theorem closeTimeMs_fixed {duration : Int} (accepted : canonicalTimeframe tf = .ok canonical)
    (fixed : ¬ CalendarTimeframe canonical) (known : timeframeMs tf = .ok duration)
    (inside : datetimeRange time = true) : closeTimeMs time tf = .ok (time + duration - 1) := by
  simp only [CalendarTimeframe, not_or] at fixed
  rw [closeTimeMs, accepted, ok_bind]
  dsimp only
  rw [if_neg (by simp [inside]), if_neg fixed.1, if_neg fixed.2.1, if_neg fixed.2.2,
    timeframeMs_canonical accepted, known]
  rfl

end Close

end MarketdataProvider
