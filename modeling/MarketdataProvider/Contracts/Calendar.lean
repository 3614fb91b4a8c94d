import MarketdataProvider.Contracts.Query
namespace MarketdataProvider

open Foundation

/-- The days before a year of an era; its years start in March. -/
def daysBefore (year : Int) : Int := 365 * year + year / 4 - year / 100

/-- The year of an era in which a day lies. -/
def yearOfEra (dayOfEra : Int) : Int :=
  (dayOfEra - dayOfEra / 1460 + dayOfEra / 36524 - dayOfEra / 146096) / 365

/-- The months of an era before the month of a day. -/
def monthOfEra (dayOfEra : Int) : Int :=
  12 * yearOfEra dayOfEra + (5 * (dayOfEra - daysBefore (yearOfEra dayOfEra)) + 2) / 153

/-- The number of a month, counted from the year zero. -/
def monthNumber (year month : Int) : Int := 12 * year + month - 1

/-- The month of a day. -/
def monthOfDay (days : Int) : Int := monthNumber (civilOfDays days).1 (civilOfDays days).2.1

theorem daysBefore_succ (year : Int) :
    daysBefore year + 365 ≤ daysBefore (year + 1) ∧ daysBefore (year + 1) ≤ daysBefore year + 366 := by
  simp only [daysBefore]
  omega

theorem daysBefore_mono {year later : Int} (before : year ≤ later) : daysBefore year ≤ daysBefore later := by
  simp only [daysBefore]
  omega

/-- A day lies between the start of its year and that of the next one; the last day of an era is a
leap day. -/
theorem yearOfEra_spec {dayOfEra : Int} (first : 0 ≤ dayOfEra) (last : dayOfEra ≤ 146095) :
    daysBefore (yearOfEra dayOfEra) ≤ dayOfEra ∧ dayOfEra < daysBefore (yearOfEra dayOfEra + 1) := by
  obtain ⟨century, centuries⟩ : ∃ century, century = dayOfEra / 36524 := ⟨_, rfl⟩
  obtain ⟨rest, rests⟩ : ∃ rest, rest = dayOfEra - 36524 * century := ⟨_, rfl⟩
  obtain ⟨cycle, cycles⟩ : ∃ cycle, cycle = rest / 1461 := ⟨_, rfl⟩
  obtain ⟨day, days⟩ : ∃ day, day = rest - 1461 * cycle := ⟨_, rfl⟩
  obtain ⟨carry, carries⟩ : ∃ carry, carry = (24 * century + cycle + day) / 1460 := ⟨_, rfl⟩
  have inCentury : 0 ≤ rest ∧ rest < 36524 := by omega
  have inEra : 0 ≤ century ∧ century ≤ 3 := by omega
  have inCycle : 0 ≤ day ∧ day < 1461 := by omega
  have fewCycles : 0 ≤ cycle ∧ cycle ≤ 24 := by omega
  have leaps : dayOfEra / 1460 = 25 * century + cycle + carry := by omega
  have none : dayOfEra / 146096 = 0 := by omega
  obtain ⟨year, years⟩ : ∃ year, year = yearOfEra dayOfEra := ⟨_, rfl⟩
  rw [← years]
  rw [yearOfEra, leaps, none, ← centuries] at years
  obtain ⟨part, parts⟩ : ∃ part, part = (day - carry) / 365 := ⟨_, rfl⟩
  have split : year = 100 * century + 4 * cycle + part := by omega
  have small : 0 ≤ carry ∧ carry ≤ 1 := by omega
  have within : 0 ≤ part ∧ part ≤ 3 := by omega
  have lower : 365 * part ≤ day := by omega
  have quarter : year / 4 = 25 * century + cycle := by omega
  have hundred : year / 100 = century := by omega
  simp only [daysBefore, quarter, hundred]
  constructor
  · omega
  by_cases leap : part = 3
  · have nextQuarter : (year + 1) / 4 = 25 * century + cycle + 1 := by omega
    by_cases lastCycle : cycle = 24
    · have nextHundred : (year + 1) / 100 = century + 1 := by omega
      omega
    · have nextHundred : (year + 1) / 100 = century := by omega
      omega
  · have upper : day < 365 * (part + 1) := by omega
    have nextQuarter : (year + 1) / 4 = 25 * century + cycle := by omega
    have nextHundred : (year + 1) / 100 = century := by omega
    omega

theorem dayOfYear_bounds {dayOfEra : Int} (first : 0 ≤ dayOfEra) (last : dayOfEra ≤ 146096) :
    0 ≤ dayOfEra - daysBefore (yearOfEra dayOfEra) ∧
      dayOfEra - daysBefore (yearOfEra dayOfEra) ≤ 365 := by
  by_cases leap : dayOfEra = 146096
  · subst leap
    decide
  · have spec := yearOfEra_spec first (by omega)
    have year := daysBefore_succ (yearOfEra dayOfEra)
    omega

theorem monthOfEra_succ {dayOfEra : Int} (first : 0 ≤ dayOfEra) (last : dayOfEra ≤ 146095) :
    monthOfEra (dayOfEra + 1) = monthOfEra dayOfEra ∨
      monthOfEra (dayOfEra + 1) = monthOfEra dayOfEra + 1 := by
  by_cases leap : dayOfEra = 146095
  · subst leap
    decide
  obtain ⟨starts, ends⟩ := yearOfEra_spec first last
  obtain ⟨nextStarts, nextEnds⟩ := yearOfEra_spec (show 0 ≤ dayOfEra + 1 by omega) (by omega)
  simp only [monthOfEra]
  generalize yearOfEra dayOfEra = year at *
  generalize yearOfEra (dayOfEra + 1) = next at *
  have long := daysBefore_succ year
  rcases lt_trichotomy next year with before | rfl | after
  · have ordered := daysBefore_mono (show next + 1 ≤ year by omega)
    omega
  · omega
  · obtain rfl : next = year + 1 := by
      by_contra different
      have ordered := daysBefore_mono (show year + 1 + 1 ≤ next by omega)
      have longer := daysBefore_succ (year + 1)
      omega
    have newYear : dayOfEra + 1 - daysBefore (year + 1) = 0 := by omega
    rw [newYear]
    omega

/-- The months of a year from March on, and the days from January on. -/
def marchMonth (dayOfYear : Int) : Int := (5 * dayOfYear + 2) / 153

def civilMonth (month : Int) : Int := if month < 10 then month + 3 else month - 9

theorem civilOfDays_eq (days : Int) : civilOfDays days =
    let era := (days + 719468) / 146097
    let dayOfEra := (days + 719468) % 146097
    let dayOfYear := dayOfEra - daysBefore (yearOfEra dayOfEra)
    (yearOfEra dayOfEra + era * 400 + (if civilMonth (marchMonth dayOfYear) ≤ 2 then 1 else 0),
      civilMonth (marchMonth dayOfYear), dayOfYear - (153 * marchMonth dayOfYear + 2) / 5 + 1) := by
  have rest : days + 719468 - (days + 719468) / 146097 * 146097 = (days + 719468) % 146097 := by omega
  simp only [civilOfDays, rest]
  rfl

/-- Months are numbered from one, and they are counted from one March to the next. -/
theorem monthOfDay_eq (days : Int) : 1 ≤ (civilOfDays days).2.1 ∧ (civilOfDays days).2.1 ≤ 12 ∧
    monthOfDay days =
      4800 * ((days + 719468) / 146097) + monthOfEra ((days + 719468) % 146097) + 2 := by
  have bounds := dayOfYear_bounds (show 0 ≤ (days + 719468) % 146097 by omega) (by omega)
  rw [monthOfDay, civilOfDays_eq, monthOfEra]
  simp only [monthNumber]
  generalize (days + 719468) % 146097 - daysBefore (yearOfEra ((days + 719468) % 146097)) = dayOfYear at *
  have march : 0 ≤ marchMonth dayOfYear ∧ marchMonth dayOfYear ≤ 11 := by
    simp only [marchMonth]
    omega
  change 1 ≤ civilMonth _ ∧ civilMonth _ ≤ 12 ∧ _ = 4800 * _ + (12 * _ + marchMonth dayOfYear) + 2
  generalize marchMonth dayOfYear = month at *
  simp only [civilMonth]
  by_cases early : month < 10
  · have later : ¬ month + 3 ≤ 2 := by omega
    simp only [if_pos early, if_neg later]
    omega
  · have next : month - 9 ≤ 2 := by omega
    simp only [if_neg early, if_pos next]
    omega

/-- From a day to the next one, the month stays or the next month starts. -/
theorem monthOfDay_steps : Grid.UnitSteps monthOfDay := by
  intro days
  rw [(monthOfDay_eq days).2.2, (monthOfDay_eq (days + 1)).2.2]
  by_cases ends : (days + 719468) % 146097 = 146096
  · have era : (days + 1 + 719468) / 146097 = (days + 719468) / 146097 + 1 := by omega
    have start : (days + 1 + 719468) % 146097 = 0 := by omega
    have first : monthOfEra 0 = 0 := by decide
    have last : monthOfEra 146096 = 4799 := by decide
    rw [ends, era, start, first, last]
    omega
  · have era : (days + 1 + 719468) / 146097 = (days + 719468) / 146097 := by omega
    have next : (days + 1 + 719468) % 146097 = (days + 719468) % 146097 + 1 := by omega
    have step := monthOfEra_succ (show 0 ≤ (days + 719468) % 146097 by omega) (by omega)
    rw [era, next]
    omega

/-- A month is given by its number. -/
theorem monthNumber_inj {year month otherYear otherMonth : Int} (first : 1 ≤ month ∧ month ≤ 12)
    (second : 1 ≤ otherMonth ∧ otherMonth ≤ 12) :
    monthNumber year month = monthNumber otherYear otherMonth ↔ year = otherYear ∧ month = otherMonth := by
  simp only [monthNumber]
  omega

/-- The month in which a time lies, as a number and as a pair of year and month. -/
def monthOfTime (time : Int) : Int := monthOfDay (time / dayMs)

def utcMonth (time : Int) : Int × Int := ((civilOfDays (time / dayMs)).1, (civilOfDays (time / dayMs)).2.1)

def utcDay (time : Int) : Int × Int × Int := civilOfDays (time / dayMs)

/-- The years of `datetime` end with December 9999. -/
theorem monthOfTime_le {time : Int} (inside : datetimeRange time = true) : monthOfTime time ≤ 119999 := by
  have bound : time / dayMs ≤ 2932896 := by
    simp only [datetimeRange, Bool.and_eq_true, decide_eq_true_eq, dayMs] at inside ⊢
    omega
  have last : monthOfDay 2932896 = 119999 := by decide
  exact last ▸ monthOfDay_steps.monotone bound

theorem utcMonth_month (time : Int) : 1 ≤ (utcMonth time).2 ∧ (utcMonth time).2 ≤ 12 :=
  ⟨(monthOfDay_eq _).1, (monthOfDay_eq _).2.1⟩

theorem monthNumber_utcMonth (time : Int) :
    monthNumber (utcMonth time).1 (utcMonth time).2 = monthOfTime time := rfl

theorem utcMonth_eq_iff {time year month : Int} : utcMonth time = (year, month) ↔
    (1 ≤ month ∧ month ≤ 12) ∧ monthOfTime time = monthNumber year month := by
  constructor
  · intro same
    have bounds := utcMonth_month time
    rw [same] at bounds
    refine ⟨bounds, ?_⟩
    rw [← monthNumber_utcMonth, same]
  · rintro ⟨bounds, same⟩
    rw [← monthNumber_utcMonth, monthNumber_inj (utcMonth_month time) bounds] at same
    exact Prod.ext same.1 same.2

/-- The days that an interval meets are those between the days of its ends. -/
theorem exists_time_iff {start stop : Int} (nonempty : start < stop) (holds : Int → Prop) :
    (∃ time, start ≤ time ∧ time < stop ∧ holds (time / dayMs)) ↔
      ∃ day, start / dayMs ≤ day ∧ day ≤ (stop - 1) / dayMs ∧ holds day := by
  simp only [dayMs]
  constructor
  · rintro ⟨time, after, before, known⟩
    exact ⟨time / 86400000, by omega, by omega, known⟩
  · rintro ⟨day, after, before, known⟩
    refine ⟨max start (day * 86400000), le_max_left .., by omega, ?_⟩
    have same : max start (day * 86400000) / 86400000 = day := by omega
    rw [same]
    exact known

/-- The months that an interval meets are those between the months of its ends. -/
theorem exists_month_iff {start stop number : Int} (nonempty : start < stop) :
    (∃ time, start ≤ time ∧ time < stop ∧ monthOfTime time = number) ↔
      monthOfTime start ≤ number ∧ number ≤ monthOfTime (stop - 1) := by
  simp only [monthOfTime]
  rw [exists_time_iff nonempty fun day => monthOfDay day = number]
  apply monthOfDay_steps.between_iff
  exact Int.ediv_le_ediv (by decide) (by omega)

end MarketdataProvider
