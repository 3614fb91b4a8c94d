import MarketdataProvider.Exchanges.ArchiveFetch

namespace MarketdataProvider

open Foundation

/-- `_missing_starts`; the points of a set come in some order, here in ascending order. -/
def missingStarts (times : List Int) (start stop duration : Int) : List Int :=
  (Grid.points start stop duration).filter fun point => point ∉ times

/-- `_missing_intervals` of the missing points -/
def missingIntervals (starts : List Int) (stop duration : Int) : List (Int × Int) :=
  starts.map fun point => (point, min (point + duration) stop)

/-- The loop over the ordered intervals behind the current one. -/
def coalesceFrom (current : Int × Int) : List (Int × Int) → List (Int × Int)
  | [] => [current]
  | next :: rest =>
      if next.1 ≤ current.2 then coalesceFrom (current.1, max current.2 next.2) rest
      else current :: coalesceFrom next rest

def coalesceIntervals (intervals : List (Int × Int)) : List (Int × Int) :=
  match intervals.insertionSort (fun left right => toLex left ≤ toLex right) with
  | [] => []
  | first :: rest => coalesceFrom first rest

section Coalesce

variable {duration start stop : Int} {starts : List Int}

/-- The order in which a set yields its intervals does not matter. -/
theorem coalesceIntervals_perm {intervals others : List (Int × Int)} (same : intervals.Perm others) :
    coalesceIntervals intervals = coalesceIntervals others := by
  have sorted : intervals.insertionSort (fun left right => toLex left ≤ toLex right) =
      others.insertionSort (fun left right => toLex left ≤ toLex right) := by
    apply List.Perm.eq_of_pairwise _ (List.pairwise_insertionSort _ intervals)
      (List.pairwise_insertionSort _ others)
    · exact (List.perm_insertionSort _ intervals).trans (same.trans (List.perm_insertionSort _ others).symm)
    · intro left right _ _ before after
      exact toLex.injective (le_antisymm before after)
  rw [coalesceIntervals, coalesceIntervals, sorted]

/-- Points of one grid in ascending order, with the intervals that they open. -/
structure GridPoints (duration stop : Int) (origin : Int) (points : List Int) : Prop where
  ascending : points.Pairwise (· < ·)
  aligned : ∀ point ∈ points, (point - origin) % duration = 0
  before : ∀ point ∈ points, origin < point ∧ point < stop

/-- Intervals one behind the other with gaps between them. -/
structure Apart (intervals : List (Int × Int)) : Prop where
  nonempty : ∀ interval ∈ intervals, interval.1 < interval.2
  gaps : intervals.Pairwise fun left right => left.2 < right.1

/-- The points of an interval that ends with the step of its last one. -/
theorem points_until (positive : 0 < duration) {first last : Int}
    (aligned : (last - first) % duration = 0) (inside : last < stop) {point : Int} :
    point ∈ Grid.points first (min (last + duration) stop) duration ↔
      first ≤ point ∧ point ≤ last ∧ (point - first) % duration = 0 := by
  rw [Grid.mem_points_iff positive]
  constructor
  · rintro ⟨after, before, grid⟩
    refine ⟨after, ?_, grid⟩
    by_contra beyond
    have step : duration ≤ point - last := by
      apply Int.le_of_dvd (by omega)
      have difference : point - last = (point - first) - (last - first) := by omega
      rw [difference]
      exact Int.dvd_sub (Int.dvd_of_emod_eq_zero grid) (Int.dvd_of_emod_eq_zero aligned)
    omega
  · rintro ⟨after, before, grid⟩
    exact ⟨after, by omega, grid⟩

/-- The intervals behind the current one are apart, and they have the points of the list. -/
theorem coalesceFrom_spec (positive : 0 < duration) {first last : Int} (ordered : first ≤ last)
    (aligned : (last - first) % duration = 0) (inside : last < stop)
    (grid : GridPoints duration stop last starts) :
    Apart (coalesceFrom (first, min (last + duration) stop) (missingIntervals starts stop duration)) ∧
    (∀ interval ∈ coalesceFrom (first, min (last + duration) stop)
      (missingIntervals starts stop duration), first ≤ interval.1 ∧ interval.2 ≤ stop) ∧
    (coalesceFrom (first, min (last + duration) stop) (missingIntervals starts stop duration)).flatMap
        (fun interval => Grid.points interval.1 interval.2 duration) =
      Grid.points first (min (last + duration) stop) duration ++ starts := by
  induction starts generalizing first last with
  | nil =>
      refine ⟨⟨?_, List.pairwise_singleton _ _⟩, ?_, ?_⟩
      · intro interval member
        rw [List.mem_singleton.mp member]
        change first < min (last + duration) stop
        omega
      · intro interval member
        rw [List.mem_singleton.mp member]
        exact ⟨le_refl first, min_le_right _ _⟩
      · simp [missingIntervals, coalesceFrom]
  | cons next starts ih =>
      have bounds := grid.before next List.mem_cons_self
      have steps := grid.aligned next List.mem_cons_self
      have later : GridPoints duration stop next starts := by
        refine ⟨grid.ascending.of_cons, ?_, ?_⟩
        · intro point member
          have difference : point - next = (point - last) - (next - last) := by omega
          rw [difference]
          exact Int.emod_eq_zero_of_dvd (Int.dvd_sub
            (Int.dvd_of_emod_eq_zero (grid.aligned point (List.mem_cons_of_mem _ member)))
            (Int.dvd_of_emod_eq_zero steps))
        · intro point member
          exact ⟨List.rel_of_pairwise_cons grid.ascending member,
            (grid.before point (List.mem_cons_of_mem _ member)).2⟩
      have far : duration ≤ next - last :=
        Int.le_of_dvd (by omega) (Int.dvd_of_emod_eq_zero steps)
      have unfolded : coalesceFrom (first, min (last + duration) stop)
          (missingIntervals (next :: starts) stop duration) =
          if next ≤ min (last + duration) stop then
            coalesceFrom (first, max (min (last + duration) stop) (min (next + duration) stop))
              (missingIntervals starts stop duration)
          else (first, min (last + duration) stop) ::
            coalesceFrom (next, min (next + duration) stop) (missingIntervals starts stop duration) := rfl
      rw [unfolded]
      split
      · rename_i joined
        have wider : max (min (last + duration) stop) (min (next + duration) stop) =
            min (next + duration) stop := by omega
        have whole : (next - first) % duration = 0 := by
          have sum : next - first = (next - last) + (last - first) := by omega
          rw [sum]
          exact Int.emod_eq_zero_of_dvd (Int.dvd_add (Int.dvd_of_emod_eq_zero steps)
            (Int.dvd_of_emod_eq_zero aligned))
        obtain ⟨apart, starting, points⟩ := ih (by omega) whole bounds.2 later
        rw [wider]
        refine ⟨apart, starting, ?_⟩
        have longer : Grid.points first (min (next + duration) stop) duration =
            Grid.points first (min (last + duration) stop) duration ++ [next] := by
          apply Grid.eq_of_mem_iff (Grid.points_sorted positive)
          · rw [List.pairwise_append]
            refine ⟨Grid.points_sorted positive, List.pairwise_singleton _ _, ?_⟩
            intro point member other same
            have until_last := (points_until positive aligned inside).mp member
            rw [List.mem_singleton.mp same]
            omega
          · intro point
            rw [points_until positive whole bounds.2, List.mem_append,
              points_until positive aligned inside, List.mem_singleton]
            constructor
            · rintro ⟨after, before, grid⟩
              by_cases early : point ≤ last
              · exact .inl ⟨after, early, grid⟩
              · right
                have step : duration ≤ point - last := by
                  apply Int.le_of_dvd (by omega)
                  have difference : point - last = (point - first) - (last - first) := by omega
                  rw [difference]
                  exact Int.dvd_sub (Int.dvd_of_emod_eq_zero grid) (Int.dvd_of_emod_eq_zero aligned)
                omega
            · rintro (⟨after, before, grid⟩ | rfl)
              · exact ⟨after, by omega, grid⟩
              · exact ⟨by omega, le_refl _, whole⟩
        rw [points, longer, List.append_assoc]
        rfl
      · rename_i behind
        obtain ⟨apart, starting, points⟩ := ih (le_refl next) (by simp) bounds.2 later
        refine ⟨⟨?_, ?_⟩, ?_, ?_⟩
        · intro interval member
          rcases List.mem_cons.mp member with rfl | rest
          · change first < min (last + duration) stop
            omega
          · exact apart.nonempty interval rest
        · rw [List.pairwise_cons]
          refine ⟨?_, apart.gaps⟩
          intro interval member
          have after := (starting interval member).1
          change min (last + duration) stop < interval.1
          omega
        · intro interval member
          rcases List.mem_cons.mp member with rfl | rest
          · exact ⟨le_refl first, min_le_right _ _⟩
          · have after := starting interval rest
            exact ⟨by omega, after.2⟩
        · have single : Grid.points next (min (next + duration) stop) duration = [next] := by
            apply Grid.eq_of_mem_iff (Grid.points_sorted positive) (List.pairwise_singleton _ _)
            intro point
            rw [points_until positive (by simp) bounds.2, List.mem_singleton]
            constructor
            · intro both
              omega
            · rintro rfl
              simp
          rw [List.flatMap_cons, points, single]
          rfl

theorem mem_missingStarts (positive : 0 < duration) {times : List Int} {point : Int} :
    point ∈ missingStarts times start stop duration ↔
      (start ≤ point ∧ point < stop ∧ (point - start) % duration = 0) ∧ point ∉ times := by
  rw [missingStarts, List.mem_filter, Grid.mem_points_iff positive, decide_eq_true_eq]

/-- The coalesced intervals are apart, they lie in the range, and their points are the missing ones,
whatever the order of the set. -/
theorem coalesce_missing (positive : 0 < duration) {times : List Int}
    (order : starts.Perm (missingStarts times start stop duration)) :
    Apart (coalesceIntervals (missingIntervals starts stop duration)) ∧
      (∀ interval ∈ coalesceIntervals (missingIntervals starts stop duration),
        start ≤ interval.1 ∧ interval.2 ≤ stop) ∧
      (coalesceIntervals (missingIntervals starts stop duration)).flatMap
          (fun interval => Grid.points interval.1 interval.2 duration) =
        missingStarts times start stop duration := by
  have same : coalesceIntervals (missingIntervals starts stop duration) =
      coalesceIntervals (missingIntervals (missingStarts times start stop duration) stop duration) :=
    coalesceIntervals_perm (order.map _)
  rw [same]
  have ascending : (missingStarts times start stop duration).Pairwise (· < ·) :=
    (Grid.points_sorted positive).sublist List.filter_sublist
  have known (point : Int) (member : point ∈ missingStarts times start stop duration) :=
    ((mem_missingStarts positive).mp member).1
  generalize missingStarts times start stop duration = missing at *
  have sorted : (missingIntervals missing stop duration).insertionSort
      (fun left right => toLex left ≤ toLex right) = missingIntervals missing stop duration := by
    apply List.Pairwise.insertionSort_eq
    rw [missingIntervals, List.pairwise_map]
    apply ascending.imp
    intro left right before
    exact Prod.Lex.toLex_le_toLex.mpr (.inl before)
  rw [coalesceIntervals, sorted]
  cases missing with
  | nil => exact ⟨⟨by simp [missingIntervals], by simp [missingIntervals]⟩, by simp [missingIntervals], rfl⟩
  | cons first rest =>
      have bounds := known first List.mem_cons_self
      have grid : GridPoints duration stop first rest := by
        refine ⟨ascending.of_cons, ?_, ?_⟩
        · intro point member
          have aligned := (known point (List.mem_cons_of_mem _ member)).2.2
          have difference : point - first = (point - start) - (first - start) := by omega
          rw [difference]
          exact Int.emod_eq_zero_of_dvd (Int.dvd_sub (Int.dvd_of_emod_eq_zero aligned)
            (Int.dvd_of_emod_eq_zero bounds.2.2))
        · intro point member
          exact ⟨List.rel_of_pairwise_cons ascending member,
            (known point (List.mem_cons_of_mem _ member)).2.1⟩
      obtain ⟨apart, inside, points⟩ :=
        coalesceFrom_spec positive (le_refl first) (by simp) bounds.2.1 grid
      have single : Grid.points first (min (first + duration) stop) duration = [first] := by
        apply Grid.eq_of_mem_iff (Grid.points_sorted positive) (List.pairwise_singleton _ _)
        intro point
        rw [points_until positive (by simp) bounds.2.1, List.mem_singleton]
        constructor
        · intro both
          omega
        · rintro rfl
          simp
      rw [single] at points
      refine ⟨apart, ?_, points⟩
      intro interval member
      have limits := inside interval member
      exact ⟨by omega, limits.2⟩

end Coalesce

section Fill

variable [PyText] {F : Type} [PyFloat F] (D : Type) [PyDecimal D] [DecimalFloat D F]

omit [PyText] [PyFloat F] in
/-- `_archive_covers_intervals` of the times of the bars -/
def archiveCoversIntervals (times : List Int) (intervals : List (Int × Int)) (duration : Int) : Bool :=
  let expected := intervals.flatMap fun interval => Grid.points interval.1 interval.2 duration
  !expected.isEmpty && expected.all fun point => times.contains point

/-- The monthly files of the intervals, unless there are too many of them. -/
def loadMonthlyBars (files : ArchiveFiles) (symbol market timeframe : String) (start stop : Int)
    (missing : List (Int × Int)) : Except PyError (List (MarketBar F)) := do
  let months ← monthsForIntervals missing
  if maxMonthlyArchiveMonths < months.length then return []
  else loadFiles D files.monthly months symbol market timeframe start stop

/-- `_load_archive_bars` -/
def loadArchiveBars (files : ArchiveFiles) (symbol market timeframe : String) (duration start stop : Int)
    (missing : List (Int × Int)) : Except PyError (List (MarketBar F)) := do
  let days ← daysForIntervals missing
  if maxDailyArchiveDays < days.length then
    loadMonthlyBars D files symbol market timeframe start stop missing
  else do
    let bars ← loadFiles D files.daily days symbol market timeframe start stop
    if archiveCoversIntervals (bars.map fun bar => bar.time) missing duration then return bars
    else loadMonthlyBars D files symbol market timeframe start stop missing

/-- The bars behind the check of the range; only missing points take bars of the archive. -/
def fillRange (files : ArchiveFiles) (bars : List (MarketBar F)) (symbol market timeframe : String)
    (start stop : Int) : Except PyError (List (MarketBar F)) := do
  let duration ← timeframeMs timeframe
  if archiveMarketPath market = none then return dedupeSorted bars
  else if duration = 0 then .error (.valueError "range() arg 3 must not be zero")
  else
    let wanted := missingStarts (bars.map fun bar => bar.time) start stop duration
    let missing := coalesceIntervals (missingIntervals wanted stop duration)
    if missing = [] then return dedupeSorted bars
    else do
      let archive ← loadArchiveBars D files symbol market timeframe duration start stop missing
      return dedupeSorted (bars ++ archive.filter fun bar => bar.time ∈ wanted)

def fillBinanceArchiveGaps (files : ArchiveFiles) (bars : List (MarketBar F))
    (symbol market timeframe : String) (start stop : Option Int) : Except PyError (List (MarketBar F)) :=
  match start, stop with
  | some start, some stop =>
      if bars = [] then .ok [] else fillRange D files bars symbol market timeframe start stop
  | _, _ => .ok (dedupeSorted bars)

/-- The bars ascend, they hold the given ones, and each other one is at a missing point. -/
structure OnlyFillsGaps (bars filled : List (MarketBar F)) (start stop : Option Int) (duration : Int) :
    Prop where
  ascending : filled.Pairwise (·.time < ·.time)
  keeps : ∀ bar ∈ bars, bar ∈ filled
  added : ∀ bar ∈ filled, bar ∈ bars ∨ ∃ first last, start = some first ∧ stop = some last ∧
    bar.time ∈ Grid.points first last duration ∧ ∀ known ∈ bars, known.time ≠ bar.time

variable {D} {files : ArchiveFiles} {bars filled : List (MarketBar F)} {symbol market timeframe : String}
  {start stop : Int} {duration : Int}

omit [PyText] [PyFloat F] in
/-- Bars of new times leave the given ones as they are. -/
theorem onlyFillsGaps_dedupe (unique : (bars.map fun bar => bar.time).Nodup) {more : List (MarketBar F)}
    {first last : Option Int}
    (fresh : ∀ bar ∈ more, ∃ low high, first = some low ∧ last = some high ∧
      bar.time ∈ Grid.points low high duration ∧ ∀ known ∈ bars, known.time ≠ bar.time) :
    OnlyFillsGaps bars (dedupeSorted (bars ++ more)) first last duration where
  ascending := Keyed.byKey_sorted
  keeps := by
    intro bar member
    have absent : Keyed.find (fun bar : MarketBar F => bar.time) more.reverse bar.time = none := by
      rw [Keyed.find_eq_none_iff]
      intro other new same
      obtain ⟨-, -, -, -, -, apart⟩ := fresh other (List.mem_reverse.mp new)
      exact apart bar member same.symm
    have reversed : (bars.reverse.map fun bar => bar.time).Nodup := by
      rw [List.map_reverse, List.nodup_reverse]
      exact unique
    have own := (Keyed.find_eq_some_iff reversed).mpr ⟨List.mem_reverse.mpr member, rfl⟩
    apply @Keyed.mem_of_find _ _ _ (fun bar : MarketBar F => bar.time) _ _ bar.time
    rw [dedupeSorted, Keyed.find_byKey, List.reverse_append, Keyed.find_append, absent, own, Option.none_or]
  added := by
    intro bar member
    rcases List.mem_append.mp (Keyed.mem_byKey member) with given | new
    · exact .inl given
    · exact .inr (fresh bar new)

/-- A nonempty range lies in the years of `datetime`, and it ends before their last month. -/
def ArchiveRange (start stop : Option Int) : Prop :=
  ∀ first last, start = some first → stop = some last → first < last →
    DatetimeInterval (first, last) ∧ monthOfTime (last - 1) ≠ lastMonth

/-- Every content of an archive can be loaded. -/
theorem loadFiles_returns {Period : Type} (file : Period → Option (List (List String)))
    (periods : List Period) {interval : String} (spelled : toBinanceInterval timeframe = .ok interval)
    (known : timeframeMs timeframe = .ok duration) :
    ∃ loaded : List (MarketBar F),
      loadFiles D file periods symbol market timeframe start stop = .ok loaded := by
  obtain ⟨loaded, mapped⟩ : ∃ loaded : List (List (MarketBar F)), periods.mapM (fun period =>
      loadArchiveFile D (file period) symbol market timeframe start stop) = .ok loaded := by
    apply mapM_ok
    intro period _
    simp only [loadArchiveFile, spelled, ok_bind]
    cases file period with
    | none => exact ⟨[], rfl⟩
    | some rows =>
        simp only [known, ok_bind]
        cases folded : rows.foldlM (addArchiveRow (F := F) D symbol market timeframe duration start stop) []
          with
        | error error =>
            exact ⟨[], rfl⟩
        | ok byTime =>
            exact ⟨sortByTime byTime, rfl⟩
  exact ⟨loaded.flatten, by simp only [loadFiles, mapped, ok_bind]; rfl⟩

omit [PyText] in
/-- The months of intervals before the last month can be listed. -/
theorem monthsForIntervals_returns {intervals : List (Int × Int)}
    (inside : ∀ interval ∈ intervals, DatetimeInterval interval)
    (early : ∀ interval ∈ intervals, monthOfTime (interval.2 - 1) < lastMonth) :
    ∃ months, monthsForIntervals intervals = .ok months := by
  obtain ⟨months, mapped⟩ := mapM_ok fun interval member => by
    have unreached : ¬ ReachesMonth interval lastMonth := by
      have before := early interval member
      rintro ⟨-, later | ⟨same, -⟩⟩
      · omega
      · omega
    obtain ⟨months, listed, -⟩ := (monthsForInterval_spec (inside interval member)).1 unreached
    exact ⟨months, listed⟩
  exact ⟨sortedMonths months.flatten, by simp only [monthsForIntervals, mapped, ok_bind]; rfl⟩

omit [PyText] in
theorem daysForIntervals_returns {intervals : List (Int × Int)}
    (inside : ∀ interval ∈ intervals, DatetimeInterval interval) :
    ∃ days, daysForIntervals intervals = .ok days := by
  obtain ⟨days, mapped⟩ := mapM_ok fun interval member => by
    obtain ⟨days, listed, -⟩ := daysForInterval_spec (inside interval member)
    exact ⟨days, listed⟩
  exact ⟨sortedDays days.flatten, by simp only [daysForIntervals, mapped, ok_bind]; rfl⟩

theorem loadArchiveBars_returns {interval : String} {missing : List (Int × Int)}
    (spelled : toBinanceInterval timeframe = .ok interval) (known : timeframeMs timeframe = .ok duration)
    (inside : ∀ interval ∈ missing, DatetimeInterval interval)
    (early : ∀ interval ∈ missing, monthOfTime (interval.2 - 1) < lastMonth) :
    ∃ loaded : List (MarketBar F),
      loadArchiveBars D files symbol market timeframe duration start stop missing = .ok loaded := by
  have monthly : ∃ loaded : List (MarketBar F),
      loadMonthlyBars D files symbol market timeframe start stop missing = .ok loaded := by
    obtain ⟨months, listed⟩ := monthsForIntervals_returns inside early
    rw [loadMonthlyBars, listed, ok_bind]
    split
    · exact ⟨[], rfl⟩
    · exact loadFiles_returns files.monthly months spelled known
  obtain ⟨days, listed⟩ := daysForIntervals_returns inside
  obtain ⟨daily, loaded⟩ : ∃ loaded : List (MarketBar F),
      loadFiles D files.daily days symbol market timeframe start stop = .ok loaded :=
    loadFiles_returns files.daily days spelled known
  rw [loadArchiveBars, listed, ok_bind]
  split
  · exact monthly
  · rw [loaded, ok_bind]
    split
    · exact ⟨daily, rfl⟩
    · exact monthly

/-- The missing intervals of a range lie in it. -/
theorem fillRange_returns {interval : String} (spelled : toBinanceInterval timeframe = .ok interval)
    (known : timeframeMs timeframe = .ok duration) (positive : 0 < duration)
    (range : ArchiveRange (some start) (some stop)) :
    ∃ filled : List (MarketBar F),
      fillRange D files bars symbol market timeframe start stop = .ok filled := by
  rw [fillRange, known, ok_bind, if_neg positive.ne']
  obtain ⟨apart, within, -⟩ := coalesce_missing positive
    (List.Perm.refl (missingStarts (bars.map fun bar => bar.time) start stop duration))
  generalize missingStarts (bars.map fun bar => bar.time) start stop duration = wanted at *
  simp only
  generalize coalesceIntervals (missingIntervals wanted stop duration) = missing at *
  split
  · exact ⟨_, rfl⟩
  · split
    · exact ⟨_, rfl⟩
    · have bounds (interval : Int × Int) (member : interval ∈ missing) :
          DatetimeInterval interval ∧ monthOfTime (interval.2 - 1) < lastMonth := by
        have nonempty := apart.nonempty interval member
        have limits := within interval member
        obtain ⟨whole, before⟩ := range start stop rfl rfl (by omega)
        have first := whole.start
        have last := whole.year
        simp only [datetimeRange, Bool.and_eq_true, decide_eq_true_eq] at first last
        refine ⟨⟨?_, nonempty, ?_⟩, ?_⟩
        · simp only [datetimeRange, Bool.and_eq_true, decide_eq_true_eq]
          omega
        · simp only [datetimeRange, Bool.and_eq_true, decide_eq_true_eq]
          omega
        · have bound : monthOfTime (stop - 1) ≤ 119999 := monthOfTime_le whole.year
          have month : monthOfTime (interval.2 - 1) ≤ monthOfTime (stop - 1) := by
            apply monthOfDay_steps.monotone
            exact Int.ediv_le_ediv (by decide) (by omega)
          rw [lastMonth] at *
          omega
      obtain ⟨archive, loaded⟩ : ∃ loaded : List (MarketBar F),
          loadArchiveBars D files symbol market timeframe duration start stop missing = .ok loaded :=
        loadArchiveBars_returns spelled known (fun interval member => (bounds interval member).1)
          fun interval member => (bounds interval member).2
      rw [loaded, ok_bind]
      exact ⟨_, rfl⟩

/-- Only missing points take bars of the archive. -/
theorem fillRange_spec (known : timeframeMs timeframe = .ok duration)
    (unchanged : dedupeSorted bars = filled → OnlyFillsGaps bars filled (some start) (some stop) duration)
    (unique : (bars.map fun bar => bar.time).Nodup)
    (returned : fillRange D files bars symbol market timeframe start stop = .ok filled) :
    OnlyFillsGaps bars filled (some start) (some stop) duration := by
  rw [fillRange, known, ok_bind] at returned
  split at returned
  · exact unchanged (Except.ok.inj returned)
  · split at returned
    · cases returned
    · simp only at returned
      split at returned
      · exact unchanged (Except.ok.inj returned)
      · obtain ⟨archive, -, rest⟩ := bind_eq_ok.mp returned
        rw [← Except.ok.inj rest]
        apply onlyFillsGaps_dedupe unique
        intro bar member
        have wanted := of_decide_eq_true (List.mem_filter.mp member).2
        rw [missingStarts, List.mem_filter, decide_eq_true_eq] at wanted
        refine ⟨start, stop, rfl, rfl, wanted.1, ?_⟩
        intro other inside same
        exact wanted.2 (List.mem_map.mpr ⟨other, inside, same⟩)

/-- Whatever the archive holds, a fill that returns leaves the given bars as they are. -/
theorem fillBinanceArchiveGaps_spec {first last : Option Int}
    (known : timeframeMs timeframe = .ok duration)
    (unique : (bars.map fun bar => bar.time).Nodup)
    (returned : fillBinanceArchiveGaps D files bars symbol market timeframe first last = .ok filled) :
    OnlyFillsGaps bars filled first last duration := by
  have unchanged (same : dedupeSorted bars = filled) : OnlyFillsGaps bars filled first last duration := by
    have plain : OnlyFillsGaps bars (dedupeSorted (bars ++ [])) first last duration :=
      onlyFillsGaps_dedupe unique fun bar member => by cases member
    rw [List.append_nil, same] at plain
    exact plain
  cases first with
  | none => exact unchanged (Except.ok.inj returned)
  | some start =>
      cases last with
      | none => exact unchanged (Except.ok.inj returned)
      | some stop =>
          simp only [fillBinanceArchiveGaps] at returned
          split at returned
          · rename_i empty
            subst empty
            exact unchanged (Except.ok.inj returned)
          · exact fillRange_spec known unchanged unique returned

/-- Filling only fills gaps; it returns for the intervals of Binance. The coalesced intervals split the
missing points of every range into pieces with gaps between them. -/
theorem archive_only_fills_gaps (known : timeframeMs timeframe = .ok duration) (positive : 0 < duration) :
    (∀ interval, toBinanceInterval timeframe = .ok interval →
      ∀ files (bars : List (MarketBar F)) symbol market start stop,
        (bars.map fun bar => bar.time).Nodup → ArchiveRange start stop →
          ∃ filled, fillBinanceArchiveGaps D files bars symbol market timeframe start stop = .ok filled ∧
            OnlyFillsGaps bars filled start stop duration) ∧
    (∀ files (bars : List (MarketBar F)) symbol market start stop filled,
      (bars.map fun bar => bar.time).Nodup →
        fillBinanceArchiveGaps D files bars symbol market timeframe start stop = .ok filled →
          OnlyFillsGaps bars filled start stop duration) ∧
    ∀ times start stop (starts : List Int), starts.Perm (missingStarts times start stop duration) →
      Apart (coalesceIntervals (missingIntervals starts stop duration)) ∧
        (coalesceIntervals (missingIntervals starts stop duration)).flatMap
            (fun interval => Grid.points interval.1 interval.2 duration) =
          missingStarts times start stop duration := by
  refine ⟨?_, ?_, ?_⟩
  · intro interval spelled files bars symbol market start stop unique range
    have returns : ∃ filled,
        fillBinanceArchiveGaps D files bars symbol market timeframe start stop = .ok filled := by
      cases start with
      | none => exact ⟨_, rfl⟩
      | some first =>
          cases stop with
          | none => exact ⟨_, rfl⟩
          | some last =>
              simp only [fillBinanceArchiveGaps]
              split
              · exact ⟨_, rfl⟩
              · exact fillRange_returns spelled known positive range
    obtain ⟨filled, returned⟩ := returns
    exact ⟨filled, returned, fillBinanceArchiveGaps_spec known unique returned⟩
  · intro files bars symbol market start stop filled unique returned
    exact fillBinanceArchiveGaps_spec known unique returned
  · intro times start stop starts order
    obtain ⟨apart, -, points⟩ := coalesce_missing positive order
    exact ⟨apart, points⟩

end Fill

end MarketdataProvider

namespace MarketdataProvider

open Foundation Reference
open scoped Reference

theorem archive_only_fills_gaps_hours :
    (∀ interval, toBinanceInterval "1h" = .ok interval →
      ∀ files (bars : List (MarketBar Whole)) symbol market start stop,
        (bars.map fun bar => bar.time).Nodup → ArchiveRange start stop →
          ∃ filled, fillBinanceArchiveGaps Whole files bars symbol market "1h" start stop = .ok filled ∧
            OnlyFillsGaps bars filled start stop 3600000) ∧
    (∀ files (bars : List (MarketBar Whole)) symbol market start stop filled,
      (bars.map fun bar => bar.time).Nodup →
        fillBinanceArchiveGaps Whole files bars symbol market "1h" start stop = .ok filled →
          OnlyFillsGaps bars filled start stop 3600000) ∧
    ∀ times start stop (starts : List Int), starts.Perm (missingStarts times start stop 3600000) →
      Apart (coalesceIntervals (missingIntervals starts stop 3600000)) ∧
        (coalesceIntervals (missingIntervals starts stop 3600000)).flatMap
            (fun interval => Grid.points interval.1 interval.2 3600000) =
          missingStarts times start stop 3600000 :=
  archive_only_fills_gaps hour_duration (by decide)

/-- Seven minutes are a fixed duration, but Binance has no such interval. -/
theorem seven_minute_gap_refused :
    timeframeMs "7m" = .ok 420000 ∧ ([candle 0].map fun bar => bar.time).Nodup ∧
      ArchiveRange (some 0) (some 840000) ∧
      ∀ filled : List (MarketBar Whole), fillBinanceArchiveGaps Whole overlappingDays [candle 0] "BTCUSDT"
        "spot" "7m" (some 0) (some 840000) ≠ .ok filled := by
  refine ⟨eq_ok_of_toOption (by decide +kernel), by decide, ?_, ?_⟩
  · intro first last low high _
    cases low
    cases high
    exact ⟨⟨by decide, by decide, by decide⟩, by decide +kernel⟩
  · have refused : (fillBinanceArchiveGaps (F := Whole) Whole overlappingDays [candle 0] "BTCUSDT" "spot"
        "7m" (some 0) (some 840000)).toOption = none := by decide +kernel
    intro filled returned
    rw [returned] at refused
    cases refused

end MarketdataProvider
