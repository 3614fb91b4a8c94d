import MarketdataProvider.Contracts.Footprint
import MarketdataProvider.Exchanges.PageCursor
import MarketdataProvider.Service.CandleAdapter
import MarketdataProvider.Service.MarketDataService
import MarketdataProvider.Service.OneGrid
import MarketdataProvider.Store.PlainRows

namespace MarketdataProvider

open Foundation

section Row

variable {duration start stop finish : Int} {times : List Int}

/-- The points of a row from its start. -/
def rowFrom (start duration : Int) (count : Nat) : List Int :=
  (List.range count).map fun index : Nat => start + index * duration

theorem rowFrom_succ (count : Nat) :
    rowFrom start duration (count + 1) = start :: rowFrom (start + duration) duration count := by
  rw [rowFrom, List.range_succ_eq_map, List.map_cons, List.map_map, rowFrom]
  congr 1
  · simp
  · apply List.map_congr_left
    intro index _
    simp only [Function.comp_apply, Nat.succ_eq_add_one, Int.natCast_add, Int.natCast_one, Int.add_mul]
    omega

theorem mem_rowFrom {count : Nat} {time : Int} :
    time ∈ rowFrom start duration count ↔ ∃ index : Nat, index < count ∧ time = start + index * duration := by
  simp only [rowFrom, List.mem_map, List.mem_range]
  exact ⟨fun ⟨index, below, same⟩ => ⟨index, below, same.symm⟩,
    fun ⟨index, below, same⟩ => ⟨index, below, same.symm⟩⟩

/-- A row without a missing point is told by its length. -/
theorem endOfRow_eq_some : endOfRow duration start times = some finish ↔
    times = rowFrom start duration times.length ∧ finish = start + times.length * duration := by
  induction times generalizing start with
  | nil => simp [endOfRow, rowFrom, eq_comm]
  | cons time times ih =>
      rw [endOfRow, List.length_cons, rowFrom_succ]
      split
      · rename_i same
        subst same
        rw [ih, List.cons_eq_cons]
        have split : time + ((times.length + 1 : Nat) : Int) * duration =
            time + duration + times.length * duration := by
          rw [Int.natCast_add, Int.natCast_one, Int.add_mul]
          omega
        rw [split]
        exact ⟨fun both => ⟨⟨rfl, both.1⟩, both.2⟩, fun both => ⟨both.1.2, both.2⟩⟩
      · rename_i different
        constructor
        · intro found
          cases found
        · rintro ⟨same, -⟩
          exact absurd (List.cons.inj same).1 different

/-- A scan reaches the end of a range exactly when it finds the points of the range and no other time. -/
theorem scan_iff (positive : 0 < duration) (sorted : times.Pairwise (· < ·))
    (inside : ∀ time ∈ times, start ≤ time ∧ time < stop) :
    (endOfRow duration start times).any (stop ≤ ·) = true ↔ times = Grid.points start stop duration := by
  rw [Option.any_eq_true]
  constructor
  · rintro ⟨finish, found, reached⟩
    obtain ⟨row, ends⟩ := endOfRow_eq_some.mp found
    have enough : stop ≤ start + times.length * duration := ends ▸ of_decide_eq_true reached
    apply Grid.eq_of_mem_iff sorted (Grid.points_sorted positive)
    intro time
    rw [Grid.mem_points_iff positive]
    constructor
    · intro member
      obtain ⟨after, before⟩ := inside time member
      rw [row, mem_rowFrom] at member
      obtain ⟨index, -, rfl⟩ := member
      refine ⟨after, before, ?_⟩
      rw [show start + (index : Int) * duration - start = index * duration by omega]
      exact Int.mul_emod_left _ _
    · rintro ⟨after, before, aligned⟩
      obtain ⟨count, product⟩ := Int.dvd_of_emod_eq_zero aligned
      rw [Int.mul_comm] at product
      have nonneg : 0 ≤ count := by
        by_contra negative
        have := Int.mul_le_mul_of_nonneg_right (show count ≤ -1 by omega) positive.le
        omega
      have below : count < times.length := by
        by_contra beyond
        have := Int.mul_le_mul_of_nonneg_right (not_lt.mp beyond) positive.le
        omega
      rw [row, mem_rowFrom]
      refine ⟨count.toNat, by omega, ?_⟩
      rw [Int.toNat_of_nonneg nonneg]
      omega
  · intro same
    refine ⟨start + times.length * duration, endOfRow_eq_some.mpr ⟨?_, rfl⟩, ?_⟩
    · rw [same, Grid.points, List.length_map, List.length_range]
      rfl
    · rw [same, Grid.points, List.length_map, List.length_range, decide_eq_true_eq]
      have split := Int.mul_ediv_add_emod (stop - start + duration - 1) duration
      have rest := Int.emod_lt_of_pos (stop - start + duration - 1) positive
      rw [Int.mul_comm] at split
      have reach : stop - start ≤ (stop - start + duration - 1) / duration * duration := by omega
      have atMost : (stop - start + duration - 1) / duration ≤
          ((stop - start + duration - 1) / duration).toNat := Int.self_le_toNat _
      have scaled := Int.mul_le_mul_of_nonneg_right atMost positive.le
      omega

end Row

section Range

variable [PyText] {F : Type} [PyFloat F] {stored : Option (ClosedSeries F)} {start stop : Int} {bar : MarketBar F}

theorem sorted_rangeOf : (rangeOf stored (some start) (some stop)).Pairwise (·.time < ·.time) := by
  cases stored with
  | none => exact List.Pairwise.nil
  | some series => exact series.sorted.filter _

theorem mem_rangeOf (member : bar ∈ rangeOf stored (some start) (some stop)) :
    start ≤ bar.time ∧ bar.time < stop := by
  cases stored with
  | none => cases member
  | some series =>
      have inside := (List.mem_filter.mp member).2
      simpa [inRange] using inside

end Range

section Agree

variable [PyText] {F : Type} [PyFloat F] {query : BarQuery} {duration : Int} {bars : List (MarketBar F)}
  {series : BarSeries F} {made : List (ContractBar F)}

/-- Every point of the query is a time of the bars. -/
def CoversGrid (query : BarQuery) (duration : Int) (times : List Int) : Prop :=
  ∀ time ∈ Grid.points query.startMs query.endMs duration, time ∈ times

omit [PyFloat F] in
theorem coverageComplete_iff (bars : List (MarketBar F)) (known : query.timeframe.durationMs = some duration) (positive : 0 < duration) :
    ∃ complete, coverageComplete bars query = .ok complete ∧
      (complete = true ↔ CoversGrid query duration (bars.map fun bar => bar.time)) := by
  refine ⟨(Grid.points query.startMs query.endMs duration).all (· ∈ bars.map fun bar => bar.time), ?_, ?_⟩
  · rw [coverageComplete, known]
    dsimp only
    rw [pyRange, if_neg (Int.ne_of_gt positive)]
    rfl
  · simp [CoversGrid]

omit [PyText] in
theorem repeatedTimes_of_nodup {times : List Int} (distinct : times.Nodup) : repeatedTimes times = [] := by
  have once : times.filter (fun time => 1 < times.count time) = [] := by
    rw [List.filter_eq_nil_iff]
    intro time _ often
    have := List.nodup_iff_count_le_one.mp distinct time
    have := of_decide_eq_true often
    omega
  rw [repeatedTimes, once]
  rfl

omit [PyText] in
theorem coverageStatus_self {times : List Int} {missing : List (Int × Int)} (distinct : times.Nodup) :
    coverageStatus times times missing = if missing = [] then .valid else .gap := by
  rw [coverageStatus, repeatedTimes_of_nodup distinct, if_neg (not_not.mpr rfl), if_neg (not_not.mpr rfl),
    ite_not]

/-- The start of a query is a point of it. -/
theorem start_mem_points (query : BarQuery) (positive : 0 < duration) :
    query.startMs ∈ Grid.points query.startMs query.endMs duration := by
  rw [Grid.mem_points_iff positive]
  exact ⟨le_refl _, query.ordered, by simp⟩

theorem missingIntervals_eq_nil_iff (known : query.timeframe.durationMs = some duration)
    (positive : 0 < duration) {times : List Int} {missing : List (Int × Int)}
    (listed : missingIntervalsFor query times = .ok missing) :
    missing = [] ↔ CoversGrid query duration times := by
  rw [missingIntervalsFor, known] at listed
  dsimp only at listed
  rw [pyRange, if_neg (Int.ne_of_gt positive), ok_bind, pure_eq_ok] at listed
  rw [← listed, List.map_eq_nil_iff, List.filter_eq_nil_iff]
  simp [CoversGrid]

/-- The report of bars in time order is complete exactly when no point is missing. -/
theorem coverageReport_iff (known : query.timeframe.durationMs = some duration) (positive : 0 < duration)
    (sorted : made.Pairwise fun left right => left.time < right.time) {source : String} {report : CoverageReport}
    (reported : coverageReport query made source = .ok report) :
    report.isComplete = true ↔ CoversGrid query duration (made.map ContractBar.time) := by
  have inOrder : made.insertionSort (fun left right => left.time ≤ right.time) = made :=
    List.Pairwise.insertionSort_eq (sorted.imp le_of_lt)
  have distinct : (made.map ContractBar.time).Nodup := Keyed.nodup_of_sorted sorted
  unfold coverageReport at reported
  dsimp only at reported
  rw [inOrder, repeatedTimes_of_nodup distinct] at reported
  cases made with
  | nil =>
      obtain rfl := Except.ok.inj reported
      have uncovered : ¬ CoversGrid query duration (([] : List (ContractBar F)).map ContractBar.time) :=
        fun covers => absurd (covers _ (start_mem_points query positive)) (by simp)
      exact iff_of_false Bool.false_ne_true uncovered
  | cons first rest =>
      rw [List.head?_cons, List.getLast?_eq_some_getLast (List.cons_ne_nil first rest)] at reported
      obtain ⟨missing, listed, same⟩ := bind_eq_ok.mp reported
      obtain rfl := Except.ok.inj same
      rw [← missingIntervals_eq_nil_iff known positive listed]
      rw [CoverageReport.isComplete, coverageStatus_self distinct]
      by_cases whole : missing = []
      · subst whole
        exact iff_of_true rfl rfl
      · simp [whole]

omit [PyFloat F] in
/-- Times of a range are its points when all points are there and nothing else is. -/
theorem times_eq_points_iff (positive : 0 < duration) (sorted : bars.Pairwise (·.time < ·.time))
    (inside : ∀ bar ∈ bars, query.startMs ≤ bar.time ∧ bar.time < query.endMs) :
    (bars.map fun bar => bar.time) = Grid.points query.startMs query.endMs duration ↔
      CoversGrid query duration (bars.map fun bar => bar.time) ∧
        ∀ bar ∈ bars, (bar.time - query.startMs) % duration = 0 := by
  constructor
  · intro same
    refine ⟨fun time member => same ▸ member, ?_⟩
    intro bar member
    have point : bar.time ∈ Grid.points query.startMs query.endMs duration :=
      same ▸ List.mem_map_of_mem member
    exact ((Grid.mem_points_iff positive).mp point).2.2
  · rintro ⟨covers, aligned⟩
    apply Grid.eq_of_mem_iff
    · rw [List.pairwise_map]
      exact sorted
    · exact Grid.points_sorted positive
    · intro time
      refine ⟨?_, covers time⟩
      intro member
      obtain ⟨bar, found, rfl⟩ := List.mem_map.mp member
      rw [Grid.mem_points_iff positive]
      exact ⟨(inside bar found).1, (inside bar found).2, aligned bar found⟩

/-- The two tests of the bars of a query give one answer, and a scan gives it too unless all points are
there with times off the grid between them. -/
def ChecksAgree (query : BarQuery) (duration : Int) (bars : List (MarketBar F)) (series : BarSeries F)
    (scan : Bool) : Prop :=
  ∃ inclusion, coverageComplete bars query = .ok inclusion ∧ inclusion = series.coverage.isComplete ∧
    (scan = inclusion ↔ ¬ CoversGrid query duration (bars.map fun bar => bar.time) ∨
      ∀ bar ∈ bars, (bar.time - query.startMs) % duration = 0)

omit [PyFloat F] in
/-- A scan of bars of the range tells whether their times are its points. -/
theorem scanned_iff (positive : 0 < duration) (sorted : bars.Pairwise (·.time < ·.time))
    (inside : ∀ bar ∈ bars, query.startMs ≤ bar.time ∧ bar.time < query.endMs) :
    (endOfRow duration query.startMs (bars.map fun bar => bar.time)).any (query.endMs ≤ ·) = true ↔
      (bars.map fun bar => bar.time) = Grid.points query.startMs query.endMs duration := by
  apply scan_iff positive
  · rw [List.pairwise_map]
    exact sorted
  · intro time member
    obtain ⟨bar, found, rfl⟩ := List.mem_map.mp member
    exact inside bar found

theorem checksAgree (known : query.timeframe.durationMs = some duration) (positive : 0 < duration)
    (converted : seriesFromMarketBars query bars "storage" = .ok series)
    (sorted : bars.Pairwise (·.time < ·.time))
    (inside : ∀ bar ∈ bars, query.startMs ≤ bar.time ∧ bar.time < query.endMs) :
    ChecksAgree query duration bars series
      ((endOfRow duration query.startMs (bars.map fun bar => bar.time)).any (query.endMs ≤ ·)) := by
  obtain ⟨inclusion, answered, inclusionIff⟩ := coverageComplete_iff bars known positive
  obtain ⟨contractBars, mapped, more⟩ := bind_eq_ok.mp converted
  obtain ⟨coverage, reported, same⟩ := bind_eq_ok.mp more
  obtain rfl := Except.ok.inj same
  have times := times_of_contractBars mapped
  have madeSorted : contractBars.Pairwise fun left right => left.time < right.time := by
    have ascends : (bars.map fun bar => bar.time).Pairwise (· < ·) := List.pairwise_map.mpr sorted
    rwa [← times, List.pairwise_map] at ascends
  have report := coverageReport_iff known positive madeSorted reported
  rw [times, ← inclusionIff] at report
  refine ⟨inclusion, answered, (Bool.eq_iff_iff.mpr report).symm, ?_⟩
  rw [Bool.eq_iff_iff, scanned_iff positive sorted inside, inclusionIff, times_eq_points_iff positive sorted inside]
  tauto

variable [Sha256]

/-- What `_stored_bars` returns is in time order and in the range. -/
theorem inRange_of_storedBarsOf {environment : Environment F} {world after : World F}
    (read : (storedBarsOf query).run (handle environment) world = (.ok bars, after)) :
    bars.Pairwise (·.time < ·.time) ∧ ∀ bar ∈ bars, query.startMs ≤ bar.time ∧ bar.time < query.endMs := by
  rw [storedBarsOf, run_readAll] at read
  obtain ⟨stored, -, rfl⟩ := map_eq_ok.mp (Prod.ext_iff.mp read).1
  exact ⟨sorted_rangeOf, fun bar => mem_rangeOf⟩

/-- The streaming check runs over the bars that `_stored_bars` returns. -/
theorem run_storedCoverageComplete {environment : Environment F} {world after : World F}
    (known : query.timeframe.durationMs = some duration)
    (read : (storedBarsOf query).run (handle environment) world = (.ok bars, after)) :
    (storedCoverageComplete query).run (handle environment) world =
      (.ok ((endOfRow duration query.startMs (bars.map fun bar => bar.time)).any (query.endMs ≤ ·)), after) := by
  rw [storedBarsOf] at read
  rw [storedCoverageComplete, known]
  dsimp only
  rw [Calls.run_bind, read]
  rfl

variable [Parquet]

/-- `_stored_coverage_complete` on the files: the scan of what `iter_all` yields under the reader lock. -/
def storedCoverageOnDisk (F : Type) [PyFloat F] (pending : Nat → Bool) (store : SegmentStore)
    (query : BarQuery) : StoreProg Bool :=
  match query.timeframe.durationMs with
  | none => return false
  | some duration => do
      recoverSeries .seriesLock
      let bars ← iterAllLocked F pending store (some query.startMs) (some query.endMs)
      return (endOfRow duration query.startMs (bars.map fun bar => bar.time)).any (query.endMs ≤ ·)

/-- The three checks of the bars that `_stored_bars` returns give one answer unless all points are stored
with times off the grid between them: over the abstract store, and over the files of any series. -/
theorem coverage_checks_agree_iff (known : query.timeframe.durationMs = some duration) (positive : 0 < duration)
    (converted : seriesFromMarketBars query bars "storage" = .ok series) :
    (∀ (environment : Environment F) (world after : World F),
      (storedBarsOf query).run (handle environment) world = (.ok bars, after) →
        ∃ scan, (storedCoverageComplete query).run (handle environment) world = (.ok scan, after) ∧
          ChecksAgree query duration bars series scan) ∧
    ∀ (pending : Nat → Bool) (store : SegmentStore) (state : SeriesState),
      ((readRange F pending store (some query.startMs) (some query.endMs)).run state).1 = .ok bars →
        ∃ scan, ((storedCoverageOnDisk F pending store query).run state).1 = .ok scan ∧
          ChecksAgree query duration bars series scan := by
  constructor
  · intro environment world after read
    obtain ⟨sorted, inside⟩ := inRange_of_storedBarsOf read
    exact ⟨_, run_storedCoverageComplete known read, checksAgree known positive converted sorted inside⟩
  · intro pending store state read
    obtain ⟨_, after, recovered, read⟩ := Crash.Prog.run_bind_eq_ok.mp read
    obtain ⟨streams, sorted, inside⟩ := readRangeLocked_streams read
    refine ⟨_, ?_, checksAgree known positive converted sorted inside⟩
    rw [storedCoverageOnDisk, known]
    obtain ⟨found, final, iterated, rfl⟩ : ∃ found final, (iterAllLocked F pending store
        (some query.startMs) (some query.endMs)).run after = (.ok found, final) ∧ found = bars :=
      ⟨_, _, Prod.ext streams rfl, rfl⟩
    exact Crash.Prog.run_bind_eq_ok.mpr ⟨(), after, recovered, Crash.Prog.run_bind_eq_ok.mpr ⟨_, _, iterated, rfl⟩⟩

end Agree

section Periods

variable [PyText] {tf : String} {start time close duration : Int}

/-- The opens of the periods from a start, by `next_open_time_ms`. -/
inductive PeriodsFrom (tf : String) (start : Int) : Int → Prop where
  | first : PeriodsFrom tf start start
  | next {time close : Int} (opens : PeriodsFrom tf start time) (closes : closeTimeMs time tf = .ok close) :
      PeriodsFrom tf start (close + 1)

/-- The first time of its period. -/
def PeriodOpen (tf : String) (time : Int) : Prop :=
  ∃ close, closeTimeMs time tf = .ok close ∧ ∀ other, closeTimeMs other tf = .ok close → time ≤ other

/-- Days open at midnight and weeks on Monday; a fixed period opens at any time. -/
def OpensAt (canonical : String) (time : Int) : Prop :=
  (canonical = "1D" → time % dayMs = 0) ∧
    (canonical = "1W" → time % dayMs = 0 ∧ (time / dayMs + 3) % 7 = 0)

omit [PyText] in
theorem datetimeRange_iff :
    datetimeRange time = true ↔ -62135596800000 ≤ time ∧ time ≤ 253402300799999 := by
  simp only [datetimeRange, Bool.and_eq_true, decide_eq_true_eq]

variable (canonical : canonicalTimeframe tf = .ok tf)

include canonical

/-- The close of a day, of a week, or of a fixed period. -/
theorem closeTimeMs_eq (known : timeframeMs tf = .ok duration) (inside : datetimeRange time = true) :
    closeTimeMs time tf = .ok (if tf = "1D" then time / dayMs * dayMs + dayMs - 1
      else if tf = "1W" then (time / dayMs - (time / dayMs + 3) % 7) * dayMs + 7 * dayMs - 1
      else time + duration - 1) := by
  rw [closeTimeMs, canonical, ok_bind]
  dsimp only
  rw [if_neg (by simp [inside])]
  by_cases day : tf = "1D"
  · rw [if_pos day, if_pos day]
  · rw [if_neg day, if_neg day]
    by_cases week : tf = "1W"
    · rw [if_pos week, if_pos week]
    · have month : tf ≠ "1M" := by
        rintro rfl
        rw [timeframeMs, canonical] at known
        cases known
      rw [if_neg week, if_neg week, if_neg month, known]
      rfl

theorem opensAt_of_periodOpen (known : timeframeMs tf = .ok duration) (opens : PeriodOpen tf time) :
    OpensAt tf time := by
  obtain ⟨close, closes, least⟩ := opens
  have inside := inside_of_closeTimeMs canonical closes
  rw [closeTimeMs_eq canonical known inside] at closes
  have same := Except.ok.inj closes
  rw [datetimeRange_iff] at inside
  constructor
  · intro day
    rw [if_pos day] at same
    have midnight : datetimeRange (time / dayMs * dayMs) = true := by
      rw [datetimeRange_iff, dayMs]
      omega
    have first := least (time / dayMs * dayMs) (by
      rw [closeTimeMs_eq canonical known midnight, if_pos day, ← same]
      simp only [dayMs]
      congr 1
      omega)
    simp only [dayMs] at first ⊢
    omega
  · intro week
    have day : tf ≠ "1D" := by
      rw [week]
      decide
    rw [if_neg day, if_pos week] at same
    have monday : datetimeRange ((time / dayMs - (time / dayMs + 3) % 7) * dayMs) = true := by
      rw [datetimeRange_iff, dayMs]
      omega
    have first := least ((time / dayMs - (time / dayMs + 3) % 7) * dayMs) (by
      rw [closeTimeMs_eq canonical known monday, if_neg day, if_pos week, ← same]
      simp only [dayMs]
      congr 1
      omega)
    simp only [dayMs] at first ⊢
    omega

/-- A period of a fixed length follows at that length. -/
theorem next_of_opensAt (known : timeframeMs tf = .ok duration) (opens : OpensAt tf time)
    (closes : closeTimeMs time tf = .ok close) : close + 1 = time + duration ∧ OpensAt tf (close + 1) := by
  have inside := inside_of_closeTimeMs canonical closes
  rw [closeTimeMs_eq canonical known inside] at closes
  have same := Except.ok.inj closes
  have length := known
  rw [timeframeMs, canonical, ok_bind] at length
  dsimp only at length
  by_cases day : tf = "1D"
  · subst day
    rw [if_pos rfl] at same
    rw [if_pos (by decide)] at length
    obtain rfl := Except.ok.inj length
    have midnight := opens.1 rfl
    simp only [dayMs] at midnight same
    refine ⟨by omega, ?_, ?_⟩
    · intro _
      simp only [dayMs]
      omega
    · intro week
      exact absurd week (by decide)
  · rw [if_neg day] at same
    by_cases week : tf = "1W"
    · subst week
      rw [if_pos rfl] at same
      rw [if_neg (by decide), if_pos (by decide)] at length
      obtain rfl := Except.ok.inj length
      obtain ⟨midnight, monday⟩ := opens.2 rfl
      simp only [dayMs] at midnight monday same
      refine ⟨by omega, ?_, ?_⟩
      · intro day
        exact absurd day (by decide)
      · intro _
        simp only [dayMs]
        omega
    · rw [if_neg week] at same
      exact ⟨by omega, fun own => absurd own day, fun own => absurd own week⟩

/-- The periods of a fixed length are the points at that length from the first one. -/
theorem aligned_of_periodsFrom (known : timeframeMs tf = .ok duration) (positive : 0 < duration)
    (opens : OpensAt tf start) (period : PeriodsFrom tf start time) :
    (start ≤ time ∧ (time - start) % duration = 0) ∧ OpensAt tf time := by
  induction period with
  | first => exact ⟨⟨le_refl _, by simp⟩, opens⟩
  | next _ closes ih =>
      obtain ⟨⟨after, aligned⟩, opensHere⟩ := ih
      obtain ⟨follows, opensNext⟩ := next_of_opensAt canonical known opensHere closes
      refine ⟨⟨by omega, ?_⟩, opensNext⟩
      rw [follows, show ∀ time : Int, time + duration - start = time - start + duration by intros; omega,
        Int.add_emod_right]
      exact aligned

end Periods

section Sound

variable [PyText] {F : Type} [PyFloat F] {query : BarQuery} {duration : Int}

/-- A valid report misses no point, in whatever order the bars are. -/
theorem coversGrid_of_valid (known : query.timeframe.durationMs = some duration) (positive : 0 < duration)
    {made : List (ContractBar F)} {source : String} {report : CoverageReport}
    (reported : coverageReport query made source = .ok report) (valid : report.status = .valid) :
    CoversGrid query duration (made.map ContractBar.time) := by
  unfold coverageReport at reported
  dsimp only at reported
  split at reported
  · obtain ⟨missing, listed, same⟩ := bind_eq_ok.mp reported
    obtain rfl := Except.ok.inj same
    have whole : missing = [] := by
      by_contra holes
      simp only [coverageStatus, holes, ne_eq, not_false_eq_true, if_true] at valid
      split_ifs at valid
    rw [missingIntervals_eq_nil_iff known positive listed] at whole
    intro time member
    have there := whole time member
    rw [List.mem_map] at there ⊢
    obtain ⟨bar, inside, same⟩ := there
    exact ⟨bar, (List.mem_insertionSort _).mp inside, same⟩
  · obtain rfl := Except.ok.inj reported
    cases valid

/-- An answer of complete has a bar at the open of every period of the query. -/
structure CompleteMeansComplete (F : Type) [PyFloat F] (query : BarQuery) : Prop where
  check : ∀ (bars : List (MarketBar F)) (time : Int), coverageComplete bars query = .ok true →
    PeriodsFrom query.timeframe.canonical query.startMs time → time < query.endMs →
      time ∈ bars.map fun bar => bar.time
  report : ∀ (made : List (ContractBar F)) (source : String) (report : CoverageReport) (time : Int),
    coverageReport query made source = .ok report → report.status = .valid →
      PeriodsFrom query.timeframe.canonical query.startMs time → time < query.endMs →
        time ∈ made.map ContractBar.time

/-- A bar of a time, with nothing in it. -/
def zeroBar (F : Type) [PyFloat F] (time : Int) : MarketBar F where
  time := time
  openPrice := PyFloat.zero
  high := PyFloat.zero
  low := PyFloat.zero
  close := PyFloat.zero
  volume := PyFloat.zero
  timeClose := none
  exchange := ""
  market := ""
  symbol := ""
  timeframe := ""
  sourceTransport := "rest"
  sourceKind := "trade_kline"
  source := ""
  isClosed := true
  provider := ""
  providerRevision := none
  revisionState := .original
  revision := 0
  openText := none
  highText := none
  lowText := none
  closeText := none
  volumeText := none
  quoteVolume := none
  turnover := none
  tradesCount := none
  takerBuyBaseVolume := none
  takerBuyQuoteVolume := none
  downloadedAt := none
  metadata := []
  lineage := RevisionState.original_admits

theorem BarQuery.timeframeMs_of_duration (known : query.timeframe.durationMs = some duration) :
    timeframeMs query.timeframe.canonical = .ok duration := by
  have own := query.timeframe.duration
  rw [known, timeframeDuration] at own
  split at own
  · cases own
  · obtain ⟨length, found, same⟩ := map_eq_ok.mp own
    obtain rfl := Option.some.inj same
    exact found

/-- Complete means complete exactly where the timeframe has a duration: for months any bar will do. -/
theorem complete_means_complete_iff (opens : PeriodOpen query.timeframe.canonical query.startMs)
    (positive : ∀ duration, query.timeframe.durationMs = some duration → 0 < duration) :
    CompleteMeansComplete F query ↔ query.timeframe.durationMs ≠ none := by
  constructor
  · intro sound calendar
    have answered : coverageComplete [zeroBar F (query.startMs - 1)] query = .ok true := by
      rw [coverageComplete, calendar]
      rfl
    have member := sound.check _ query.startMs answered .first query.ordered
    have same : query.startMs = query.startMs - 1 := List.mem_singleton.mp member
    omega
  · intro fixed
    obtain ⟨duration, known⟩ := Option.ne_none_iff_exists'.mp fixed
    have length := BarQuery.timeframeMs_of_duration known
    have canonical := query.timeframe.fixedPoint
    have point {time : Int} (period : PeriodsFrom query.timeframe.canonical query.startMs time)
        (before : time < query.endMs) : time ∈ Grid.points query.startMs query.endMs duration := by
      obtain ⟨⟨after, aligned⟩, -⟩ := aligned_of_periodsFrom canonical length (positive duration known)
        (opensAt_of_periodOpen canonical length opens) period
      exact (Grid.mem_points_iff (positive duration known)).mpr ⟨after, before, aligned⟩
    constructor
    · intro bars time answered period before
      obtain ⟨complete, same, covers⟩ := coverageComplete_iff bars known (positive duration known)
      obtain rfl := Except.ok.inj (same.symm.trans answered)
      exact covers.mp rfl time (point period before)
    · intro made source report time reported valid period before
      exact coversGrid_of_valid known (positive duration known) reported valid time (point period before)

end Sound

end MarketdataProvider

namespace MarketdataProvider

open Foundation Reference

open scoped Reference

/-- Two candles of a minute series, the second one half a minute after the first. -/
def halfMinutes : ClosedSeries Whole where
  format := .csv
  bars := [candle 0, candle 30000]
  sorted := by
    rw [List.pairwise_pair]
    decide
  formed := by
    simp only [List.forall_mem_cons]
    exact ⟨candle_formed 0, candle_formed 30000, by simp⟩
  digested := by
    simp only [List.forall_mem_cons]
    exact ⟨eq_ok_of_toBool (by decide +kernel), eq_ok_of_toBool (by decide +kernel), by simp⟩

theorem half_minutes_disagree :
    ((storedCoverageComplete (minuteQuery 0 60000 (by decide))).run (handle offline)
      (worldOf halfMinutes)).1 = .ok false ∧
    coverageComplete halfMinutes.bars (minuteQuery 0 60000 (by decide)) = .ok true :=
  ⟨eq_ok_of_toOption (by decide +kernel), eq_ok_of_toOption (by decide +kernel)⟩

/-- The second of three minutes is not stored: all checks say so, of the abstract series and of its files. -/
theorem coverage_checks_agree_iff_gap : ∃ state scan,
    ((readRange Whole (fun _ => false) ⟨.csv, true, false⟩ (some 0) (some 180000)).run state).1 = .ok gapped ∧
    ((storedCoverageOnDisk Whole (fun _ => false) ⟨.csv, true, false⟩ (minuteQuery 0 180000 (by decide))).run
      state).1 = .ok scan ∧
    ((storedCoverageComplete (minuteQuery 0 180000 (by decide))).run (handle offline)
      (worldOf gappedSeries)).1 = .ok scan ∧
    coverageComplete gapped (minuteQuery 0 180000 (by decide)) = .ok scan := by
  have converts : (seriesFromMarketBars (minuteQuery 0 180000 (by decide)) gapped "storage").toBool = true := by
    decide +kernel
  obtain ⟨series, converted⟩ := eq_ok_of_toBool converts
  have missing : (60000 : Int) ∉ gapped.map fun bar => bar.time := by decide
  have uncovered : ¬ CoversGrid (minuteQuery 0 180000 (by decide)) 60000 (gapped.map fun bar => bar.time) :=
    fun covers => missing (covers 60000 ((Grid.mem_points_iff (by decide)).mpr (by decide)))
  obtain ⟨state, data, held⟩ := gapped_held
  obtain ⟨last, read, -⟩ := @Held.readRange _ Whole _ _ _ ⟨.csv, true, false⟩ (fun _ => false) _ _ _ held
    wholeRoundings (some 0) (some 180000) (rangeReads_of_plain data gapped_plain (some 0))
  have listed : ((readRange Whole (fun _ => false) ⟨.csv, true, false⟩ (some 0) (some 180000)).run state).1 =
      .ok gapped := congrArg Prod.fst read
  have world : (storedBarsOf (minuteQuery 0 180000 (by decide))).run (handle offline) (worldOf gappedSeries) =
      (.ok gapped, worldOf gappedSeries) := by
    obtain ⟨directory, placed⟩ := series_directory
    rw [storedBarsOf, run_readAll, World.seriesOf, show seriesDirectory (minuteQuery 0 180000 (by decide)).key =
      .ok directory from placed]
    rfl
  obtain ⟨abstract, disk⟩ := coverage_checks_agree_iff (show minute.durationMs = some 60000 from rfl) (by decide)
    converted
  obtain ⟨scan, scanned, inclusion, answered, -, agree⟩ := abstract offline _ _ world
  obtain ⟨again, streamed, other, same, -, agreeAgain⟩ := disk _ _ _ listed
  obtain rfl := Except.ok.inj (answered.symm.trans same)
  obtain rfl := (agree.mpr (.inl uncovered)).trans (agreeAgain.mpr (.inl uncovered)).symm
  refine ⟨state, scan, listed, streamed, congrArg Prod.fst scanned, ?_⟩
  rw [answered, agree.mpr (.inl uncovered)]

def month : Timeframe where
  canonical := "1M"
  durationMs := none
  fixedPoint := eq_ok_of_toOption (by decide +kernel)
  duration := eq_ok_of_toOption (by decide +kernel)

/-- January and February of 1970. -/
def twoMonths : BarQuery := ⟨btcusdt, month, 0, 59 * dayMs, .fail, by decide⟩

theorem january_passes_for_february : PeriodOpen twoMonths.timeframe.canonical twoMonths.startMs ∧
    coverageComplete [candle 0] twoMonths = .ok true ∧ PeriodsFrom twoMonths.timeframe.canonical twoMonths.startMs (31 * dayMs) ∧
    31 * dayMs < twoMonths.endMs ∧ 31 * dayMs ∉ [candle 0].map fun bar => bar.time := by
  have closes : closeTimeMs 0 "1M" = .ok (31 * dayMs - 1) := eq_ok_of_toOption (by decide +kernel)
  have before : closeTimeMs (-1) "1M" = .ok (-1) := eq_ok_of_toOption (by decide +kernel)
  refine ⟨⟨_, closes, ?_⟩, rfl, .next .first closes, by decide, by decide⟩
  intro other same
  by_contra early
  have ends := closeTimeMs_mono month.fixedPoint (show other ≤ -1 by change ¬ (0 : Int) ≤ other at early; omega)
    same before
  simp [dayMs] at ends

theorem complete_means_complete_iff_minute :
    CompleteMeansComplete Whole (minuteQuery 0 120000 (by decide)) := by
  refine (complete_means_complete_iff ⟨59999, eq_ok_of_toOption (by decide +kernel), ?_⟩ ?_).mpr (by decide)
  · intro other closes
    have inside := inside_of_closeTimeMs minute.fixedPoint closes
    have length : timeframeMs minute.canonical = .ok 60000 := eq_ok_of_toOption (by decide +kernel)
    change closeTimeMs other minute.canonical = .ok 59999 at closes
    rw [closeTimeMs_eq minute.fixedPoint length inside, if_neg (by decide), if_neg (by decide)] at closes
    have same := Except.ok.inj closes
    change (0 : Int) ≤ other
    omega
  · intro duration known
    obtain rfl := Option.some.inj (show some 60000 = some duration from known)
    decide

end MarketdataProvider
