import MarketdataProvider.Service.CoverageChecks
import MarketdataProvider.Service.FaithfulCalls

namespace MarketdataProvider

open Foundation

section Calls

variable [PyText] {F : Type} [PyFloat F] {environment : Environment F} {world : World F}
  {query : BarQuery} {bars : List (MarketBar F)} {duration : Int}

/-- The series of a query has a place. -/
theorem seriesOf_query (world : World F) (query : BarQuery) :
    ∃ directory, seriesDirectory query.key = .ok directory ∧
      world.seriesOf query.key = .ok (world.series directory) := by
  have accepted : canonicalTimeframe query.key.timeframe = .ok query.timeframe.canonical :=
    query.timeframe.fixedPoint
  have placed : ∃ directory, seriesDirectory query.key = .ok directory := by
    rw [seriesDirectory, accepted, ok_bind]
    exact ⟨_, rfl⟩
  obtain ⟨directory, found⟩ := placed
  exact ⟨directory, found, by rw [World.seriesOf, found]; rfl⟩

theorem normalizedKey_query (query : BarQuery) : ∃ normal, normalizedKey query.key = .ok normal := by
  have accepted : canonicalTimeframe query.key.timeframe = .ok query.timeframe.canonical :=
    query.timeframe.fixedPoint
  rw [normalizedKey, accepted, ok_bind]
  exact ⟨_, rfl⟩

/-- A timeframe that equals that of its base is served without a derivation. -/
theorem baseQuery_eq {config : HistoryConfig} {base : BarQuery} (based : baseQuery config query = .ok base)
    (same : base.timeframe = query.timeframe) : base = query := by
  unfold baseQuery at based
  split_ifs at based
  · cases based
    rfl
  · cases based
    rfl
  · obtain ⟨timeframe, -, based⟩ := bind_eq_ok.mp based
    obtain ⟨derives, -, based⟩ := bind_eq_ok.mp based
    cases derives with
    | false =>
        cases based
        rfl
    | true =>
        cases based
        obtain rfl : timeframe = query.timeframe := same
        rfl

omit [PyFloat F] in
theorem upsertOpenBars_closed (closed : ∀ bar ∈ bars, bar.isClosed = true) :
    upsertOpenBars bars = .done () := by
  induction bars with
  | nil => rfl
  | cons bar rest ih =>
      rw [upsertOpenBars, if_pos (closed bar List.mem_cons_self)]
      exact ih fun other member => closed other (List.mem_cons_of_mem _ member)

omit [PyText] [PyFloat F] in
theorem finalized_closed (closed : ∀ bar ∈ bars, bar.isClosed = true) : finalized bars = bars :=
  List.filter_eq_self.mpr closed

variable [Sha256]

/-- The deletion of live rows leaves the series. -/
theorem run_deleteCurrentBars (keyed : ∀ bar ∈ bars, ∃ normal, normalizedKey bar.key = .ok normal) :
    ∃ after, (deleteCurrentBars bars).run (handle environment) world = (.ok (), after) ∧
      after.series = world.series ∧ after.asked = world.asked := by
  induction bars generalizing world with
  | nil => exact ⟨world, rfl, rfl, rfl⟩
  | cons bar rest ih =>
      obtain ⟨normal, named⟩ := keyed bar List.mem_cons_self
      have deleted : handle environment (.deleteCurrent bar) world =
          (.ok (), { world with current := world.current.filter fun row => !row.deletedBy normal bar }) := by
        rw [handle, deleteCurrent, named]
        rfl
      obtain ⟨after, ran, series, asked⟩ := @ih { world with
        current := world.current.filter fun row => !row.deletedBy normal bar }
        fun other member => keyed other (List.mem_cons_of_mem _ member)
      refine ⟨after, ?_, series, asked⟩
      rw [deleteCurrentBars, Calls.run_bind_ok _ (Calls.run_call_ok _ deleted)]
      exact ran

end Calls

section Ensure

variable [PyText] {F : Type} [PyFloat F] {environment : Environment F} {world : World F}
  {query : BarQuery} {first : MarketBar F} {rest bars : List (MarketBar F)} {duration : Int}
  {directory : List String} {stored : Option (ClosedSeries F)} {series : ClosedSeries F}

/-- A closed bar of the series, as the store and the contract take it. -/
structure SeriesBar (query : BarQuery) (bar : MarketBar F) : Prop where
  admissible : bar.Admissible query.key
  closed : bar.isClosed = true
  converts : ∃ made, contractBarOf query bar = .ok made

/-- The closed bars at all grid points of a query from a start on. -/
structure GridAnswer (query : BarQuery) (duration start : Int) (bars : List (MarketBar F)) : Prop where
  times : (bars.map fun bar => bar.time) = Grid.points start query.endMs duration
  valid : ∀ bar ∈ bars, SeriesBar query bar

theorem GridAnswer.sorted {start : Int} (answers : GridAnswer query duration start bars) (positive : 0 < duration) :
    bars.Pairwise (·.time < ·.time) := by
  rw [← List.pairwise_map, answers.times]
  exact Grid.points_sorted positive

theorem GridAnswer.nonempty {start : Int} (answers : GridAnswer query duration start bars) (positive : 0 < duration)
    (ordered : start < query.endMs) : bars ≠ [] := by
  rintro rfl
  have inside := start_mem_points (query.replaceStart start ordered) positive
  change start ∈ Grid.points start query.endMs duration at inside
  rw [← answers.times] at inside
  cases inside

theorem keyed_of_valid (valid : ∀ bar ∈ bars, SeriesBar query bar) :
    ∀ bar ∈ bars, ∃ normal, normalizedKey bar.key = .ok normal := by
  intro bar member
  obtain ⟨row, digested⟩ := (valid bar member).admissible.digested
  exact normalizedKey_of_digested digested

omit [PyFloat F] in
/-- What an append of closed bars comes to. -/
theorem appendStream_closed (nonempty : bars ≠ []) (closed : ∀ bar ∈ bars, bar.isClosed = true) :
    appendStream query bars =
      (Ask.appendStrictlyNewer query.key bars >>= fun _ => deleteCurrentBars bars : Service F Unit) := by
  rw [appendStream, upsertOpenBars_closed closed, Calls.done_bind, finalized_closed closed,
    if_neg (by simpa using nonempty)]

variable [Sha256]

/-- A newer tail of a CSV series is appended. -/
theorem run_appendStream (placed : seriesDirectory query.key = .ok directory)
    (found : world.series directory = some series) (csv : series.format = .csv) {endTime : Int}
    (ends : series.endTime = some endTime) (valid : ∀ bar ∈ first :: rest, SeriesBar query bar)
    (sorted : (first :: rest).Pairwise (·.time < ·.time)) (newer : endTime < first.time) :
    ∃ after extended, (appendStream query (first :: rest)).run (handle environment) world = (.ok (), after) ∧
      after.series directory = some extended ∧ extended.bars = series.bars ++ first :: rest := by
  obtain ⟨normal, named⟩ := normalizedKey_query query
  obtain ⟨extended, returned, -, grown⟩ := appendSeries_of_newer csv ends named
    (fun bar member => (valid bar member).admissible) sorted newer
  have answered : handle environment (.appendStrictlyNewer query.key (first :: rest)) world =
      (.ok (), world.setSeries directory extended) := by
    rw [handle, writes, placed]
    dsimp only
    rw [found, returned]
    rfl
  have appended : (Ask.appendStrictlyNewer query.key (first :: rest)).run (handle environment) world =
      (.ok (), world.setSeries directory extended) := Calls.run_call_ok _ answered
  obtain ⟨after, ran, same, -⟩ := @run_deleteCurrentBars _ F _ environment
    (world.setSeries directory extended) _ _ (keyed_of_valid valid)
  refine ⟨after, extended, ?_, ?_, grown⟩
  · rw [appendStream_closed (List.cons_ne_nil _ _) fun bar member => (valid bar member).closed,
      Calls.run_bind_ok _ appended]
    exact ran
  · rw [same]
    exact World.series_setSeries_self world directory extended

/-- A Parquet series takes no tail. -/
theorem run_appendStream_parquet (placed : seriesDirectory query.key = .ok directory)
    (found : world.series directory = some series) (parquet : series.format = .parquet)
    (nonempty : bars ≠ []) (valid : ∀ bar ∈ bars, SeriesBar query bar)
    (sorted : bars.Pairwise (·.time < ·.time)) :
    ∃ error, (appendStream query bars).run (handle environment) world = (.error error, world) := by
  obtain ⟨normal, named⟩ := normalizedKey_query query
  have refused := appendSeries_parquet parquet (validatedAppendBars_of_admissible named
    (fun bar member => (valid bar member).admissible) sorted)
  refine ⟨.mdUnsupportedFeature "Bounded incremental append is supported only for CSV segments", ?_⟩
  have answered : handle environment (.appendStrictlyNewer query.key bars) world =
      (.error (.mdUnsupportedFeature "Bounded incremental append is supported only for CSV segments"), world) := by
    rw [handle, writes, placed]
    dsimp only
    rw [found, refused]
    rfl
  have raised : (Ask.appendStrictlyNewer query.key bars).run (handle environment) world =
      (.error (.mdUnsupportedFeature "Bounded incremental append is supported only for CSV segments"), world) :=
    Calls.run_call_error _ answered
  rw [appendStream_closed nonempty fun bar member => (valid bar member).closed, Calls.run_bind_error _ raised]

theorem run_storedBarsOf (placed : seriesDirectory query.key = .ok directory) :
    (storedBarsOf query).run (handle environment) world =
      (.ok (rangeOf (world.series directory) (some query.startMs) (some query.endMs)), world) := by
  rw [storedBarsOf, run_readAll, World.seriesOf, placed]
  rfl

/-- The whole answer is merged into the series, of either format. -/
theorem run_ensureWhole (positive : 0 < duration)
    (placed : seriesDirectory query.key = .ok directory)
    (incomplete : coverageComplete (rangeOf (world.series directory) (some query.startMs) (some query.endMs)) query =
      .ok false)
    (asked : fetchFromSources environment.config environment.now (environment.remote world.asked) query = .ok bars)
    (answers : GridAnswer query duration query.startMs bars) :
    ∃ after merged, (ensureWhole query).run (handle environment) world = (.ok true, after) ∧
      after.series directory = some merged ∧
      merged.bars = mergeByTime (storedBars (world.series directory)) bars := by
  obtain ⟨normal, named⟩ := normalizedKey_query query
  have valid := answers.valid
  have nonempty := answers.nonempty positive query.ordered
  have closed : ∀ bar ∈ bars, bar.isClosed = true := fun bar member => (valid bar member).closed
  obtain ⟨merged, returned, -, union⟩ := @mergeSeries_of_valid _ F _ _ _ (world.series directory) _ named
    (fun bar member => (valid bar member).admissible.formed)
    fun bar member => (valid bar member).admissible.digested
  have read : (storedBarsOf query).run (handle environment) world = _ := run_storedBarsOf placed
  have fetched : (Ask.fetch query).run (handle environment) world =
      (.ok bars, { world with asked := world.asked + 1 }) := by
    apply Calls.run_call_ok
    rw [handle, asked]
    rfl
  have answered : handle environment (.mergeClosed query.key bars) { world with asked := world.asked + 1 } =
      (.ok (), { world with asked := world.asked + 1 }.setSeries directory merged) := by
    rw [handle, writes, placed]
    dsimp only
    rw [returned]
    rfl
  obtain ⟨after, ran, same, -⟩ := @run_deleteCurrentBars _ F _ environment
    ({ world with asked := world.asked + 1 }.setSeries directory merged) _ _ (keyed_of_valid valid)
  refine ⟨after, merged, ?_, ?_, union⟩
  · have whole : (Ask.mergeClosed query.key bars).run (handle environment)
        { world with asked := world.asked + 1 } =
          (.ok (), { world with asked := world.asked + 1 }.setSeries directory merged) :=
      Calls.run_call_ok _ answered
    rw [ensureWhole, Calls.run_bind_ok _ read, incomplete, Calls.ofExcept_ok, Calls.done_bind,
      if_neg Bool.false_ne_true, Calls.run_bind_ok _ fetched, if_neg (by simpa using nonempty),
      upsertOpenBars_closed closed, Calls.done_bind, finalized_closed closed,
      if_neg (by simpa using nonempty), Calls.run_bind_ok _ whole, Calls.run_bind_ok _ ran]
    rfl
  · rw [same]
    exact World.series_setSeries_self _ directory merged

/-- A query that is not covered goes on to the manifest. -/
theorem run_manifestFor (placed : seriesDirectory query.key = .ok directory) :
    (Ask.manifestFor query.key).run (handle environment) world =
      (.ok ((world.series directory).map ClosedSeries.span), world) := by
  apply Calls.run_call_ok
  rw [handle, World.seriesOf, placed]
  rfl

/-- Without a missing tail the whole query is fetched. -/
theorem ensureStored_whole (placed : seriesDirectory query.key = .ok directory)
    (scanned : (storedCoverageComplete query).run (handle environment) world = (.ok false, world))
    (noTail : missingTail query ((world.series directory).map ClosedSeries.span) = none) :
    (ensureStored query).run (handle environment) world =
      (ensureWhole query).run (handle environment) world := by
  have manifest : (Ask.manifestFor query.key).run (handle environment) world = _ := run_manifestFor placed
  unfold ensureStored
  rw [Calls.run_bind_ok _ scanned, if_neg Bool.false_ne_true, Calls.run_bind_ok _ manifest]
  simp only [noTail]

/-- A missing tail that the source delivers is appended, and that ends the call. -/
theorem ensureStored_tail {tail : BarQuery} (placed : seriesDirectory query.key = .ok directory)
    (scanned : (storedCoverageComplete query).run (handle environment) world = (.ok false, world))
    (missing : missingTail query ((world.series directory).map ClosedSeries.span) = some tail)
    (asked : fetchFromSources environment.config environment.now (environment.remote world.asked) tail = .ok bars)
    (nonempty : bars ≠ []) :
    (ensureStored query).run (handle environment) world =
      (appendStream query bars >>= fun _ => pure true : Service F Bool).run (handle environment)
        { world with asked := world.asked + 1 } := by
  have manifest : (Ask.manifestFor query.key).run (handle environment) world = _ := run_manifestFor placed
  have fetched : (Ask.fetch tail).run (handle environment) world =
      (.ok bars, { world with asked := world.asked + 1 }) := by
    apply Calls.run_call_ok
    rw [handle, asked]
    rfl
  unfold ensureStored
  rw [Calls.run_bind_ok _ scanned, if_neg Bool.false_ne_true, Calls.run_bind_ok _ manifest]
  simp only [missing]
  rw [Calls.run_bind_ok _ fetched, if_neg (by simpa using nonempty)]

end Ensure

section Fetch

variable [PyText] {F : Type} [PyFloat F] {environment : Environment F} {world : World F}
  {query : BarQuery} {bars : List (MarketBar F)} {duration : Int} {directory : List String}

/-- The second read of `fetch_bars` and its check. -/
def readBack (query : BarQuery) : Service F (BarSeries F) := do
  let bars ← storedBarsOf query
  if bars.isEmpty then fromStorage query bars
  else if ← Calls.ofExcept (coverageComplete bars query) then fromStorage query bars
  else .fail (.coverageValidationError "Stored/provider bars do not cover every requested timestamp")

/-- Stored bars of the series that lie on the grid of a query. -/
structure OnGrid (query : BarQuery) (duration : Int) (bars : List (MarketBar F)) : Prop where
  aligned : ∀ bar ∈ bars, (bar.time - query.startMs) % duration = 0
  converts : ∀ bar ∈ bars, ∃ made, contractBarOf query bar = .ok made

/-- Bars of two series on the grid are on the grid. -/
theorem OnGrid.union {left right both : List (MarketBar F)} (first : OnGrid query duration left)
    (second : OnGrid query duration right) (parts : ∀ bar ∈ both, bar ∈ left ∨ bar ∈ right) :
    OnGrid query duration both where
  aligned bar member := (parts bar member).elim (first.aligned bar) (second.aligned bar)
  converts bar member := (parts bar member).elim (first.converts bar) (second.converts bar)

theorem OnGrid.range {stored : Option (ClosedSeries F)} (grid : OnGrid query duration (storedBars stored)) :
    OnGrid query duration (rangeOf stored (some query.startMs) (some query.endMs)) := by
  have inside : ∀ bar ∈ rangeOf stored (some query.startMs) (some query.endMs), bar ∈ storedBars stored := by
    cases stored with
    | none =>
        intro bar member
        cases member
    | some series =>
        intro bar member
        exact (List.mem_filter.mp member).1
  exact ⟨fun bar member => grid.aligned bar (inside bar member),
    fun bar member => grid.converts bar (inside bar member)⟩

/-- The points of a query that a series holds are those that a bounded read finds. -/
theorem mem_range_times {stored : Option (ClosedSeries F)} {time : Int} (from_start : query.startMs ≤ time)
    (before : time < query.endMs) :
    time ∈ (rangeOf stored (some query.startMs) (some query.endMs)).map (·.time) ↔
      time ∈ (storedBars stored).map (·.time) := by
  cases stored with
  | none => exact Iff.rfl
  | some series =>
      change time ∈ (series.range _ _).map (·.time) ↔ time ∈ series.bars.map (·.time)
      rw [List.mem_map, List.mem_map]
      constructor
      · rintro ⟨bar, member, rfl⟩
        exact ⟨bar, (List.mem_filter.mp member).1, rfl⟩
      · rintro ⟨bar, member, rfl⟩
        refine ⟨bar, List.mem_filter.mpr ⟨member, ?_⟩, rfl⟩
        simpa [inRange] using ⟨from_start, before⟩

theorem coversGrid_iff {stored : Option (ClosedSeries F)} (positive : 0 < duration) :
    CoversGrid query duration ((rangeOf stored (some query.startMs) (some query.endMs)).map fun bar => bar.time) ↔
      ∀ point ∈ Grid.points query.startMs query.endMs duration, point ∈ (storedBars stored).map (·.time) := by
  apply forall_congr'
  intro point
  apply imp_congr_right
  intro grid
  obtain ⟨from_start, before, -⟩ := (Grid.mem_points_iff positive).mp grid
  exact mem_range_times from_start before

/-- The times of a range are the points of the query when all points are there and nothing else is. -/
theorem rangeTimes_eq_points_iff {stored : Option (ClosedSeries F)} (positive : 0 < duration) :
    ((rangeOf stored (some query.startMs) (some query.endMs)).map fun bar => bar.time) =
        Grid.points query.startMs query.endMs duration ↔
      CoversGrid query duration ((rangeOf stored (some query.startMs) (some query.endMs)).map fun bar => bar.time) ∧
        ∀ bar ∈ rangeOf stored (some query.startMs) (some query.endMs),
          (bar.time - query.startMs) % duration = 0 :=
  times_eq_points_iff positive sorted_rangeOf fun _ => mem_rangeOf

variable [Sha256]

/-- Bars that cover the query on its grid are returned as they are. -/
theorem run_fromStorage (known : query.timeframe.durationMs = some duration) (positive : 0 < duration)
    (converts : ∀ bar ∈ bars, ∃ made, contractBarOf query bar = .ok made)
    (whole : (bars.map fun bar => bar.time) = Grid.points query.startMs query.endMs duration) :
    ∃ series, (fromStorage query bars).run (handle environment) world = (.ok series, world) ∧
      series.bars.map ContractBar.time = Grid.points query.startMs query.endMs duration := by
  obtain ⟨made, mapped⟩ := mapM_ok converts
  have reported : ∃ coverage, coverageReport query made "storage" = .ok coverage := by
    have missing : ∃ intervals, missingIntervalsFor query
        ((made.insertionSort fun left right => left.time ≤ right.time).map ContractBar.time) = .ok intervals := by
      rw [missingIntervalsFor, known]
      dsimp only
      rw [pyRange, if_neg (by omega)]
      exact ⟨_, rfl⟩
    obtain ⟨intervals, found⟩ := missing
    unfold coverageReport
    dsimp only
    split
    · rw [found]
      exact ⟨_, rfl⟩
    · exact ⟨_, rfl⟩
  obtain ⟨coverage, reported⟩ := reported
  refine ⟨⟨query, made, coverage⟩, ?_, by rw [times_of_contractBars mapped, whole]⟩
  rw [fromStorage, seriesFromMarketBars, mapped, ok_bind, reported]
  rfl

theorem run_readBack (known : query.timeframe.durationMs = some duration) (positive : 0 < duration)
    (placed : seriesDirectory query.key = .ok directory)
    (grid : OnGrid query duration (storedBars (world.series directory))) :
    ((∀ point ∈ Grid.points query.startMs query.endMs duration,
        point ∈ (storedBars (world.series directory)).map (·.time)) →
      ∃ series, (readBack query).run (handle environment) world = (.ok series, world) ∧
        series.bars.map ContractBar.time = Grid.points query.startMs query.endMs duration) ∧
    ((¬ ∀ point ∈ Grid.points query.startMs query.endMs duration,
        point ∈ (storedBars (world.series directory)).map (·.time)) →
      rangeOf (world.series directory) (some query.startMs) (some query.endMs) ≠ [] →
      ∃ error, (readBack query).run (handle environment) world = (.error error, world)) := by
  have read : (storedBarsOf query).run (handle environment) world = _ := run_storedBarsOf placed
  have inRange := grid.range
  have covers := @coversGrid_iff _ F _ query duration (world.series directory) positive
  have whole := @rangeTimes_eq_points_iff _ F _ query duration (world.series directory) positive
  rw [readBack, Calls.run_bind_ok _ read]
  generalize rangeOf (world.series directory) (some query.startMs) (some query.endMs) = bars at *
  obtain ⟨complete, answered, completeIff⟩ := coverageComplete_iff bars known positive
  rw [covers] at completeIff whole
  rw [answered, Calls.ofExcept_ok, Calls.done_bind]
  constructor
  · intro all
    have times := whole.mpr ⟨all, inRange.aligned⟩
    obtain ⟨series, returned, same⟩ := run_fromStorage known positive inRange.converts times
    refine ⟨series, ?_, same⟩
    rw [completeIff.mpr all, if_pos rfl, ite_self]
    exact returned
  · intro missing nonempty
    have incomplete : complete = false := by
      rw [Bool.eq_false_iff]
      exact fun done => missing (completeIff.mp done)
    refine ⟨.coverageValidationError "Stored/provider bars do not cover every requested timestamp", ?_⟩
    rw [if_neg (by simpa using nonempty), incomplete, if_neg Bool.false_ne_true]
    rfl

end Fetch

section Tail

variable {F : Type}

theorem mem_times_merge {existing incoming : List (MarketBar F)} (distinct : (existing.map (·.time)).Nodup)
    {time : Int} : time ∈ (mergeByTime existing incoming).map (·.time) ↔
      time ∈ incoming.map (·.time) ∨ time ∈ existing.map (·.time) := by
  rw [← barAt_isSome_iff, barAt_mergeByTime distinct, Option.isSome_or, Bool.or_eq_true, barAt_isSome_iff,
    barAt_isSome_iff, List.map_reverse, List.mem_reverse]

/-- With the tail the query is covered when no point before the tail is free. -/
theorem covered_by_tail {times fresh : List Int} {first stop endTime start duration : Int} (positive : 0 < duration)
    (tail : start = max first (endTime + duration)) (aligned : (start - first) % duration = 0)
    (behind : endTime + duration < stop) (same : fresh = Grid.points start stop duration) :
    (∀ point ∈ Grid.points first stop duration, point ∈ times ∨ point ∈ fresh) ↔
      ∀ point ∈ Grid.points first (endTime + duration) duration, point ∈ times := by
  have shifted (point : Int) : (point - start) % duration = 0 ↔ (point - first) % duration = 0 := by
    rw [show point - first = point - start + (start - first) by ring, Int.add_emod, aligned,
      add_zero, Int.emod_emod]
  simp only [same, Grid.mem_points_iff positive, shifted]
  constructor
  · rintro covered point ⟨from_start, before, step⟩
    rcases covered point ⟨from_start, by omega, step⟩ with stored | ⟨late, -, -⟩
    · exact stored
    · have := le_max_right first (endTime + duration)
      omega
  · rintro front point ⟨from_start, before, step⟩
    rcases lt_or_ge point (endTime + duration) with early | late
    · exact .inl (front point ⟨from_start, early, step⟩)
    · exact .inr ⟨tail ▸ max_le from_start late, before, step⟩

variable [PyText] [PyFloat F] {environment : Environment F} {query : BarQuery} {duration endTime : Int}
  {series : ClosedSeries F}

/-- The source answers every part of the query with exactly its closed grid bars. -/
def SourceAnswers (environment : Environment F) (query : BarQuery) (duration : Int) : Prop :=
  ∀ asked start, ∀ ordered : start < query.endMs, query.startMs ≤ start →
    (start - query.startMs) % duration = 0 →
      ∃ bars, fetchFromSources environment.config environment.now (environment.remote asked)
          (query.replaceStart start ordered) = .ok bars ∧
        GridAnswer query duration start bars

/-- A missing tail is all that is missing: only a CSV series takes it, and no point before it is free. -/
def OnlyTailMissing (query : BarQuery) (duration : Int) (stored : Option (ClosedSeries F)) : Prop :=
  ∀ series endTime, stored = some series → series.endTime = some endTime → endTime + duration < query.endMs →
    series.format = .csv ∧
      ∀ point ∈ Grid.points query.startMs (endTime + duration) duration, point ∈ series.bars.map (·.time)

/-- What a source answers lies on the grid of the query. -/
theorem GridAnswer.onGrid (positive : 0 < duration) {start : Int}
    (aligned : (start - query.startMs) % duration = 0) {bars : List (MarketBar F)}
    (answers : GridAnswer query duration start bars) : OnGrid query duration bars where
  aligned := by
    intro bar member
    have point : bar.time ∈ Grid.points start query.endMs duration :=
      answers.times ▸ List.mem_map_of_mem member
    have step := ((Grid.mem_points_iff positive).mp point).2.2
    rw [show bar.time - query.startMs = bar.time - start + (start - query.startMs) by ring, Int.add_emod, step,
      aligned]
    rfl
  converts := fun bar member => (answers.valid bar member).converts

/-- The part of a query behind the stored tail. -/
theorem missingTail_eq (known : query.timeframe.durationMs = some duration) (ends : series.endTime = some endTime) :
    missingTail query (some series.span) =
      if ordered : max query.startMs (endTime + duration) < query.endMs then
        some (query.replaceStart (max query.startMs (endTime + duration)) ordered)
      else none := by
  have span : (some series.span).bind SeriesSpan.endTime = some endTime := ends
  unfold missingTail
  simp only [span, known]

/-- The first point behind the tail is a point of the query that is not stored. -/
theorem tail_start (positive : 0 < duration)
    (ends : series.endTime = some endTime) (grid : OnGrid query duration series.bars)
    (behind : endTime + duration < query.endMs) :
    (max query.startMs (endTime + duration) - query.startMs) % duration = 0 ∧
      max query.startMs (endTime + duration) ∉ series.bars.map (·.time) := by
  obtain ⟨last, found, rfl⟩ := endTime_eq_some_iff.mp ends
  have aligned := grid.aligned last (List.mem_of_getLast? found)
  constructor
  · rcases max_choice query.startMs (last.time + duration) with same | same
    · rw [same, sub_self, Int.zero_emod]
    · rw [same, show last.time + duration - query.startMs = last.time - query.startMs + duration by ring,
        Int.add_emod_right]
      exact aligned
  · intro member
    obtain ⟨bar, inside, same⟩ := List.mem_map.mp member
    have early := time_le_endTime ends inside
    have late := le_max_right query.startMs (last.time + duration)
    omega

end Tail

section Branches

variable [PyText] {F : Type} [PyFloat F] [Sha256] {environment : Environment F} {world : World F}
  {query : BarQuery} {duration : Int} {directory : List String}

/-- A query that is covered is answered from the store. -/
theorem run_fetchStored_covered (known : query.timeframe.durationMs = some duration) (positive : 0 < duration)
    (placed : seriesDirectory query.key = .ok directory)
    (grid : OnGrid query duration (storedBars (world.series directory)))
    (covered : ∀ point ∈ Grid.points query.startMs query.endMs duration,
      point ∈ (storedBars (world.series directory)).map (·.time)) :
    ∃ series, (fetchStored query).run (handle environment) world = (.ok series, world) ∧
      series.bars.map ContractBar.time = Grid.points query.startMs query.endMs duration := by
  have read : (storedBarsOf query).run (handle environment) world = _ := run_storedBarsOf placed
  have covers := (@coversGrid_iff _ F _ query duration (world.series directory) positive).mpr covered
  have times := (@rangeTimes_eq_points_iff _ F _ query duration (world.series directory) positive).mpr
    ⟨covers, grid.range.aligned⟩
  obtain ⟨complete, answered, completeIff⟩ := coverageComplete_iff
    (rangeOf (world.series directory) (some query.startMs) (some query.endMs)) known positive
  obtain ⟨series, returned, same⟩ := run_fromStorage known positive grid.range.converts times
  refine ⟨series, ?_, same⟩
  rw [fetchStored, Calls.run_bind_ok _ read, answered, Calls.ofExcept_ok, Calls.done_bind,
    completeIff.mpr covers, if_pos rfl]
  exact returned

/-- Every other query is stored first and read back then. -/
theorem run_fetchStored_uncovered (known : query.timeframe.durationMs = some duration) (positive : 0 < duration)
    (placed : seriesDirectory query.key = .ok directory)
    (missing : ¬ ∀ point ∈ Grid.points query.startMs query.endMs duration,
      point ∈ (storedBars (world.series directory)).map (·.time)) :
    coverageComplete (rangeOf (world.series directory) (some query.startMs) (some query.endMs)) query = .ok false ∧
    (storedCoverageComplete query).run (handle environment) world = (.ok false, world) ∧
    (fetchStored query).run (handle environment) world =
      (ensureStored query >>= fun _ => readBack query : Service F (BarSeries F)).run (handle environment) world := by
  have read : (storedBarsOf query).run (handle environment) world = _ := run_storedBarsOf placed
  have uncovered := mt (@coversGrid_iff _ F _ query duration (world.series directory) positive).mp missing
  obtain ⟨complete, answered, completeIff⟩ := coverageComplete_iff
    (rangeOf (world.series directory) (some query.startMs) (some query.endMs)) known positive
  have scanned := run_storedCoverageComplete known read
  obtain rfl : complete = false := Bool.eq_false_iff.mpr fun done => uncovered (completeIff.mp done)
  have stops := Bool.eq_false_iff.mpr fun done =>
    uncovered ((@rangeTimes_eq_points_iff _ F _ query duration (world.series directory) positive).mp
      ((scanned_iff positive sorted_rangeOf fun _ => mem_rangeOf).mp done)).1
  refine ⟨answered, by rw [scanned, stops], ?_⟩
  rw [fetchStored, Calls.run_bind_ok _ read, answered, Calls.ofExcept_ok, Calls.done_bind,
    if_neg Bool.false_ne_true]
  rfl

/-- Without a missing tail the gap fill covers the query. -/
theorem run_fetchStored_whole (known : query.timeframe.durationMs = some duration) (positive : 0 < duration)
    (placed : seriesDirectory query.key = .ok directory)
    (grid : OnGrid query duration (storedBars (world.series directory)))
    (source : SourceAnswers environment query duration)
    (missing : ¬ ∀ point ∈ Grid.points query.startMs query.endMs duration,
      point ∈ (storedBars (world.series directory)).map (·.time))
    (noTail : missingTail query ((world.series directory).map ClosedSeries.span) = none) :
    ∃ series after, (fetchStored query).run (handle environment) world = (.ok series, after) ∧
      series.bars.map ContractBar.time = Grid.points query.startMs query.endMs duration := by
  obtain ⟨incomplete, scanned, continues⟩ :=
    @run_fetchStored_uncovered _ F _ _ environment _ _ _ _ known positive placed missing
  obtain ⟨bars, asked, answers⟩ := source world.asked query.startMs query.ordered (le_refl _) (by simp)
  have onGrid : OnGrid query duration bars := answers.onGrid positive (by simp)
  obtain ⟨after, merged, ran, found, union⟩ := run_ensureWhole positive placed incomplete asked answers
  have stored : (ensureStored query).run (handle environment) world = (.ok true, after) := by
    rw [ensureStored_whole placed scanned noTail, ran]
  have held : storedBars (after.series directory) = mergeByTime (storedBars (world.series directory)) bars := by
    rw [found]
    exact union
  have mergedGrid : OnGrid query duration (storedBars (after.series directory)) := by
    rw [held]
    exact onGrid.union grid fun bar => mem_mergeByTime
  have covered : ∀ point ∈ Grid.points query.startMs query.endMs duration,
      point ∈ (storedBars (after.series directory)).map (·.time) := by
    intro point inside
    rw [held, mem_times_merge (distinct_storedBars _)]
    exact .inl (answers.times ▸ inside)
  obtain ⟨series, returned, times⟩ := (run_readBack known positive placed mergedGrid).1 covered
  refine ⟨series, after, ?_, times⟩
  rw [continues, Calls.run_bind_ok _ stored]
  exact returned

/-- A missing tail is fetched alone: the call completes the query when only the tail was missing. -/
theorem run_fetchStored_tail {series : ClosedSeries F} {endTime : Int}
    (known : query.timeframe.durationMs = some duration) (positive : 0 < duration)
    (placed : seriesDirectory query.key = .ok directory) (found : world.series directory = some series)
    (grid : OnGrid query duration series.bars) (source : SourceAnswers environment query duration)
    (ends : series.endTime = some endTime) (behind : endTime + duration < query.endMs) :
    (∃ answer after, (fetchStored query).run (handle environment) world = (.ok answer, after) ∧
      answer.bars.map ContractBar.time = Grid.points query.startMs query.endMs duration) ↔
    series.format = .csv ∧
      ∀ point ∈ Grid.points query.startMs (endTime + duration) duration, point ∈ series.bars.map (·.time) := by
  obtain ⟨aligned, free⟩ := tail_start positive ends grid behind
  have ordered : max query.startMs (endTime + duration) < query.endMs := max_lt query.ordered behind
  have missing : ¬ ∀ point ∈ Grid.points query.startMs query.endMs duration,
      point ∈ (storedBars (world.series directory)).map (·.time) := by
    intro covered
    rw [found] at covered
    exact free (covered _ ((Grid.mem_points_iff positive).mpr ⟨le_max_left _ _, ordered, aligned⟩))
  obtain ⟨-, scanned, continues⟩ :=
    @run_fetchStored_uncovered _ F _ _ environment _ _ _ _ known positive placed missing
  obtain ⟨bars, asked, answers⟩ := source world.asked _ ordered (le_max_left _ _) aligned
  have tail : missingTail query ((world.series directory).map ClosedSeries.span) =
      some (query.replaceStart _ ordered) := by
    rw [found, Option.map_some, missingTail_eq known ends, dif_pos ordered]
  have nonempty := answers.nonempty positive ordered
  have ensures := ensureStored_tail placed scanned tail asked nonempty
  cases format : series.format with
  | parquet =>
      obtain ⟨error, raised⟩ := @run_appendStream_parquet _ F _ environment
        { world with asked := world.asked + 1 } _ _ _ _ _ placed found format nonempty answers.valid
        (answers.sorted positive)
      rw [Calls.run_bind_error _ raised] at ensures
      rw [continues, Calls.run_bind_error _ ensures]
      simp
  | csv =>
      obtain ⟨first, rest, rfl⟩ := List.exists_cons_of_ne_nil nonempty
      have head : first.time ∈ (first :: rest).map (·.time) := List.mem_cons_self
      rw [answers.times, Grid.mem_points_iff positive] at head
      obtain ⟨late, beforeEnd, -⟩ := head
      have newer : endTime < first.time := by
        have := le_max_right query.startMs (endTime + duration)
        omega
      obtain ⟨after, extended, ran, stands, grown⟩ := @run_appendStream _ F _ environment
        { world with asked := world.asked + 1 } _ _ _ _ _ _ placed found format _ ends answers.valid
        (answers.sorted positive) newer
      rw [Calls.run_bind_ok _ ran] at ensures
      have held : storedBars (after.series directory) = series.bars ++ first :: rest := by
        rw [stands]
        exact grown
      have extendedGrid : OnGrid query duration (storedBars (after.series directory)) := by
        rw [held]
        exact grid.union (answers.onGrid positive aligned) fun bar => List.mem_append.mp
      obtain ⟨answersAll, refuses⟩ := @run_readBack _ F _ environment _ _ _ _ _ known positive placed extendedGrid
      have covers := @covered_by_tail (series.bars.map (·.time)) _ _ _ _ _ _ positive rfl aligned behind answers.times
      have all : (∀ point ∈ Grid.points query.startMs query.endMs duration,
          point ∈ (storedBars (after.series directory)).map (·.time)) ↔
            ∀ point ∈ Grid.points query.startMs (endTime + duration) duration, point ∈ series.bars.map (·.time) := by
        simp only [held, List.map_append, List.mem_append]
        exact covers
      have some_read : rangeOf (after.series directory) (some query.startMs) (some query.endMs) ≠ [] := by
        apply List.ne_nil_of_mem (a := first)
        rw [stands]
        refine List.mem_filter.mpr ⟨by simp [grown], ?_⟩
        have := le_max_left query.startMs (endTime + duration)
        simpa [inRange] using ⟨by omega, beforeEnd⟩
      have ensured : (ensureStored query).run (handle environment) world = (.ok true, after) := ensures
      rw [continues, Calls.run_bind_ok _ ensured]
      constructor
      · rintro ⟨answer, final, returned, -⟩
        refine ⟨rfl, ?_⟩
        by_contra gap
        obtain ⟨error, raised⟩ := refuses (mt all.mp gap) some_read
        cases returned.symm.trans raised
      · rintro ⟨-, front⟩
        obtain ⟨answer, returned, times⟩ := answersAll (all.mpr front)
        exact ⟨answer, after, returned, times⟩

end Branches

section OneCall

variable [PyText] {F : Type} [PyFloat F] [Sha256] (D : Type) [PyDecimal D] [AggregateHash] [PySum F]
  {environment : Environment F} {world : World F} {query base : BarQuery} {duration : Int}
  {stored : Option (ClosedSeries F)}

/-- `fetch_bars` returns the bars at all grid points of the query. -/
def Completes {State : Type} (handler : Calls.Handler (StoreCall F) StoreCall.Reply PyError State)
    (config : HistoryConfig) (query : BarQuery) (duration : Int) (state : State) : Prop :=
  ∃ series after, (fetchBars D config query).run handler state = (.ok series, after) ∧
    series.bars.map ContractBar.time = Grid.points query.startMs query.endMs duration

omit [Sha256] in
theorem fetchBars_undivided (based : baseQuery environment.config query = .ok base)
    (undivided : base.timeframe = query.timeframe) :
    (fetchBars D environment.config query : Service F (BarSeries F)) = fetchStored query := by
  obtain rfl := baseQuery_eq based undivided
  rw [fetchBars, based, Calls.ofExcept_ok, Calls.done_bind, if_pos rfl]

/-- The call on the stored series, of which every bounded read finds what is stored. -/
theorem fetchBars_completes_iff (known : query.timeframe.durationMs = some duration) (positive : 0 < duration)
    (based : baseQuery environment.config query = .ok base) (undivided : base.timeframe = query.timeframe)
    (located : world.seriesOf query.key = .ok stored)
    (grid : OnGrid query duration (storedBars stored)) (source : SourceAnswers environment query duration) :
    Completes D (handle environment) environment.config query duration world ↔
      OnlyTailMissing query duration stored := by
  obtain ⟨directory, placed, rfl⟩ := World.seriesOf_eq_ok_iff.mp located
  rw [Completes, fetchBars_undivided D based undivided]
  by_cases behind : ∃ series endTime, world.series directory = some series ∧ series.endTime = some endTime ∧
      endTime + duration < query.endMs
  · obtain ⟨series, endTime, found, ends, behind⟩ := behind
    rw [found] at grid
    rw [run_fetchStored_tail known positive placed found grid source ends behind]
    constructor
    · intro enough other otherEnd same otherEnds _
      obtain rfl := Option.some.inj (found.symm.trans same)
      obtain rfl := Option.some.inj (ends.symm.trans otherEnds)
      exact enough
    · intro enough
      exact enough series endTime found ends behind
  · have enough : OnlyTailMissing query duration (world.series directory) := by
      intro series endTime found ends early
      exact absurd ⟨series, endTime, found, ends, early⟩ behind
    refine iff_of_true ?_ enough
    by_cases covered : ∀ point ∈ Grid.points query.startMs query.endMs duration,
        point ∈ (storedBars (world.series directory)).map (·.time)
    · obtain ⟨answer, returned, times⟩ := run_fetchStored_covered known positive placed grid covered
      exact ⟨answer, world, returned, times⟩
    · apply run_fetchStored_whole known positive placed grid source covered
      cases found : world.series directory with
      | none => rfl
      | some series =>
          cases ends : series.endTime with
          | none =>
              have span : (some series.span).bind SeriesSpan.endTime = none := ends
              rw [Option.map_some, missingTail]
              simp only [span]
          | some endTime =>
              have reached : ¬ endTime + duration < query.endMs := fun early =>
                behind ⟨series, endTime, found, ends, early⟩
              rw [Option.map_some, missingTail_eq known ends, dif_neg]
              intro ordered
              exact reached (lt_of_le_of_lt (le_max_right _ _) ordered)

end OneCall

section OnFiles

variable [PyText] {F : Type} [PyFloat F] [Sha256] [Parquet] (D : Type) [PyDecimal D] [AggregateHash] [PySum F]
  {environment : Environment F} {disk : FileWorld F} {world : World F} {query base : BarQuery} {duration : Int}
  {stored : Option (ClosedSeries F)} {store : SegmentStore} {owner : List String → SeriesKey}
  {pending : Nat → Bool}

/-- What the sources answer for the sub-ranges of a query that a call asks for can be stored and found again. -/
def AnswersFaithful (environment : Environment F) (query : BarQuery) (duration : Int) : Prop :=
  ∀ asked start, ∀ ordered : start < query.endMs, query.startMs ≤ start →
    (start - query.startMs) % duration = 0 → ∀ bars,
      fetchFromSources environment.config environment.now (environment.remote asked)
        (query.replaceStart start ordered) = .ok bars → ∀ bar ∈ bars, bar.Faithful

omit [Sha256] [Parquet] [AggregateHash] [PySum F] in
/-- What such sources deliver is fit for the series of the query. -/
theorem SourceAnswers.delivers (positive : 0 < duration) (source : SourceAnswers environment query duration)
    (faithful : AnswersFaithful environment query duration) :
    Delivers environment (OnQueryGrid query duration) (AsksTail query duration) := by
  rintro asked _ bars ⟨start, ordered, rfl, late, aligned⟩ answered directory - bar member
  refine ⟨faithful asked start ordered late aligned bars answered bar member, fun _ => ?_⟩
  obtain ⟨other, same, answers⟩ := source asked start ordered late aligned
  obtain rfl := Except.ok.inj (answered.symm.trans same)
  exact (answers.onGrid positive aligned).aligned bar member

/-- The files answer the call as the series do. -/
theorem Tracks.completes_iff (tracks : Tracks store owner (OnQueryGrid query duration) disk world)
    (owns : Owns owner query.key) (csv : store.dataFormat = .csv) (equality : FloatEquality F)
    (rounding : IntRounding F) (known : query.timeframe.durationMs = some duration)
    (based : baseQuery environment.config query = .ok base) (undivided : base.timeframe = query.timeframe)
    (delivers : Delivers environment (OnQueryGrid query duration) (AsksTail query duration)) :
    Completes D (handleFiles environment pending store) environment.config query duration disk ↔
      Completes D (handle environment) environment.config query duration world := by
  obtain ⟨directory, placed, -⟩ := seriesOf_query world query
  obtain ⟨same, -⟩ := (simulates_handleFiles csv equality rounding delivers).run
    (fetchStored_faithful known owns placed) tracks
  unfold Completes
  rw [fetchBars_undivided D based undivided]
  constructor
  · rintro ⟨series, after, returned, times⟩
    refine ⟨series, _, Prod.ext (same.symm.trans (congrArg Prod.fst returned)) rfl, times⟩
  · rintro ⟨series, after, returned, times⟩
    refine ⟨series, _, Prod.ext (same.trans (congrArg Prod.fst returned)) rfl, times⟩

/-- The call on the files of a store whose rows can be found again. -/
theorem one_call_completes_iff (tracks : Tracks store owner (OnQueryGrid query duration) disk world)
    (owns : Owns owner query.key) (csv : store.dataFormat = .csv) (equality : FloatEquality F)
    (rounding : IntRounding F) (known : query.timeframe.durationMs = some duration) (positive : 0 < duration)
    (based : baseQuery environment.config query = .ok base) (undivided : base.timeframe = query.timeframe)
    (located : world.seriesOf query.key = .ok stored)
    (grid : OnGrid query duration (storedBars stored)) (source : SourceAnswers environment query duration)
    (faithful : AnswersFaithful environment query duration) :
    Completes D (handleFiles environment pending store) environment.config query duration disk ↔
      OnlyTailMissing query duration stored :=
  (tracks.completes_iff D owns csv equality rounding known based undivided (source.delivers positive faithful)).trans
    (fetchBars_completes_iff D known positive based undivided located grid source)

end OnFiles

open Reference

open scoped Reference

/-- A source with the candle of every full minute that it is asked for. -/
def everyMinute : Environment Whole := ⟨⟨false, false, "1m", 0⟩, 0, fun _ => ⟨fun _ _ => .ok [],
  fun query => .ok (((Grid.points query.startMs query.endMs 60000).filter (· % 60000 = 0)).map candle)⟩⟩

def threeMinutes : BarQuery := minuteQuery 0 180000 (by decide)

theorem mem_threeMinutes {time : Int} (point : time = 0 ∨ time = 60000 ∨ time = 120000) :
    candle time ∈ fourMinutes := by
  rcases point with rfl | rfl | rfl
  · exact List.mem_cons_self
  · exact List.mem_cons_of_mem _ List.mem_cons_self
  · exact List.mem_cons_of_mem _ (List.mem_cons_of_mem _ List.mem_cons_self)

theorem candle_seriesBar {time : Int} (point : time = 0 ∨ time = 60000 ∨ time = 120000) :
    SeriesBar threeMinutes (candle time) := by
  have converts : (∃ made, contractBarOf threeMinutes (candle 0) = .ok made) ∧
      (∃ made, contractBarOf threeMinutes (candle 60000) = .ok made) ∧
      ∃ made, contractBarOf threeMinutes (candle 120000) = .ok made :=
    ⟨eq_ok_of_toBool (by decide +kernel), eq_ok_of_toBool (by decide +kernel), eq_ok_of_toBool (by decide +kernel)⟩
  refine ⟨fourMinutes_admissible _ (mem_threeMinutes point), rfl, ?_⟩
  rcases point with rfl | rfl | rfl
  · exact converts.1
  · exact converts.2.1
  · exact converts.2.2

/-- The minutes of an answer. -/
theorem minute_of_answer {start time : Int} (from_start : 0 ≤ start)
    (member : time ∈ (Grid.points start 180000 60000).filter (· % 60000 = 0)) :
    time = 0 ∨ time = 60000 ∨ time = 120000 := by
  obtain ⟨point, minute⟩ := List.mem_filter.mp member
  obtain ⟨late, early, -⟩ := (Grid.mem_points_iff (by decide)).mp point
  have step : time % 60000 = 0 := of_decide_eq_true minute
  omega

theorem everyMinute_answers : SourceAnswers everyMinute threeMinutes 60000 := by
  intro asked start ordered from_start aligned
  change (0 : Int) ≤ start at from_start
  change (start - 0) % 60000 = 0 at aligned
  refine ⟨((Grid.points start 180000 60000).filter (· % 60000 = 0)).map candle, rfl, ?_, ?_⟩
  · rw [List.map_map]
    refine (List.map_id _).trans (List.filter_eq_self.mpr fun time member => ?_)
    obtain ⟨-, -, step⟩ := (Grid.mem_points_iff (by decide)).mp member
    exact decide_eq_true (by omega)
  · intro bar member
    obtain ⟨time, point, rfl⟩ := List.mem_map.mp member
    exact candle_seriesBar (minute_of_answer from_start point)

theorem everyMinute_faithful : AnswersFaithful everyMinute threeMinutes 60000 := by
  intro asked start ordered from_start aligned bars answered bar member
  change Except.ok (((Grid.points start 180000 60000).filter (· % 60000 = 0)).map candle) = Except.ok bars at answered
  obtain rfl := Except.ok.inj answered
  obtain ⟨time, point, rfl⟩ := List.mem_map.mp member
  exact fourMinutes_faithful _ (mem_threeMinutes (minute_of_answer from_start point))

theorem middleCandle_onGrid : OnGrid threeMinutes 60000 (storedBars (some middleCandle)) where
  aligned := List.forall_mem_singleton.mpr rfl
  converts := List.forall_mem_singleton.mpr (candle_seriesBar (.inr (.inl rfl))).converts

/-- A hole in front of the stored candle and a missing tail: the tail is fetched, and then the call fails. -/
theorem one_call_leaves_hole : ∃ owner disk,
    Tracks ⟨.csv, true, false⟩ owner (OnQueryGrid threeMinutes 60000) disk (oneSeries middleCandle) ∧
    OnGrid threeMinutes 60000 (storedBars (some middleCandle)) ∧
    SourceAnswers everyMinute threeMinutes 60000 ∧
    ¬ Completes Whole (handleFiles everyMinute (fun _ => false) ⟨.csv, true, false⟩) everyMinute.config threeMinutes
      60000 disk := by
  obtain ⟨owner, disk, tracks, owns⟩ := @minutes_tracks middleCandle (OnQueryGrid threeMinutes 60000)
    rfl (List.forall_mem_singleton.mpr (mem_threeMinutes (.inr (.inl rfl))))
    (List.forall_mem_singleton.mpr fun _ => rfl)
  refine ⟨owner, disk, tracks, middleCandle_onGrid, everyMinute_answers, fun completes => ?_⟩
  rw [tracks.completes_iff Whole owns rfl wholeEquality wholeRoundings (show _ = some 60000 from rfl)
    (show _ = Except.ok threeMinutes from rfl) rfl
    (everyMinute_answers.delivers (by decide) everyMinute_faithful)] at completes
  have whole := (fetchBars_completes_iff Whole (show _ = some 60000 from rfl) (by decide)
    (show _ = Except.ok threeMinutes from rfl) rfl (seriesOf_oneSeries middleCandle) middleCandle_onGrid
    everyMinute_answers).mp completes
  obtain ⟨-, front⟩ := whole middleCandle 60000 rfl rfl (by decide)
  have hole : (0 : Int) ∈ [(60000 : Int)] := front 0 ((Grid.mem_points_iff (by decide)).mpr (by decide))
  cases List.mem_singleton.mp hole

/-- A series of the first minute. -/
def firstCandle : ClosedSeries Whole where
  format := .csv
  bars := [candle 0]
  sorted := List.pairwise_singleton _ _
  formed := List.forall_mem_singleton.mpr (candle_formed 0)
  digested := List.forall_mem_singleton.mpr (candle_seriesBar (.inl rfl)).admissible.digested

/-- The same source behind the first minute: only the tail is missing. -/
theorem one_call_completes_tail : ∃ owner disk,
    Tracks ⟨.csv, true, false⟩ owner (OnQueryGrid threeMinutes 60000) disk (oneSeries firstCandle) ∧
    Completes Whole (handleFiles everyMinute (fun _ => false) ⟨.csv, true, false⟩) everyMinute.config threeMinutes
      60000 disk := by
  obtain ⟨owner, disk, tracks, owns⟩ := @minutes_tracks firstCandle (OnQueryGrid threeMinutes 60000)
    rfl (List.forall_mem_singleton.mpr (mem_threeMinutes (.inl rfl)))
    (List.forall_mem_singleton.mpr fun _ => rfl)
  have grid : OnGrid threeMinutes 60000 (storedBars (some firstCandle)) :=
    ⟨List.forall_mem_singleton.mpr rfl, List.forall_mem_singleton.mpr (candle_seriesBar (.inl rfl)).converts⟩
  refine ⟨owner, disk, tracks, (one_call_completes_iff Whole tracks owns rfl wholeEquality
    wholeRoundings (show _ = some 60000 from rfl) (by decide) (show _ = Except.ok threeMinutes from rfl) rfl
    (seriesOf_oneSeries firstCandle) grid everyMinute_answers everyMinute_faithful).mpr ?_⟩
  rintro series endTime ⟨⟩ ⟨⟩ -
  refine ⟨rfl, ?_⟩
  change ∀ point ∈ Grid.points 0 60000 60000, point ∈ [(0 : Int)]
  decide

end MarketdataProvider
