import Mathlib.Data.List.ReduceOption
import MarketdataProvider.Store.FootprintStore

namespace MarketdataProvider

open Foundation

section Columns

variable [PyText] {F : Type} [PyFloat F] {row : CsvRow} {name text : String}

theorem intColumn_of_get {value : Int} (found : row.get name = some (some text))
    (read : pyInt text.toList = some value) : row.intColumn name = .ok value := by
  simp [CsvRow.intColumn, found, read]

omit [PyText] in
theorem floatColumn_of_get {value : F} (found : row.get name = some (some text))
    (read : PyFloat.parse text = .ok value) : row.floatColumn name = .ok value := by
  simp [CsvRow.floatColumn, found, read]

/-- A number whose text is read as the number. -/
def IntReadable (value : Int) : Prop := pyInt (toString value).toList = some value

/-- A level whose numbers all come back from their texts. -/
structure FootprintLevel.Readable (level : FootprintLevel F) : Prop where
  priceLow : FloatSurvives level.priceLow
  priceHigh : FloatSurvives level.priceHigh
  buyVolume : FloatSurvives level.buyVolume
  sellVolume : FloatSurvives level.sellVolume
  buyCount : IntReadable level.buyCount
  sellCount : IntReadable level.sellCount

/-- A bar that the file keeps: it has a level, its levels are sorted, and its numbers come back. -/
structure FootprintBar.Readable (bar : FootprintBar F) : Prop where
  nonempty : bar.levels ≠ []
  sorted : bar.levels.Pairwise fun left right => PyFloat.lt right.priceLow left.priceLow = false
  time : IntReadable bar.time
  timeClose : IntReadable bar.timeClose
  tradesCount : IntReadable bar.tradesCount
  levels : ∀ level ∈ bar.levels, level.Readable
  fits : ∀ level ∈ bar.levels, ∀ cell ∈ footprintRow bar level, cell.2.toList.length ≤ fieldSizeLimit

def footprintCells (bar : FootprintBar F) (level : FootprintLevel F) : CsvRow :=
  (footprintRow bar level).map fun cell => (cell.1, some cell.2)

/-- A written row is read as its level, unless the range leaves it out. -/
theorem footprintEntry_cells {bar : FootprintBar F} {level : FootprintLevel F} (readable : bar.Readable)
    (member : level ∈ bar.levels) (start stop : Int) :
    footprintEntry start stop (footprintCells bar level) =
      .ok (if start ≤ bar.time ∧ bar.time < stop then
        some ⟨bar.time, bar.timeClose, bar.tradesCount, level⟩ else none) := by
  have inner := readable.levels level member
  have time : (footprintCells bar level).intColumn "time" = .ok bar.time :=
    intColumn_of_get rfl readable.time
  have timeClose : (footprintCells bar level).intColumn "time_close" = .ok bar.timeClose :=
    intColumn_of_get rfl readable.timeClose
  have tradesCount : (footprintCells bar level).intColumn "trades_count" = .ok bar.tradesCount :=
    intColumn_of_get rfl readable.tradesCount
  have priceLow : (footprintCells bar level).floatColumn "price_low" = .ok level.priceLow :=
    floatColumn_of_get rfl inner.priceLow
  have priceHigh : (footprintCells bar level).floatColumn "price_high" = .ok level.priceHigh :=
    floatColumn_of_get rfl inner.priceHigh
  have buyVolume : (footprintCells bar level).floatColumn "buy_volume" = .ok level.buyVolume :=
    floatColumn_of_get rfl inner.buyVolume
  have sellVolume : (footprintCells bar level).floatColumn "sell_volume" = .ok level.sellVolume :=
    floatColumn_of_get rfl inner.sellVolume
  have buyCount : (footprintCells bar level).intColumn "buy_count" = .ok level.buyCount :=
    intColumn_of_get rfl inner.buyCount
  have sellCount : (footprintCells bar level).intColumn "sell_count" = .ok level.sellCount :=
    intColumn_of_get rfl inner.sellCount
  rw [footprintEntry, time, ok_bind]
  split
  · rw [timeClose, tradesCount, priceLow, priceHigh, buyVolume, sellVolume, buyCount, sellCount]
    rfl
  · rfl

end Columns

section File

variable [PyText] {F : Type} [PyFloat F] {bars : List (FootprintBar F)} {start stop : Int}

omit [PyText] in
theorem footprintFields_fit : ∀ field ∈ footprintFields, field.toList.length ≤ fieldSizeLimit := by
  decide

theorem csvStream_footprintFile (readable : ∀ bar ∈ bars, bar.Readable) : csvStream (footprintFile bars) =
    .ok ⟨footprintFields :: (footprintRows bars).map (·.map Prod.snd), none⟩ := by
  apply csvStream_records
  intro record member
  rcases List.mem_cons.mp member with rfl | written
  · exact footprintFields_fit
  · obtain ⟨row, inRows, rfl⟩ := List.mem_map.mp written
    obtain ⟨bar, inBars, ofBar⟩ := List.mem_flatMap.mp inRows
    obtain ⟨level, inLevels, rfl⟩ := List.mem_map.mp ofBar
    intro field inRow
    obtain ⟨cell, inCells, rfl⟩ := List.mem_map.mp inRow
    exact (readable bar inBars).fits level inLevels cell inCells

omit [PyText] in
theorem dictRows_footprint :
    dictRows ⟨footprintFields :: (footprintRows bars).map (·.map Prod.snd), none⟩ =
      bars.flatMap fun bar => bar.levels.map (footprintCells bar) := by
  have nonblank : ((footprintRows bars).map (·.map Prod.snd)).filter (· ≠ []) =
      (footprintRows bars).map (·.map Prod.snd) := by
    rw [List.filter_eq_self]
    intro record member
    obtain ⟨row, inRows, rfl⟩ := List.mem_map.mp member
    obtain ⟨bar, _, ofBar⟩ := List.mem_flatMap.mp inRows
    obtain ⟨level, _, rfl⟩ := List.mem_map.mp ofBar
    simp [footprintRow]
  simp only [dictRows]
  rw [nonblank]
  simp only [footprintRows, List.map_map, List.map_flatMap]
  rfl

/-- The entries of a bar, one for each level. -/
def footprintEntries (bar : FootprintBar F) : List (FootprintEntry F) :=
  bar.levels.map fun level => ⟨bar.time, bar.timeClose, bar.tradesCount, level⟩

/-- The rows of each bar are read as its entries, and those outside of the range as nothing. -/
theorem mapM_footprintEntry (readable : ∀ bar ∈ bars, bar.Readable) :
    (bars.flatMap fun bar => bar.levels.map (footprintCells bar)).mapM (footprintEntry (F := F) start stop) =
      .ok (bars.flatMap fun bar => (footprintEntries bar).map fun entry =>
        if start ≤ bar.time ∧ bar.time < stop then some entry else none) := by
  have rows : (bars.flatMap fun bar => bar.levels.map (footprintCells bar)) =
      (bars.flatMap fun bar => bar.levels.map (Prod.mk bar)).map fun pair =>
        footprintCells pair.1 pair.2 := by
    simp [List.map_flatMap, Function.comp_def]
  have entries : (bars.flatMap fun bar => (footprintEntries bar).map fun entry =>
        if start ≤ bar.time ∧ bar.time < stop then some entry else none) =
      (bars.flatMap fun bar => bar.levels.map (Prod.mk bar)).map fun pair =>
        if start ≤ pair.1.time ∧ pair.1.time < stop then
          some ⟨pair.1.time, pair.1.timeClose, pair.1.tradesCount, pair.2⟩ else none := by
    simp [List.map_flatMap, footprintEntries, Function.comp_def]
  rw [rows, entries, mapM_eq_ok, List.forall₂_map_left_iff, List.forall₂_map_right_iff, List.forall₂_same]
  rintro ⟨bar, level⟩ member
  obtain ⟨_, inBars, inside⟩ := List.mem_flatMap.mp member
  obtain ⟨_, inLevels, same⟩ := List.mem_map.mp inside
  cases same
  exact footprintEntry_cells (readable bar inBars) inLevels start stop

omit [PyText] [PyFloat F] in
theorem reduceOption_entries :
    (bars.flatMap fun bar => (footprintEntries bar).map fun entry =>
      if start ≤ bar.time ∧ bar.time < stop then some entry else none).reduceOption =
      (footprintWithin start stop bars).flatMap footprintEntries := by
  rw [List.reduceOption]
  induction bars with
  | nil => rfl
  | cons bar bars ih =>
      rw [List.flatMap_cons, List.filterMap_append, ih, footprintWithin, footprintWithin, List.filter_cons]
      by_cases inside : start ≤ bar.time ∧ bar.time < stop
      · simp [inside, List.filterMap_map]
      · simp [inside, List.filterMap_map]

omit [PyText] in
/-- Entries that come bar by bar, in the order of the times, form the bars again. -/
theorem footprintBarsOf_entries (nonempty : ∀ bar ∈ bars, bar.levels ≠ [])
    (levels : ∀ bar ∈ bars, sortLevels bar.levels = bar.levels)
    (sorted : bars.Pairwise (·.time < ·.time)) :
    footprintBarsOf (bars.flatMap footprintEntries) = bars := by
  have groups : Grouping.groupBy FootprintEntry.time (bars.flatMap footprintEntries) =
      bars.map fun bar => (bar.time, footprintEntries bar) := by
    have split : bars.flatMap footprintEntries =
        (bars.map fun bar => (bar.time, footprintEntries bar)).flatMap Prod.snd := by
      rw [List.flatMap_map]
    rw [split]
    apply Grouping.groupBy_flatMap
    · rw [List.map_map]
      exact Keyed.nodup_of_sorted sorted
    · intro group member
      obtain ⟨bar, inBars, rfl⟩ := List.mem_map.mp member
      simpa [footprintEntries] using nonempty bar inBars
    · intro group member entry inside
      obtain ⟨bar, inBars, rfl⟩ := List.mem_map.mp member
      obtain ⟨level, _, rfl⟩ := List.mem_map.mp inside
      rfl
  have back : ∀ bar ∈ bars, footprintBarOf (bar.time, footprintEntries bar) = bar := by
    intro bar member
    obtain ⟨last, ends⟩ : ∃ last, bar.levels.getLast? = some last :=
      Option.isSome_iff_exists.mp (by simpa using nonempty bar member)
    have same : (footprintEntries bar).map FootprintEntry.level = bar.levels := by
      simp [footprintEntries, Function.comp_def]
    have final : (footprintEntries bar).getLast? =
        some ⟨bar.time, bar.timeClose, bar.tradesCount, last⟩ := by
      simp [footprintEntries, ends]
    simp [footprintBarOf, same, final, levels bar member]
  have restored : (bars.map fun bar => (bar.time, footprintEntries bar)).map footprintBarOf = bars := by
    rw [List.map_map]
    conv_rhs => rw [← List.map_id bars]
    exact List.map_congr_left back
  rw [footprintBarsOf, groups, restored]
  exact (sorted.imp le_of_lt).insertionSort_eq

/-- A written file is read as its bars of the range. -/
theorem readFootprintBars_footprintFile (readable : ∀ bar ∈ bars, bar.Readable)
    (sorted : bars.Pairwise (·.time < ·.time)) :
    readFootprintBars (some (footprintFile bars)) start stop = .ok (footprintWithin start stop bars) := by
  have inside : ∀ bar ∈ footprintWithin start stop bars, bar ∈ bars := fun bar member =>
    (List.mem_filter.mp member).1
  rw [readFootprintBars, csvStream_footprintFile readable, ok_bind, dictRows_footprint,
    mapM_footprintEntry readable, ok_bind, endOfStream, ok_bind, reduceOption_entries,
    footprintBarsOf_entries]
  · rfl
  · exact fun bar member => (readable bar (inside bar member)).nonempty
  · intro bar member
    exact (readable bar (inside bar member)).sorted.insertionSort_eq
  · exact sorted.filter _

end File

section Runs

variable [PyText] [Sha256] {F : Type} [PyFloat F]

/-- The manifest's count, bounds and digest are those of the bars. -/
structure FootprintManifest.Describes (manifest : FootprintManifest F) (bars : List (FootprintBar F)) :
    Prop where
  rowsCount : manifest.rowsCount = (footprintRows bars).length
  startTime : manifest.startTime = bars.head?.map FootprintBar.time
  endTime : manifest.endTime = bars.getLast?.map FootprintBar.timeClose
  checksum : manifest.checksum = footprintChecksum bars

/-- The file is the one of some bars, all of which can be read, and the manifest describes them. -/
def FootprintFiles.Described (files : FootprintFiles F) : Prop :=
  ∀ bytes, files.data = some bytes → ∃ manifest bars, files.manifest = some manifest ∧
    bytes = footprintFile bars ∧ manifest.Describes bars ∧
      ∀ start stop, readFootprintBars (some bytes) start stop = .ok (footprintWithin start stop bars)

def writeAllFootprints (files : FootprintFiles F) (writes : List (FootprintSeries F)) :
    Except PyError (FootprintFiles F) :=
  writes.foldlM (fun files series => writeFootprint files series.query series.bars) files

/-- A write reads the old bars through its own range. -/
def FootprintSeries.asWrite (series : FootprintSeries F) : WindowedMerge.Write Int (FootprintBar F) where
  window time := series.query.startMs ≤ time ∧ time < series.query.endMs
  values := series.bars

/-- What every write leaves: the file of some bars in order, or no file and no bars. -/
structure FootprintFiles.Holds (files : FootprintFiles F) (bars : List (FootprintBar F)) : Prop where
  data : files.data = some (footprintFile bars) ∨ files.data = none ∧ bars = []
  manifest : files.data ≠ none → ∃ manifest, files.manifest = some manifest ∧ manifest.Describes bars
  readable : ∀ bar ∈ bars, bar.Readable
  sorted : bars.Pairwise (·.time < ·.time)

variable {files : FootprintFiles F} {bars : List (FootprintBar F)} {series query : FootprintQuery F}
  {writes : List (FootprintSeries F)}

theorem holds_empty : (FootprintFiles.empty : FootprintFiles F).Holds [] :=
  ⟨.inr ⟨rfl, rfl⟩, fun present => absurd rfl present, nofun, .nil⟩

theorem FootprintFiles.Holds.readBars (holds : files.Holds bars) (start stop : Int) :
    readFootprintBars files.data start stop = .ok (footprintWithin start stop bars) := by
  rcases holds.data with stored | ⟨missing, rfl⟩
  · rw [stored]
    exact readFootprintBars_footprintFile holds.readable holds.sorted
  · rw [missing]
    rfl

theorem FootprintFiles.Holds.described (holds : files.Holds bars) : files.Described := by
  intro bytes present
  rcases holds.data with stored | ⟨missing, -⟩
  · rw [stored, Option.some_inj] at present
    subst present
    obtain ⟨manifest, kept, describes⟩ := holds.manifest (by simp [stored])
    exact ⟨manifest, bars, kept, rfl, describes, fun start stop => stored ▸ holds.readBars start stop⟩
  · rw [missing] at present
    cases present

omit [Sha256] in
theorem footprintCoverage_returns (positive : query.duration ≠ 0) (bars : List (FootprintBar F)) :
    ∃ coverage, footprintCoverage query bars = .ok coverage := by
  rw [footprintCoverage, pyRange, if_neg positive, ok_bind]
  exact ⟨_, rfl⟩

theorem FootprintFiles.Holds.read (holds : files.Holds bars) (query : FootprintQuery F)
    (positive : query.duration ≠ 0) : ∃ coverage, readFootprint files query =
      .ok ⟨query, footprintWithin query.startMs query.endMs bars, coverage⟩ := by
  obtain ⟨coverage, covered⟩ :=
    footprintCoverage_returns positive (footprintWithin query.startMs query.endMs bars)
  refine ⟨coverage, ?_⟩
  rw [readFootprint, holds.readBars, ok_bind, covered, ok_bind]
  rfl

theorem describes_footprintManifest : (footprintManifest query bars).Describes bars where
  rowsCount := by simp [footprintManifest, footprintRows]
  startTime := rfl
  endTime := rfl
  checksum := rfl

/-- One write merges its bars with those that its range shows. -/
theorem FootprintFiles.Holds.write (holds : files.Holds bars) {series : FootprintSeries F}
    (positive : series.query.duration ≠ 0) (readable : ∀ bar ∈ series.bars, bar.Readable) :
    ∃ after, writeFootprint files series.query series.bars = .ok after ∧
      after.Holds (WindowedMerge.merge FootprintBar.time bars series.asWrite) := by
  obtain ⟨coverage, read⟩ := holds.read series.query positive
  refine ⟨_, by rw [writeFootprint, read, ok_bind]; rfl, ?_⟩
  exact {
    data := .inl rfl
    manifest := fun _ => ⟨_, rfl, describes_footprintManifest⟩
    readable := by
      intro bar member
      rcases List.mem_append.mp (Keyed.mem_byKey member) with old | new
      · exact holds.readable bar (List.mem_filter.mp old).1
      · exact readable bar new
    sorted := Keyed.byKey_sorted }

/-- The whole run is a run of merges. -/
theorem FootprintFiles.Holds.writeAll (holds : files.Holds bars)
    (positive : ∀ write ∈ writes, write.query.duration ≠ 0)
    (readable : ∀ write ∈ writes, ∀ bar ∈ write.bars, bar.Readable) :
    ∃ after, writeAllFootprints files writes = .ok after ∧
      after.Holds (WindowedMerge.run FootprintBar.time bars (writes.map FootprintSeries.asWrite)) := by
  induction writes generalizing files bars with
  | nil => exact ⟨files, rfl, holds⟩
  | cons write back ih =>
      obtain ⟨middle, written, kept⟩ :=
        holds.write (positive write List.mem_cons_self) (readable write List.mem_cons_self)
      obtain ⟨after, rest, final⟩ := ih kept (fun later member => positive later (.tail _ member))
        fun later member => readable later (.tail _ member)
      refine ⟨after, ?_, final⟩
      rw [writeAllFootprints, List.foldlM_cons, written, ok_bind]
      exact rest

omit [Sha256] [PyText] [PyFloat F] in
/-- Bars in order are known from what each range shows of them. -/
theorem eq_of_footprintWithin {others : List (FootprintBar F)} (sorted : bars.Pairwise (·.time < ·.time))
    (otherSorted : others.Pairwise (·.time < ·.time))
    (same : ∀ time, footprintWithin time (time + 1) bars = footprintWithin time (time + 1) others) :
    bars = others := by
  apply Keyed.eq_of_find_eq sorted otherSorted
  intro time
  have single (values : List (FootprintBar F)) :
      Keyed.find FootprintBar.time values time = (footprintWithin time (time + 1) values).head? := by
    rw [Keyed.find, footprintWithin, List.head?_filter]
    congr 1
    funext bar
    rw [decide_eq_decide]
    omega
  rw [single, single, same]

/-- The reads return the last write of each time, and the manifest describes the file, exactly when
every bar that no later write replaces lies in the range of each later write. -/
theorem footprints_remembered_iff (positive : series.duration ≠ 0)
    (shared : ∀ write ∈ writes, write.query.SharesFile series)
    (readable : ∀ write ∈ writes, ∀ bar ∈ write.bars, bar.Readable) :
    ∃ after, writeAllFootprints FootprintFiles.empty writes = .ok after ∧
      ((∀ query : FootprintQuery F, query.SharesFile series → ∃ coverage, readFootprint after query =
          .ok ⟨query, footprintWithin query.startMs query.endMs
            (Keyed.byKey FootprintBar.time (writes.flatMap FootprintSeries.bars)), coverage⟩) ∧
        after.Described ↔
        WindowedMerge.Kept FootprintBar.time (writes.map FootprintSeries.asWrite)) := by
  obtain ⟨after, written, holds⟩ := holds_empty.writeAll
    (fun write member => (shared write member).duration ▸ positive) readable
  have whole : Keyed.byKey FootprintBar.time (writes.flatMap FootprintSeries.bars) =
      WindowedMerge.whole FootprintBar.time (writes.map FootprintSeries.asWrite) := by
    rw [WindowedMerge.whole, List.flatMap_map]
    rfl
  refine ⟨after, written, ?_⟩
  rw [← WindowedMerge.run_eq_whole_iff, whole]
  constructor
  · rintro ⟨reads, -⟩
    apply eq_of_footprintWithin holds.sorted Keyed.byKey_sorted
    intro time
    let single : FootprintQuery F :=
      { series with startMs := time, endMs := time + 1, ordered := by omega }
    obtain ⟨coverage, read⟩ := reads single ⟨rfl, rfl, rfl⟩
    obtain ⟨other, found⟩ := holds.read single positive
    rw [found, Except.ok.injEq, FootprintSeries.mk.injEq] at read
    exact read.2.1
  · intro kept
    refine ⟨fun query shares => ?_, holds.described⟩
    rw [← kept]
    exact holds.read query (shares.duration ▸ positive)

end Runs

end MarketdataProvider

namespace MarketdataProvider

open Reference Foundation
open scoped Reference

namespace Reference

def minuteFootprint (startMs endMs : Int) (ordered : startMs < endMs) : FootprintQuery Whole where
  instrument := btcusdt
  timeframe := minute
  startMs := startMs
  endMs := endMs
  bucketSize := ⟨1⟩
  source := .auto
  gapPolicy := .fail
  duration := 60000
  ordered := ordered
  fixed := rfl
  positive := by decide

/-- One trade in the minute. -/
def minuteBar (time : Int) : FootprintBar Whole where
  time := time
  timeClose := time + 60000
  levels := [⟨⟨7⟩, ⟨8⟩, ⟨1⟩, ⟨0⟩, 1, 0⟩]
  tradesCount := 1

def minuteSeries (query : FootprintQuery Whole) (times : List Int) : FootprintSeries Whole where
  query := query
  bars := times.map minuteBar
  coverage := ⟨query.startMs, query.endMs, none, none, [], [], [], .valid⟩

/-- The second write's range holds the bar of the first one. -/
def nestedWrites : List (FootprintSeries Whole) :=
  [minuteSeries (minuteFootprint 0 60000 minute_positive) [0],
    minuteSeries (minuteFootprint 0 120000 (by decide)) [60000]]

/-- One minute, and then the next one. -/
def adjacentWrites : List (FootprintSeries Whole) :=
  [minuteSeries (minuteFootprint 0 60000 minute_positive) [0],
    minuteSeries (minuteFootprint 60000 120000 (by decide)) [60000]]

theorem minuteBar_readable {time : Int} (known : time = 0 ∨ time = 60000) : (minuteBar time).Readable := by
  rcases known with rfl | rfl
  all_goals exact {
    nonempty := by decide
    sorted := by decide
    time := by unfold IntReadable; decide +kernel
    timeClose := by unfold IntReadable; decide +kernel
    tradesCount := by unfold IntReadable; decide +kernel
    levels := by
      intro level member
      rw [List.mem_singleton.mp member]
      exact {
        priceLow := eq_ok_of_toOption (by decide +kernel)
        priceHigh := eq_ok_of_toOption (by decide +kernel)
        buyVolume := eq_ok_of_toOption (by decide +kernel)
        sellVolume := eq_ok_of_toOption (by decide +kernel)
        buyCount := by unfold IntReadable; decide +kernel
        sellCount := by unfold IntReadable; decide +kernel }
    fits := by decide +kernel }

end Reference

/-- A write over the range of an earlier one keeps its bars. -/
theorem footprints_remembered_nested :
    ∃ after, writeAllFootprints FootprintFiles.empty nestedWrites = .ok after ∧
      (∀ query : FootprintQuery Whole, query.SharesFile (minuteFootprint 0 60000 (by decide)) →
        ∃ coverage, readFootprint after query = .ok ⟨query, footprintWithin query.startMs query.endMs
          (Keyed.byKey FootprintBar.time (nestedWrites.flatMap FootprintSeries.bars)), coverage⟩) ∧
      after.Described := by
  have shared : ∀ write ∈ nestedWrites, write.query.SharesFile (minuteFootprint 0 60000 (by decide)) := by
    simp [nestedWrites, minuteSeries, minuteFootprint, FootprintQuery.SharesFile]
  have readable : ∀ write ∈ nestedWrites, ∀ bar ∈ write.bars, bar.Readable := by
    simp [nestedWrites, minuteSeries, minuteBar_readable]
  obtain ⟨after, written, remembered⟩ := footprints_remembered_iff (by decide) shared readable
  refine ⟨after, written, remembered.mpr ?_⟩
  simp [nestedWrites, WindowedMerge.Kept, FootprintSeries.asWrite, minuteSeries, minuteFootprint, minuteBar]

/-- The write of the next minute removes the minute before it. -/
theorem adjacent_write_forgets :
    ∃ after, writeAllFootprints FootprintFiles.empty adjacentWrites = .ok after ∧
      ¬ ∀ query : FootprintQuery Whole, query.SharesFile (minuteFootprint 0 60000 (by decide)) →
        ∃ coverage, readFootprint after query = .ok ⟨query, footprintWithin query.startMs query.endMs
          (Keyed.byKey FootprintBar.time (adjacentWrites.flatMap FootprintSeries.bars)), coverage⟩ := by
  have positive : ∀ write ∈ adjacentWrites, write.query.duration ≠ 0 := by
    simp [adjacentWrites, minuteSeries, minuteFootprint]
  have readable : ∀ write ∈ adjacentWrites, ∀ bar ∈ write.bars, bar.Readable := by
    simp [adjacentWrites, minuteSeries, minuteBar_readable]
  obtain ⟨after, written, holds⟩ := holds_empty.writeAll positive readable
  refine ⟨after, written, fun remembered => ?_⟩
  obtain ⟨coverage, read⟩ := remembered (minuteFootprint 0 60000 (by decide)) ⟨rfl, rfl, rfl⟩
  obtain ⟨other, found⟩ := holds.read (minuteFootprint 0 60000 (by decide)) (by decide)
  rw [found, Except.ok.injEq, FootprintSeries.mk.injEq] at read
  exact absurd read.2.1 (by decide +kernel)

end MarketdataProvider
