import MarketdataProvider.Foundation.Refinement
import MarketdataProvider.Store.ClosedSeries
import MarketdataProvider.Store.LegacyRollback
import MarketdataProvider.Store.RangedRead
import MarketdataProvider.Store.TailReader

namespace MarketdataProvider

open Foundation Foundation.Crash

section NormalForm

variable [PyText] {F : Type}

/-- A bar as a read gives it back: its names in one spelling, and nothing that has no column. -/
def MarketBar.normalForm (bar : MarketBar F) : MarketBar F :=
  bar.persisted ((canonicalTimeframe bar.timeframe).toOption.getD bar.timeframe)

variable {bar : MarketBar F} {bars normalized : List (MarketBar F)} {time : Int}

theorem normalForm_of_timeframe {timeframe : String}
    (accepted : canonicalTimeframe bar.timeframe = .ok timeframe) :
    bar.normalForm = bar.persisted timeframe := by
  rw [MarketBar.normalForm, accepted]
  rfl

@[simp] theorem time_normalForm (bar : MarketBar F) : bar.normalForm.time = bar.time := rfl

theorem normalizedBar_normalForm (known : ∃ timeframe, canonicalTimeframe bar.timeframe = .ok timeframe) :
    normalizedBar bar = .ok bar.normalForm := by
  obtain ⟨timeframe, accepted⟩ := known
  exact normalizedBar_eq_ok.mpr ⟨timeframe, accepted, (normalForm_of_timeframe accepted).symm⟩

theorem mapM_normalForm
    (known : ∀ bar ∈ bars, ∃ timeframe, canonicalTimeframe bar.timeframe = .ok timeframe) :
    bars.mapM normalizedBar = .ok (bars.map MarketBar.normalForm) := by
  induction bars with
  | nil => rfl
  | cons bar rest ih =>
      rw [List.forall_mem_cons] at known
      rw [List.mapM_cons, normalizedBar_normalForm known.1, ih known.2]
      rfl

theorem barAt_map_normalForm : barAt (bars.map MarketBar.normalForm) time =
    (barAt bars time).map MarketBar.normalForm := by
  rw [barAt, Keyed.find, List.find?_map]
  rfl

variable [PyFloat F]

theorem updateChecksum_normalForm (version : ChecksumVersion)
    (known : ∃ timeframe, canonicalTimeframe bar.timeframe = .ok timeframe) :
    updateChecksum version bar.normalForm = updateChecksum version bar := by
  obtain ⟨timeframe, accepted⟩ := known
  rw [normalForm_of_timeframe accepted, updateChecksum_persisted version accepted]

theorem formed_normalForm (formed : bar.WellFormed) : bar.normalForm.WellFormed := formed

namespace ClosedSeries

theorem timeframes (series : ClosedSeries F) :
    ∀ bar ∈ series.bars, ∃ timeframe, canonicalTimeframe bar.timeframe = .ok timeframe := by
  intro bar member
  obtain ⟨row, digested⟩ := series.digested bar member
  exact timeframe_of_updateChecksum digested

/-- The series as its files give it back. -/
def normalize (series : ClosedSeries F) : ClosedSeries F where
  format := series.format
  bars := series.bars.map MarketBar.normalForm
  sorted := by
    rw [List.pairwise_map]
    exact series.sorted
  formed := by
    intro bar member
    obtain ⟨old, inside, rfl⟩ := List.mem_map.mp member
    exact formed_normalForm (series.formed old inside)
  digested := by
    intro bar member
    obtain ⟨old, inside, rfl⟩ := List.mem_map.mp member
    obtain ⟨row, digested⟩ := series.digested old inside
    exact ⟨row, (updateChecksum_normalForm .v4 (series.timeframes old inside)).trans digested⟩

@[simp] theorem format_normalize (series : ClosedSeries F) : series.normalize.format = series.format := rfl

@[simp] theorem bars_normalize (series : ClosedSeries F) :
    series.normalize.bars = series.bars.map MarketBar.normalForm := rfl

end ClosedSeries

omit [PyFloat F] in
/-- A bar that is spelled as a read gives it back. -/
def MarketBar.Normal (bar : MarketBar F) : Prop := bar.normalForm = bar

omit [PyFloat F] in
theorem normal_normalForm (known : ∃ timeframe, canonicalTimeframe bar.timeframe = .ok timeframe) :
    bar.normalForm.Normal := by
  obtain ⟨timeframe, accepted⟩ := known
  have again : canonicalTimeframe (bar.persisted timeframe).timeframe = .ok timeframe :=
    canonicalTimeframe_idempotent accepted
  rw [MarketBar.Normal, normalForm_of_timeframe accepted, normalForm_of_timeframe again,
    MarketBar.persisted_persisted]

omit [PyFloat F] in
theorem map_normalForm_of_normal (normal : ∀ bar ∈ bars, bar.Normal) :
    bars.map MarketBar.normalForm = bars := by
  exact (List.map_congr_left normal).trans (List.map_id bars)

theorem ClosedSeries.normalize_of_normal {series : ClosedSeries F}
    (normal : ∀ bar ∈ series.bars, bar.Normal) : series.normalize = series :=
  ClosedSeries.ext rfl (map_normalForm_of_normal normal)

end NormalForm

section Files

variable [PyText] {F : Type} [PyFloat F] [Sha256] [Parquet]

/-- What the files of a series hold: the rows as they were written, and the bars that a read of all of
them returns. -/
structure FilesOf (store : SegmentStore) (normal : SeriesKey) (state : SeriesState) (raw : RawManifest)
    (written : List (MarketBar F)) (series : ClosedSeries F) : Prop where
  sound : ∃ found, Sound F found normal state
  place : seriesDirectory normal = .ok state.directory
  named : state.manifest = some raw
  generation : ∃ bytes, Generation normal raw written bytes ∧
    ∀ format, state.data (.bars format) = oneFile (some raw.toManifest.dataFormat) bytes format
  format : raw.toManifest.dataFormat = series.format
  normalized : series.bars = written.map MarketBar.normalForm
  reads : ((readAllLocked F store).run state).1 = .ok series.bars

/-- A directory in which nothing is stored yet. -/
structure NoFiles (F : Type) [PyFloat F] (normal : SeriesKey) (state : SeriesState) : Prop where
  sound : ∃ found, Sound F found normal state
  place : seriesDirectory normal = .ok state.directory
  unnamed : state.manifest = none

/-- The files hold this series, or none. -/
def Held (store : SegmentStore) (normal : SeriesKey) (state : SeriesState) :
    Option (ClosedSeries F) → Prop
  | none => NoFiles F normal state
  | some series => ∃ raw written, FilesOf store normal state raw written series

/-- A ranged read splits no character on its way to the start, and takes no line inside of a row for
a row. -/
def RangeReads (F : Type) [PyFloat F] (pending : Nat → Bool) (state : SeriesState)
    (start : Option Int) : Prop :=
  ∀ raw, ∀ rows : List (MarketBar F), state.manifest = some raw →
    state.data (.bars .csv) = some (csvFile rows) → Searches (Aligned pending rows) pending raw rows start

/-- The last row is one short line, and the place from which it is looked for splits no character. -/
def TailReads (F : Type) [PyFloat F] (state : SeriesState) : Prop :=
  ∀ rows : List (MarketBar F), state.data (.bars .csv) = some (csvFile rows) → ∀ last ∈ rows.getLast?,
    last.OneLine ∧ rowSize last < 1048576 ∧ Unsplit (csvFile rows) (tailStop (csvFile rows) (rowSize last))

variable {store : SegmentStore} {normal : SeriesKey} {state after : SeriesState} {raw : RawManifest}
  {written : List (MarketBar F)} {series : ClosedSeries F} {stored : Option (ClosedSeries F)}
  {pending : Nat → Bool} {start stop : Option Int}

section One

variable (files : FilesOf store normal state raw written series)
include files

theorem FilesOf.timeframes :
    ∀ bar ∈ written, ∃ timeframe, canonicalTimeframe bar.timeframe = .ok timeframe := by
  obtain ⟨bytes, generation, -⟩ := files.generation
  exact generation.timeframes

theorem FilesOf.mapM_normalizedBar : written.mapM normalizedBar = .ok series.bars := by
  rw [files.normalized]
  exact mapM_normalForm files.timeframes

/-- What was read is spelled as a read gives it back. -/
theorem FilesOf.normalBars : ∀ bar ∈ series.bars, bar.Normal := by
  intro bar member
  rw [files.normalized] at member
  obtain ⟨old, inside, rfl⟩ := List.mem_map.mp member
  exact normal_normalForm (files.timeframes old inside)

theorem FilesOf.normalize : series.normalize = series := ClosedSeries.normalize_of_normal files.normalBars

/-- The only data file is that of the format of the series. -/
theorem FilesOf.onDisk : ∃ file, OnDisk state raw series.format file ∧
    segmentBytes series.format written = .ok file.2.bytes := by
  obtain ⟨found, sound⟩ := files.sound
  obtain ⟨bytes, generation, data⟩ := files.generation
  rw [files.format] at data
  obtain ⟨file, present, same⟩ := SeriesState.exists_file ((data series.format).trans (oneFile_self _ _))
  refine ⟨file, ⟨sound.quiet, files.named, fun other => ?_⟩, ?_⟩
  · rw [oneFile]
    split
    · rename_i own
      rw [← Option.some.inj own, present]
    · rename_i foreign
      exact SeriesState.data_eq_none_iff.mp (by rw [data, oneFile, if_neg foreign])
  · rw [same, ← files.format]
    exact generation.content

theorem FilesOf.data_csv (csv : series.format = .csv) : state.data (.bars .csv) = some (csvFile written) := by
  obtain ⟨bytes, generation, data⟩ := files.generation
  have isCsv := files.format.trans csv
  rw [data, isCsv, oneFile_self, (generation.csvSeries isCsv).2]

theorem FilesOf.checked : validateManifestContract raw = .ok () ∧
    raw.dataFormat.getD store.dataFormat = series.format ∧ validateMarketBars series.bars = .ok () := by
  obtain ⟨file, disk, -⟩ := files.onDisk
  obtain ⟨contract, own, -, valid, -⟩ := disk.readAllLocked_iff.mp files.reads
  exact ⟨contract, own, valid⟩

/-- A read leaves what the files hold, though it can publish a generation of them. -/
theorem FilesOf.onlyRead (only : OnlyRead state after) :
    FilesOf store normal after raw written series := by
  obtain ⟨found, sound⟩ := files.sound
  obtain ⟨file, disk, content⟩ := files.onDisk
  obtain ⟨contract, own, read, valid, honored⟩ := disk.readAllLocked_iff.mp files.reads
  have data (name : DataName) : after.data name = state.data name := by
    rw [only]
    rfl
  have again : OnDisk after raw series.format file := by
    rw [only]
    exact ⟨disk.quiet, disk.named, disk.files⟩
  refine ⟨⟨found, sound.onlyRead only⟩, by rw [only]; exact files.place, again.named, ?_, files.format,
    files.normalized, ?_⟩
  · obtain ⟨bytes, generation, stored⟩ := files.generation
    exact ⟨bytes, generation, fun format => (data _).trans (stored format)⟩
  · refine again.readAllLocked_iff.mpr ⟨contract, own, read, valid, ?_⟩
    cases format : series.format with
    | csv =>
        rw [format] at content
        have same : csvFile written = file.2.bytes := Except.ok.inj content
        refine .inr ?_
        rw [← same]
        exact (sound.validates files.named (files.format.trans format) (files.data_csv format))
    | parquet =>
        rw [format] at honored
        exact honored

theorem FilesOf.readAllLocked : ∃ last, (MarketdataProvider.readAllLocked F store).run state =
    (.ok series.bars, last) ∧ OnlyRead state last := by
  refine ⟨_, Prod.ext files.reads rfl, ?_⟩
  exact (readAllLocked_onlyRead store state).1 _ (Prog.final_mem_visits _ _)

/-- A ranged read of a Parquet file filters the whole of it. -/
theorem FilesOf.readRange_parquet (parquet : series.format = .parquet) :
    ((readRangeLocked F pending store start stop).run state).1 =
      .ok (series.bars.filter (inRange start stop)) := by
  obtain ⟨file, disk, -⟩ := files.onDisk
  obtain ⟨contract, own, read, valid, honored⟩ := disk.readAllLocked_iff.mp files.reads
  rw [parquet] at disk own read honored
  have data (other : SegmentFormat) :
      state.data (.bars other) = if SegmentFormat.parquet = other then some file.2.bytes else none := by
    rw [SeriesState.data, disk.files, oneFile]
    simp only [Option.some.injEq]
    split <;> rfl
  have single : ¬ SegmentFormat.parquet = otherFormat .parquet := otherFormat_ne .parquet
  rw [readRangeLocked, Prog.read_bind, Prog.run_step]
  dsimp only [id]
  rw [files.named]
  dsimp only
  rw [contract, Prog.ofExcept_ok, Prog.done_bind]
  simp only [own, data, single, Option.isSome_none, Bool.false_eq_true, if_false, if_true]
  change ((Prog.ofExcept (fileBars F store.pyarrow .parquet file.2.bytes) >>= _).run state).1 = _
  rw [read, Prog.ofExcept_ok, Prog.done_bind, valid, Prog.ofExcept_ok, Prog.done_bind]
  change ((Prog.ofExcept (parquetChecksum series.bars raw) >>= _).run state).1 = _
  rw [show parquetChecksum series.bars raw = .ok raw.checksum from honored, Prog.ofExcept_ok, Prog.done_bind,
    if_pos rfl]
  rfl

theorem FilesOf.readRange (rounding : IntRounding F) (reads : RangeReads F pending state start) :
    ((readRangeLocked F pending store start stop).run state).1 =
      .ok (series.bars.filter (inRange start stop)) := by
  cases format : series.format with
  | parquet => exact files.readRange_parquet format
  | csv =>
      have data := files.data_csv format
      obtain ⟨-, -, -, -, read, -⟩ := readAllLocked_csv files.named data files.reads
      exact (RangesAgree.of_range files.named data files.reads (iterCsvRange_of_aligned rounding read
        series.sorted (reads raw written files.named data))).readAll

theorem FilesOf.endTime : raw.toManifest.endTime = series.endTime := by
  obtain ⟨bytes, generation, -⟩ := files.generation
  rw [generation.spans.endTime, ClosedSeries.endTime, files.normalized, List.getLast?_map, Option.map_map]
  rfl

theorem FilesOf.startTime : raw.toManifest.startTime = series.bars.head?.map fun bar => bar.time := by
  obtain ⟨bytes, generation, -⟩ := files.generation
  rw [generation.spans.startTime, files.normalized, List.head?_map, Option.map_map]
  rfl

theorem FilesOf.rowsCount : raw.toManifest.rowsCount = series.bars.length := by
  obtain ⟨bytes, generation, -⟩ := files.generation
  rw [generation.spans.rowsCount, files.normalized, List.length_map]

/-- The tail reader gives the last bar of the series. -/
theorem FilesOf.tail (csv : series.format = .csv) (reads : TailReads F state) :
    readLastCsvBar F (csvFile written) = .ok series.bars.getLast? := by
  have data := files.data_csv csv
  obtain ⟨-, -, -, -, read, -⟩ := readAllLocked_csv files.named data files.reads
  have rows := (readCsv_csvFile (fits_of_readCsv read)).mp read
  rcases List.eq_nil_or_concat written with rfl | ⟨front, last, rfl⟩
  · rw [List.forall₂_nil_left_iff.mp rows]
    exact readLastCsvBar_nil
  · rw [List.concat_eq_append] at *
    obtain ⟨oneLine, short, unsplit⟩ := reads _ data last (by simp)
    have normalized := files.normalized
    rw [List.map_append, List.map_singleton] at normalized
    have made : rowToBar (writtenRow last) = .ok last.normalForm := by
      rw [normalized] at rows
      have ends := List.forall₂_drop front.length rows
      rw [List.drop_left, List.drop_left' (List.length_map _)] at ends
      exact (List.forall₂_cons.mp ends).1
    rw [normalized, List.getLast?_concat]
    exact (readLastCsvBar_oneLine oneLine (fits_of_readCsv read last (by simp)) short made).mpr unsplit

theorem FilesOf.writtenLasting : ∀ bar ∈ written, bar.Lasting := by
  obtain ⟨bytes, generation, -⟩ := files.generation
  exact generation.lasting

theorem FilesOf.lasting : ∀ bar ∈ series.bars, bar.Lasting :=
  lasting_normalized files.mapM_normalizedBar files.writtenLasting

end One

section Blank

variable (blank : NoFiles F normal state)
include blank

theorem NoFiles.onlyRead (only : OnlyRead state after) : NoFiles F normal after := by
  obtain ⟨found, sound⟩ := blank.sound
  refine ⟨⟨found, sound.onlyRead only⟩, ?_, ?_⟩
  · rw [only]
    exact blank.place
  · rw [only]
    exact blank.unnamed

theorem NoFiles.data (format : SegmentFormat) : state.data (.bars format) = none := by
  obtain ⟨found, sound⟩ := blank.sound
  exact (sound.absent blank.unnamed).1 format

theorem NoFiles.readAllLocked :
    (MarketdataProvider.readAllLocked F store).run state = (.ok [], state) := by
  rw [MarketdataProvider.readAllLocked, Prog.read_bind, Prog.run_step]
  dsimp only [id]
  rw [blank.unnamed]
  dsimp only
  rw [if_neg (by simp [blank.data])]
  rfl

theorem NoFiles.readRange :
    (readRangeLocked F pending store start stop).run state = (.ok [], state) := by
  rw [readRangeLocked, Prog.read_bind, Prog.run_step]
  dsimp only [id]
  rw [blank.unnamed]
  dsimp only
  rw [if_neg (by simp [blank.data])]
  rfl

end Blank

section Either

variable (held : Held store normal state stored)
include held

theorem Held.sound : ∃ found, Sound F found normal state := by
  cases stored with
  | none => exact NoFiles.sound held
  | some series =>
      obtain ⟨raw, written, files⟩ := held
      exact files.sound

theorem Held.place : seriesDirectory normal = .ok state.directory := by
  cases stored with
  | none => exact NoFiles.place held
  | some series =>
      obtain ⟨raw, written, files⟩ := held
      exact files.place

theorem Held.onlyRead (only : OnlyRead state after) : Held store normal after stored := by
  cases stored with
  | none => exact NoFiles.onlyRead held only
  | some series =>
      obtain ⟨raw, written, files⟩ := held
      exact ⟨raw, written, files.onlyRead only⟩

theorem Held.lasting : ∀ bar ∈ storedBars stored, bar.Lasting := by
  cases stored with
  | none => simp [storedBars]
  | some series =>
      obtain ⟨raw, written, files⟩ := held
      exact files.lasting

theorem Held.normalBars : ∀ bar ∈ storedBars stored, bar.Normal := by
  cases stored with
  | none => simp [storedBars]
  | some series =>
      obtain ⟨raw, written, files⟩ := held
      exact files.normalBars

theorem Held.normalize : stored.map ClosedSeries.normalize = stored := by
  cases stored with
  | none => rfl
  | some series =>
      obtain ⟨raw, written, files⟩ := held
      exact congrArg some files.normalize

/-- A read of the whole series. -/
theorem Held.readAllLocked : ∃ last, (MarketdataProvider.readAllLocked F store).run state =
    (.ok (storedBars stored), last) ∧ OnlyRead state last := by
  cases stored with
  | none => exact ⟨state, NoFiles.readAllLocked held, rfl⟩
  | some series =>
      obtain ⟨raw, written, files⟩ := held
      exact files.readAllLocked

/-- A read of a range is a filter of the stored bars. -/
theorem Held.readRangeLocked (rounding : IntRounding F) (reads : RangeReads F pending state start) :
    ∃ last, (MarketdataProvider.readRangeLocked F pending store start stop).run state =
      (.ok ((storedBars stored).filter (inRange start stop)), last) ∧ OnlyRead state last := by
  cases stored with
  | none => exact ⟨state, NoFiles.readRange held, rfl⟩
  | some series =>
      obtain ⟨raw, written, files⟩ := held
      refine ⟨_, Prod.ext (files.readRange rounding reads) rfl, ?_⟩
      exact (readRangeLocked_onlyRead pending store state start stop).1 _ (Prog.final_mem_visits _ _)

/-- `get` finds the stored bar of a time. -/
theorem Held.getLocked (rounding : IntRounding F) {openTime : Int}
    (reads : RangeReads F pending state (some openTime)) :
    ∃ last, (MarketdataProvider.getLocked F pending store openTime).run state =
      (.ok (barAt (storedBars stored) openTime), last) ∧ OnlyRead state last := by
  obtain ⟨last, ran, only⟩ : ∃ last, (MarketdataProvider.readRangeLocked F pending store (some openTime)
      (some (openTime + 1))).run state =
        (.ok ((storedBars stored).filter (inRange (some openTime) (some (openTime + 1)))), last) ∧
      OnlyRead state last := held.readRangeLocked rounding reads
  refine ⟨last, ?_, only⟩
  rw [MarketdataProvider.getLocked, Prog.run_bind_ok ran]
  exact Prod.ext (congrArg Except.ok (find_inRange openTime)) rfl

/-- The writer lock finds no journal. -/
theorem Held.recoverSeries (entry : RecoveryEntry) :
    (MarketdataProvider.recoverSeries entry).run state = (.ok (), state) := by
  obtain ⟨found, sound⟩ := held.sound
  obtain ⟨-, _, _, ran, rfl⟩ := recoverSeries_quiet state sound.quiet.1 sound.quiet.2 entry
  exact ran

end Either

end Files

end MarketdataProvider
