import Mathlib.Algebra.Order.BigOperators.Group.List
import Mathlib.Algebra.Order.Group.Nat
import MarketdataProvider.Store.BulkWrite
import MarketdataProvider.Store.SeriesRefinement

namespace MarketdataProvider

open Foundation Foundation.Crash

section Records

variable {F : Type} [PyFloat F] {bars rows : List (MarketBar F)}

theorem exists_fieldLimit (records : List (List String)) :
    ∃ limit, ∀ record ∈ records, ∀ field ∈ record, field.toList.length ≤ limit := by
  refine ⟨(records.flatten.map fun field => field.toList.length).sum, ?_⟩
  intro record listed field member
  exact List.le_sum_of_mem (List.mem_map_of_mem (List.mem_flatten_of_mem listed member))

/-- A CSV file has one reading as records. -/
theorem records_of_csvFile (same : csvFile rows = csvFile bars) :
    rows.map persistedRecord = bars.map persistedRecord := by
  have texts := congrArg decodeUtf8 same
  simp only [csvFile, decodeUtf8_encodeUtf8, Option.some.injEq] at texts
  obtain ⟨limit, fits⟩ := exists_fieldLimit
    ((persistedMarketBarFields :: rows.map persistedRecord) ++ (persistedMarketBarFields :: bars.map persistedRecord))
  have first := Csv.parse_encodeRecords (persistedMarketBarFields :: rows.map persistedRecord)
    fun record listed => fits record (List.mem_append_left _ listed)
  have second := Csv.parse_encodeRecords (persistedMarketBarFields :: bars.map persistedRecord)
    fun record listed => fits record (List.mem_append_right _ listed)
  rw [texts, second] at first
  injection first with records
  exact (List.cons.inj records).2.symm

end Records

section Plain

variable {F : Type} [PyFloat F] {bars rows : List (MarketBar F)} {bar : MarketBar F}

/-- A row of ASCII characters without a line break. -/
def MarketBar.Plain (bar : MarketBar F) : Prop :=
  ∀ field ∈ persistedRecord bar, ∀ character ∈ field.toList, character.toNat < 128 ∧ character ∉ lineBreaks

instance (bar : MarketBar F) : Decidable bar.Plain :=
  decidable_of_iff ((persistedRecord bar).all fun field => field.toList.all fun character =>
    decide (character.toNat < 128) && !lineBreaks.contains character) (by simp [MarketBar.Plain])

theorem MarketBar.Plain.oneLine (plain : bar.Plain) : bar.OneLine :=
  fun field listed character member => (plain field listed character member).2

theorem MarketBar.Plain.ascii (plain : bar.Plain) :
    ∀ character ∈ Csv.encodeRecord (persistedRecord bar), character.toNat < 128 := by
  intro character member
  rw [encodeRecord_rowLine, List.mem_append] at member
  rcases member with inLine | ending
  · rcases Csv.mem_encodeFields inLine with rfl | rfl | ⟨field, listed, inside⟩
    · decide
    · decide
    · exact (plain field listed character inside).1
  · simp only [List.mem_cons, List.not_mem_nil, or_false] at ending
    rcases ending with rfl | rfl <;> decide

theorem header_ascii : ∀ character ∈ Csv.encodeRecord persistedMarketBarFields, character.toNat < 128 := by
  have ascii : (Csv.encodeRecord persistedMarketBarFields).all (·.toNat < 128) = true := by decide +kernel
  simpa only [List.all_eq_true, decide_eq_true_eq] using ascii

/-- A file of plain rows can be cut at any place. -/
theorem unsplit_csvFile (plain : ∀ bar ∈ bars, bar.Plain) (position : Nat) : Unsplit (csvFile bars) position := by
  rw [csvFile_eq]
  refine unsplit_ascii ?_ position
  intro character member
  rcases List.mem_append.mp member with header | inRows
  · exact header_ascii character header
  · obtain ⟨bar, listed, inside⟩ := List.mem_flatMap.mp inRows
    exact (plain bar listed).ascii character inside

/-- The rows that a file of plain rows can be read as. -/
theorem plain_of_csvFile (plain : ∀ bar ∈ bars, bar.Plain) (same : csvFile rows = csvFile bars) :
    ∀ row ∈ rows, row.Plain := by
  intro row member
  have listed := List.mem_map_of_mem (f := persistedRecord) member
  rw [records_of_csvFile same] at listed
  obtain ⟨bar, inside, equal⟩ := List.mem_map.mp listed
  unfold MarketBar.Plain
  rw [← equal]
  exact plain bar inside

end Plain

section Reads

variable [PyText] {F : Type} [PyFloat F] {bars : List (MarketBar F)} {state : SeriesState} {pending : Nat → Bool}

/-- Plain rows are read right from any start. -/
theorem rangeReads_of_plain (data : state.data (.bars .csv) = some (csvFile bars))
    (plain : ∀ bar ∈ bars, bar.Plain) (start : Option Int) : RangeReads F pending state start := by
  intro raw rows named again
  have same : csvFile rows = csvFile bars := (Option.some.inj (data.symm.trans again)).symm
  have all := plain_of_csvFile plain same
  refine Searches.aligned (fun row member => (all row member).oneLine.unbroken) fun first _ _ => ?_
  exact Probes.all (unsplit_csvFile all) _ _ _

omit [PyText] in
theorem tailReads_of_plain (data : state.data (.bars .csv) = some (csvFile bars))
    (plain : ∀ bar ∈ bars, bar.Plain) (short : ∀ last ∈ bars.getLast?, rowSize last < 1048576) :
    TailReads F state := by
  intro rows again last ends
  have same : csvFile rows = csvFile bars := (Option.some.inj (data.symm.trans again)).symm
  have all := plain_of_csvFile plain same
  refine ⟨(all last (List.mem_of_getLast? ends)).oneLine, ?_, unsplit_csvFile all _⟩
  have records := congrArg List.getLast? (records_of_csvFile same)
  rw [List.getLast?_map, List.getLast?_map, ends, Option.map_some] at records
  obtain ⟨own, found, equal⟩ := Option.map_eq_some_iff.mp records.symm
  rw [rowSize, ← equal]
  exact short own found

end Reads

section Brief

variable [PyText] {F : Type} [PyFloat F] {bars : List (MarketBar F)} {bar : MarketBar F}
  {state after : SeriesState} {pending : Nat → Bool}

/-- A row of one short line of ASCII characters. -/
structure MarketBar.Brief (bar : MarketBar F) : Prop where
  plain : bar.Plain
  short : rowSize bar < 1048576

/-- All rows of the file of a series are brief. -/
def BriefRows (F : Type) [PyFloat F] (state : SeriesState) : Prop :=
  ∀ rows : List (MarketBar F), state.data (.bars .csv) = some (csvFile rows) → ∀ row ∈ rows, row.Brief

omit [PyText] in
theorem BriefRows.of_data (data : state.data (.bars .csv) = some (csvFile bars))
    (brief : ∀ bar ∈ bars, bar.Brief) : BriefRows F state := by
  intro rows again row member
  have same : csvFile rows = csvFile bars := (Option.some.inj (data.symm.trans again)).symm
  have listed := List.mem_map_of_mem (f := persistedRecord) member
  rw [records_of_csvFile same] at listed
  obtain ⟨bar, inside, equal⟩ := List.mem_map.mp listed
  refine ⟨plain_of_csvFile (fun other found => (brief other found).plain) same row member, ?_⟩
  rw [rowSize, ← equal]
  exact (brief bar inside).short

omit [PyText] in
theorem BriefRows.congr (brief : BriefRows F state) (same : after.data (.bars .csv) = state.data (.bars .csv)) :
    BriefRows F after := fun rows data => brief rows (same.symm.trans data)

theorem BriefRows.rangeReads (brief : BriefRows F state) (start : Option Int) :
    RangeReads F pending state start := by
  intro raw rows named data
  exact rangeReads_of_plain data (fun row member => (brief rows data row member).plain) start raw rows named data

omit [PyText] in
theorem BriefRows.tailReads (brief : BriefRows F state) : TailReads F state := by
  intro rows data
  refine tailReads_of_plain data (fun row member => (brief rows data row member).plain) ?_ rows data
  intro last ends
  exact (brief rows data last (List.mem_of_getLast? ends)).short

variable [Sha256] [Parquet] {store : SegmentStore} {normal key : SeriesKey} {stored : Option (ClosedSeries F)}

/-- An append of brief rows leaves brief rows. -/
theorem Held.appendStrictlyNewer_brief (held : Held store normal state stored)
    (keyed : normalizedKey key = .ok normal) (lasting : ∀ bar ∈ bars, bar.Lasting) (rows : BriefRows F state)
    (brief : ∀ bar ∈ bars, bar.Brief) {manifest : SegmentManifest}
    (ran : (MarketdataProvider.appendStrictlyNewer store bars key).run state = (.ok manifest, after)) :
    BriefRows F after := by
  rw [MarketdataProvider.appendStrictlyNewer, Prog.run_bind_ok (held.recoverSeries .seriesLock)] at ran
  obtain ⟨written, data, old⟩ := held.appendStrictlyNewerLocked_rows keyed lasting (fun _ => rows.tailReads) ran
  refine .of_data data fun row member => ?_
  rcases old row member with new | ⟨before, found, inside⟩
  · exact brief row new
  · exact rows before found row inside

/-- A replacement by brief rows leaves brief rows. -/
theorem Held.replaceAllLocked_brief (held : Held store normal state stored) {dataFormat : Option SegmentFormat}
    (csv : dataFormat.getD store.dataFormat = .csv) (keyed : normalizedKey key = .ok normal)
    (lasting : ∀ bar ∈ bars, bar.Lasting) (brief : ∀ bar ∈ bars, bar.Brief) {manifest : SegmentManifest}
    (ran : (MarketdataProvider.replaceAllLocked store bars key dataFormat).run state = (.ok manifest, after)) :
    BriefRows F after :=
  .of_data (held.replaceAllLocked_rows csv keyed lasting ran) fun row member => brief row (mem_sortByTime.mp member)

end Brief

namespace Reference

open scoped Reference

theorem series_directory : ∃ directory, seriesDirectory series = .ok directory :=
  eq_ok_of_toBool (by decide +kernel)

/-- The files of these candles after a replacement of the series. -/
def seriesFiles (bars : List (MarketBar Whole)) (checksum : String) : SeriesState :=
  { (SeriesState.empty ((seriesDirectory series).toOption.getD [])).createData (.bars .csv) (csvFile bars) with
    manifest := some (generationManifest series .csv bars checksum).asdict
    index := (indexRows (generationManifest series .csv bars checksum) 0).toOption.getD [] }

variable {bars : List (MarketBar Whole)} {checksum : String} {stored : ClosedSeries Whole}

theorem seriesFiles_sound (sorted : bars.Pairwise (·.time < ·.time)) (digested : rowsDigest .v4 bars = .ok checksum)
    (lasting : ∀ bar ∈ bars, bar.Lasting) : Sound Whole none series (seriesFiles bars checksum) := by
  obtain ⟨rows, made⟩ := (insertable_generationManifest series .csv bars checksum).indexRows 0
  refine ⟨⟨rfl, rfl⟩, fun _ _ => rfl, by rintro ⟨⟩, ?_⟩
  rintro _ ⟨⟩
  refine ⟨fun _ => .inl ?_, ⟨0, ?_⟩, bars, csvFile bars, generationManifest_sound sorted digested lasting rfl, ?_⟩
  · exact generation_legacy bars series .csv checksum rfl
  · change indexRows _ 0 = .ok ((indexRows _ 0).toOption.getD [] |>.filter _)
    rw [toManifest_asdict, made]
    refine congrArg Except.ok (List.filter_eq_self.mpr ?_).symm
    intro row member
    exact decide_eq_true (key_of_mem_indexRows made row member)
  · intro format
    cases format
    · rfl
    · rfl

theorem seriesFiles_filesOf (format : stored.format = .csv) (same : stored.bars = bars.map MarketBar.normalForm)
    (sorted : bars.Pairwise (·.time < ·.time)) (digested : rowsDigest .v4 bars = .ok checksum)
    (lasting : ∀ bar ∈ bars, bar.Lasting) : FilesOf ⟨.csv, true, false⟩ series (seriesFiles bars checksum)
      (generationManifest series .csv bars checksum).asdict bars stored := by
  have sound := seriesFiles_sound sorted digested lasting
  have place : seriesDirectory series = .ok (seriesFiles bars checksum).directory := by
    obtain ⟨directory, placed⟩ := series_directory
    change _ = Except.ok ((seriesDirectory series).toOption.getD [])
    rw [placed]
    rfl
  exact filesOf_of_generation sound place rfl rfl rfl (generationManifest_sound sorted digested lasting rfl) rfl
    format same

/-- A one minute candle that comes back in normalized form lasts. -/
theorem minuteRow_lasting {bar : MarketBar Whole} (minutes : bar.timeframe = "1m")
    (semantics : (validatePersistedBarSemantics bar).toOption = some ())
    (codec : (rowToBar (writtenRow bar)).toOption = some (bar.persisted "1m")) (fits : bar.Fits)
    (again : (bar.persisted "1m").Fits) : bar.Lasting := by
  refine ⟨⟨survives_of_rowToBar "1m" (eq_ok_of_toOption codec), fits, eq_ok_of_toOption semantics⟩, ?_⟩
  intro timeframe accepted
  rw [minutes] at accepted
  obtain rfl := Except.ok.inj (show Except.ok "1m" = .ok timeframe from accepted)
  exact again

/-- The first and the third minute. -/
def gapped : List (MarketBar Whole) := [candle 0, candle 120000]

/-- Four minutes, of which the first and the third can be stored already. -/
def fourMinutes : List (MarketBar Whole) := [candle 0, candle 60000, candle 120000, candle 180000]

theorem fourMinutes_rows : ∀ bar ∈ fourMinutes, (validatePersistedBarSemantics bar).toOption = some () ∧
    (rowToBar (writtenRow bar)).toOption = some (bar.persisted "1m") ∧ (updateChecksum .v4 bar).toBool = true ∧
    bar.Fits ∧ (bar.persisted "1m").Fits ∧ bar.Plain ∧ bar.key = series := by
  unfold MarketBar.Fits
  decide +kernel

theorem fourMinutes_key (bar : MarketBar Whole) (member : bar ∈ fourMinutes) : bar.key = series :=
  (fourMinutes_rows bar member).2.2.2.2.2.2

theorem fourMinutes_lasting (bar : MarketBar Whole) (member : bar ∈ fourMinutes) : bar.Lasting := by
  obtain ⟨semantics, codec, -, fits, again, -, named⟩ := fourMinutes_rows bar member
  exact minuteRow_lasting (congrArg SeriesKey.timeframe named) semantics codec fits again

theorem fourMinutes_plain (bar : MarketBar Whole) (member : bar ∈ fourMinutes) : bar.Plain :=
  (fourMinutes_rows bar member).2.2.2.2.2.1

theorem fourMinutes_admissible (bar : MarketBar Whole) (member : bar ∈ fourMinutes) : bar.Admissible series := by
  obtain ⟨semantics, -, digested, -, -, -, named⟩ := fourMinutes_rows bar member
  refine ⟨eq_ok_of_toOption semantics, by rw [named], ?_, eq_ok_of_toBool digested⟩
  obtain ⟨time, -, rfl⟩ := List.mem_map.mp (show bar ∈ [0, 60000, 120000, 180000].map candle from member)
  exact candle_formed time

theorem mem_fourMinutes : ∀ bar ∈ gapped, bar ∈ fourMinutes := by decide

/-- The series of the first and the third minute. -/
def gappedSeries : ClosedSeries Whole where
  format := .csv
  bars := gapped
  sorted := by
    unfold gapped
    decide
  formed bar member := (fourMinutes_admissible bar (mem_fourMinutes bar member)).formed
  digested bar member := (fourMinutes_admissible bar (mem_fourMinutes bar member)).digested

theorem gapped_plain : ∀ bar ∈ gapped, bar.Plain := fun bar member => fourMinutes_plain bar (mem_fourMinutes bar member)

theorem gapped_held : ∃ state : SeriesState, state.data (.bars .csv) = some (csvFile gapped) ∧
    Held ⟨.csv, true, false⟩ series state (some gappedSeries) := by
  obtain ⟨checksum, digested⟩ : ∃ checksum, rowsDigest .v4 gapped = .ok checksum :=
    eq_ok_of_toBool (by decide +kernel)
  have files := @seriesFiles_filesOf gapped checksum gappedSeries rfl (by decide +kernel) gappedSeries.sorted
    digested fun bar member => fourMinutes_lasting bar (mem_fourMinutes bar member)
  exact ⟨_, rfl, _, _, files⟩

end Reference

end MarketdataProvider
