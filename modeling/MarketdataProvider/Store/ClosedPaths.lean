import MarketdataProvider.Store.BulkMerge
import MarketdataProvider.Store.ClosedWrites

namespace MarketdataProvider

open Foundation Foundation.Crash

section Payloads

variable [PyText] {F : Type} [PyFloat F] {left right : List (MarketBar F)} {first second : MarketBar F}

/-- Bars of one payload are read back with one payload. -/
theorem sameCanonicalCandle_normalForm (same : sameCanonicalCandle first second = true) :
    sameCanonicalCandle first.normalForm second.normalForm = true := by
  have fields := sameCanonicalCandle_iff.mp same
  rw [sameCanonicalCandle_iff]
  exact { fields with
    exchange := congrArg PyText.lower fields.exchange
    market := congrArg PyText.lower fields.market
    symbol := congrArg PyText.upper fields.symbol
    timeframe := congrArg (fun name => (canonicalTimeframe name).toOption.getD name) fields.timeframe }

theorem SamePayloads.normalForm (same : SamePayloads left right) :
    SamePayloads (left.map MarketBar.normalForm) (right.map MarketBar.normalForm) := by
  intro time
  rw [barAt_map_normalForm, barAt_map_normalForm]
  have found := same time
  generalize barAt left time = old, barAt right time = new at found
  cases found with
  | none => exact .none
  | some both =>
      refine .some ?_
      rcases both with rfl | equal
      · exact .inl rfl
      · exact .inr (sameCanonicalCandle_normalForm equal)

end Payloads

section Paths

variable [PyText] {F : Type} [PyFloat F] [Sha256] [Parquet] {store : SegmentStore} {normal : SeriesKey}
  {state : SeriesState} {stored : Option (ClosedSeries F)} {bar : MarketBar F} {pending : Nat → Bool}
  {Value : Type} {expected : Option (List (MarketBar F))}

/-- A program refuses, and the files hold what they held, or makes files of these payloads. -/
def FileReaches (store : SegmentStore) (normal : SeriesKey) (state : SeriesState)
    (stored : Option (ClosedSeries F)) (expected : Option (List (MarketBar F))) (program : StoreProg Value) : Prop :=
  match expected with
  | none => ∃ error last, program.run state = (.error error, last) ∧ Held store normal last stored
  | some bars => ∃ value last after, program.run state = (.ok value, last) ∧
      Held store normal last (some after) ∧ SamePayloads (bars.map MarketBar.normalForm) after.bars

theorem FileReaches.of_refines {outcome : Except PyError (ClosedSeries F)} {program : StoreProg Value}
    (refines : Refines store normal stored outcome program state) (reaches : Reaches outcome expected) :
    FileReaches store normal state stored expected program := by
  cases expected with
  | none =>
      obtain ⟨error, rfl⟩ := reaches
      obtain ⟨last, ran, held⟩ := refines
      exact ⟨error, last, ran, held⟩
  | some bars =>
      obtain ⟨after, rfl, same⟩ := reaches
      obtain ⟨value, last, ran, held⟩ := refines
      exact ⟨value, last, after.normalize, ran, held, same.normalForm⟩

theorem FileReaches.of_realises {outcome : Except PyError (Value × ClosedSeries F)} {program : StoreProg Value}
    (realises : Prog.Realises (Held store normal) stored
      ((fun made => (made.1, some made.2.normalize)) <$> outcome) program state)
    (reaches : Reaches (Prod.snd <$> outcome) expected) :
    FileReaches store normal state stored expected program := by
  refine .of_refines ?_ reaches
  cases outcome with
  | error error => exact realises
  | ok made =>
      obtain ⟨last, ran, held⟩ := realises
      exact ⟨_, last, ran, held⟩

/-- A run whose outcome is known returns what the outcome says. -/
theorem Realises.returned {outcome : Except PyError (Value × ClosedSeries F)} {program : StoreProg Value}
    (realises : Prog.Realises (Held store normal) stored
      ((fun made => (made.1, some made.2.normalize)) <$> outcome) program state)
    {value : Value} {last : SeriesState} (ran : program.run state = (.ok value, last)) :
    ∃ after, outcome = .ok (value, after) := by
  cases outcome with
  | error error =>
      obtain ⟨other, raised, -⟩ := realises
      cases raised.symm.trans ran
  | ok made =>
      obtain ⟨other, returned, -⟩ := realises
      obtain rfl := Except.ok.inj (congrArg Prod.fst (returned.symm.trans ran))
      exact ⟨made.2, rfl⟩

/-- The reads of the four writers at one time find what is stored. -/
structure ClosedReads (pending : Nat → Bool) (state : SeriesState) (stored : Option (ClosedSeries F))
    (time : Int) : Prop where
  range : ¬ PastTail stored time → RangeReads F pending state (some time)
  tail : ∀ series endTime, stored = some series → series.format = .csv → series.endTime = some endTime →
    endTime ≤ time → TailReads F state

omit [Sha256] [Parquet] in
theorem ClosedReads.past {time : Int} (reads : ClosedReads pending state stored time) (past : PastTail stored time) :
    TailReads F state := by
  obtain ⟨series, endTime, same, csv, ends, later⟩ := past
  exact reads.tail series endTime same csv ends later.le

/-- A Parquet series has no rows to search. -/
theorem Held.data_parquet {series : ClosedSeries F} (held : Held store normal state (some series))
    (parquet : series.format = .parquet) : state.data (.bars .csv) = none := by
  obtain ⟨raw, written, files⟩ := held
  obtain ⟨bytes, -, data⟩ := files.generation
  rw [data, files.format, parquet]
  rfl

omit [PyText] [Sha256] [Parquet] in
theorem tailReads_of_absent (absent : state.data (.bars .csv) = none) : TailReads F state := by
  intro rows present
  cases absent.symm.trans present

omit [Sha256] [Parquet] in
theorem closedReads_of_absent (absent : state.data (.bars .csv) = none) (time : Int) :
    ClosedReads pending state stored time where
  range _ _ rows _ present := by cases absent.symm.trans present
  tail _ _ _ _ _ _ := tailReads_of_absent absent

theorem ClosedReads.safe (reads : ClosedReads pending state stored bar.time)
    (held : Held store normal state stored) (lasting : bar.Lasting) : BulkSafe pending state stored [bar] where
  lasting := by simpa using fun _ _ => lasting
  reads := by
    rintro series endTime rfl ends
    refine ⟨?_, ?_⟩
    · intro head member _ early
      obtain rfl := List.mem_singleton.mp member
      refine reads.range ?_
      rintro ⟨_, _, ⟨⟩, -, same, later⟩
      obtain rfl := Option.some.inj (ends.symm.trans same)
      omega
    · rintro - ⟨other, member, later⟩
      obtain rfl := List.mem_singleton.mp member
      cases format : series.format with
      | csv => exact reads.tail series endTime rfl format ends later.le
      | parquet => exact tailReads_of_absent (held.data_parquet format)

/-- A commit returns what it returns for the series. -/
theorem Held.commitClosed_returns (held : Held store normal state stored) (csvStore : store.dataFormat = .csv)
    (rounding : IntRounding F) (keyed : normalizedKey bar.key = .ok normal) (lasting : bar.Lasting)
    (reads : ClosedReads pending state stored bar.time) {status : CommitStatus} {after : ClosedSeries F}
    (made : commitSeries stored bar = .ok (status, after)) :
    ((MarketdataProvider.commitClosed pending store bar).run state).1 = .ok status := by
  have committed := held.commitClosed csvStore rounding keyed lasting reads.past reads.range
  rw [made] at committed
  obtain ⟨last, ran, -⟩ := committed
  exact congrArg Prod.fst ran

/-- What the four paths do to the files with one closed bar. -/
structure FilePaths (store : SegmentStore) (normal : SeriesKey) (pending : Nat → Bool) (state : SeriesState)
    (stored : Option (ClosedSeries F)) (bar : MarketBar F) : Prop where
  commit : FileReaches store normal state stored (expectedBars stored bar) (commitClosed pending store bar)
  upsert : FileReaches store normal state stored (expectedBars stored bar) (upsertClosed store bar)
  bulk : BulkReaches stored bar →
    FileReaches store normal state stored (expectedBars stored bar) (bulkWriteClosed pending store bar [])
  append : (∀ series, stored = some series → series.format = .csv) → AtTail stored bar →
    FileReaches store normal state stored (expectedBars stored bar) (appendStrictlyNewer store [bar] bar.key)
  status : ∀ status last, (commitClosed pending store bar).run state = (.ok status, last) →
    (status = .duplicate ↔ (barAt (storedBars stored) bar.time).isSome = true)
  counted : ∀ count last, (bulkWriteClosed pending store bar []).run state = (.ok count, last) →
    count = if (barAt (storedBars stored) bar.time).isSome then 0 else 1
  parquet : ∀ series, stored = some series → series.format = .parquet →
    ((appendStrictlyNewer store [bar] bar.key).run state).1 = .error (.mdUnsupportedFeature
        "Bounded incremental append is supported only for CSV segments") ∧
      ∀ endTime, series.endTime = some endTime → endTime < bar.time →
        ((bulkWriteClosed pending store bar []).run state).1 = .error (.mdUnsupportedFeature
          "Bounded incremental append is supported only for CSV segments")

/-- The closed-write paths agree on what is new, what is a duplicate and what is a conflict. -/
theorem closed_writers_agree (held : Held store normal state stored) (csvStore : store.dataFormat = .csv)
    (equality : FloatEquality F) (rounding : IntRounding F) (keyed : normalizedKey bar.key = .ok normal)
    (admissible : bar.Admissible bar.key) (lasting : bar.Lasting) (agree : ComparatorsAgree stored bar)
    (reads : ClosedReads pending state stored bar.time) : FilePaths store normal pending state stored bar := by
  have paths := closed_write_paths_agree equality admissible agree
  have single : ∀ other ∈ [bar], other.Lasting := List.forall_mem_singleton.mpr lasting
  have committed := held.commitClosed csvStore rounding keyed lasting reads.past reads.range
  have merged := held.bulkWriteClosed csvStore equality rounding keyed (reads.safe held lasting)
  refine ⟨.of_realises committed paths.commit, ?_, fun reached => .of_realises merged (paths.bulk reached), ?_,
    ?_, ?_, ?_⟩
  · exact .of_refines (.after (held.recoverSeries .seriesLock) (held.upsertClosedLocked csvStore keyed lasting))
      paths.upsert
  · intro csv tail
    refine .of_refines (held.appendStrictlyNewer keyed single fun _ => ?_) (paths.append csv tail)
    cases stored with
    | none => exact tailReads_of_absent (NoFiles.data held .csv)
    | some series =>
        obtain ⟨endTime, ends, early⟩ := tail series rfl
        exact reads.tail series endTime rfl (csv series rfl) ends early
  · intro status last ran
    obtain ⟨after, outcome⟩ := Realises.returned committed ran
    exact paths.status status after outcome
  · intro count last ran
    obtain ⟨after, outcome⟩ := Realises.returned merged ran
    exact paths.counted count after outcome
  · rintro series rfl parquet
    obtain ⟨appends, past⟩ := paths.parquet series rfl parquet
    have refused := held.appendStrictlyNewer keyed single fun _ => tailReads_of_absent (held.data_parquet parquet)
    rw [appends] at refused
    obtain ⟨_, raised, -⟩ := refused
    refine ⟨congrArg Prod.fst raised, ?_⟩
    intro endTime ends later
    rw [past endTime ends later] at merged
    obtain ⟨_, stopped, -⟩ := merged
    exact congrArg Prod.fst stopped

end Paths

end MarketdataProvider

namespace MarketdataProvider

open Foundation Foundation.Crash Reference

open scoped Reference

/-- A new candle, the stored tail again and a newer candle. -/
theorem closed_writers_agree_gapped : ∃ state, Held ⟨.csv, true, false⟩ series state (some gappedSeries) ∧
    ∀ bar ∈ [candle 60000, candle 120000, candle 180000],
      FilePaths ⟨.csv, true, false⟩ series (fun _ => false) state (some gappedSeries) bar := by
  obtain ⟨state, data, held⟩ := gapped_held
  have stored : ∀ bar ∈ fourMinutes, ∀ existing ∈ gapped, existing.time = bar.time →
      existing = bar ∧ sameCanonicalCandle existing bar = true := by decide +kernel
  have short : ∀ last ∈ gapped.getLast?, rowSize last < 1048576 := by decide +kernel
  refine ⟨state, held, fun bar member => ?_⟩
  have listed : bar ∈ fourMinutes := List.mem_cons_of_mem _ member
  have named := fourMinutes_key bar listed
  have keyed : normalizedKey bar.key = .ok series := by
    rw [named]
    exact eq_ok_of_toOption (by decide +kernel)
  have agree : ComparatorsAgree (some gappedSeries) bar := by
    intro existing found
    obtain ⟨rfl, same⟩ := stored bar listed existing (mem_of_barAt found) (time_of_barAt found)
    exact iff_of_true rfl same
  exact closed_writers_agree held rfl wholeEquality wholeRoundings keyed (named ▸ fourMinutes_admissible bar listed)
    (fourMinutes_lasting bar listed) agree ⟨fun _ => rangeReads_of_plain data gapped_plain _,
      fun _ _ _ _ _ _ => tailReads_of_plain data gapped_plain short⟩

namespace Reference.MinuteTable

/-- A library with one table: the row of one candle. -/
scoped instance (priority := high) minuteTable : Parquet where
  writeTable rows := if rows = [persistedRow (candle 60000)] then some [80, 65, 82, 49] else none
  readTable bytes := if bytes = [80, 65, 82, 49] then some [persistedRow (candle 60000)] else none
  read_write rows bytes written := by
    split at written
    · rename_i table
      cases written
      rw [if_pos rfl, table]
    · cases written

/-- The Parquet files of one candle. -/
def parquetFiles (checksum : String) : SeriesState :=
  { (SeriesState.empty ((seriesDirectory series).toOption.getD [])).createData (.bars .parquet) [80, 65, 82, 49] with
    manifest := some (generationManifest series .parquet [candle 60000] checksum).asdict
    index := (indexRows (generationManifest series .parquet [candle 60000] checksum) 0).toOption.getD [] }

theorem minute_lasting : (candle 60000).Lasting := fourMinutes_lasting _ (by decide)

theorem parquetFiles_filesOf {checksum : String} (digested : rowsDigest .v4 [candle 60000] = .ok checksum) :
    FilesOf ⟨.csv, true, true⟩ series (parquetFiles checksum)
      (generationManifest series .parquet [candle 60000] checksum).asdict [candle 60000] parquetCandle := by
  have lasting : ∀ bar ∈ [candle 60000], bar.Lasting := List.forall_mem_singleton.mpr minute_lasting
  have content : segmentBytes .parquet [candle 60000] = .ok [80, 65, 82, 49] := eq_ok_of_toOption (by decide +kernel)
  have generation : Generation series (generationManifest series .parquet [candle 60000] checksum).asdict
      [candle 60000] [80, 65, 82, 49] :=
    generationManifest_sound (List.pairwise_singleton _ _) digested lasting content
  have data (format : SegmentFormat) : (parquetFiles checksum).data (.bars format) =
      oneFile (some .parquet) [80, 65, 82, 49] format := by
    cases format
    · rfl
    · rfl
  have sound : Sound Whole none series (parquetFiles checksum) := by
    obtain ⟨rows, made⟩ := (insertable_generationManifest series .parquet [candle 60000] checksum).indexRows 0
    refine ⟨⟨rfl, rfl⟩, fun _ _ => rfl, by rintro ⟨⟩, ?_⟩
    rintro _ ⟨⟩
    refine ⟨(nomatch ·), ⟨0, ?_⟩, _, _, generation, data⟩
    have index : (parquetFiles checksum).index = rows := by
      rw [parquetFiles, made]
      rfl
    rw [SeriesState.seriesRows, index, toManifest_asdict, made]
    refine congrArg Except.ok (List.filter_eq_self.mpr ?_).symm
    intro row member
    exact decide_eq_true (key_of_mem_indexRows made row member)
  have place : seriesDirectory series = .ok (parquetFiles checksum).directory := by
    obtain ⟨directory, placed⟩ := series_directory
    change _ = Except.ok ((seriesDirectory series).toOption.getD [])
    rw [placed]
    rfl
  refine ⟨⟨none, sound⟩, place, rfl, ⟨_, generation, data⟩, rfl, by decide +kernel, ?_⟩
  have disk : OnDisk (parquetFiles checksum) (generationManifest series .parquet [candle 60000] checksum).asdict
      .parquet (0, ⟨[80, 65, 82, 49], 0⟩) := by
    refine ⟨⟨rfl, rfl⟩, rfl, fun other => ?_⟩
    cases other
    · rfl
    · rfl
  refine disk.readAllLocked_iff.mpr ⟨if_pos rfl, rfl, eq_ok_of_toOption (by decide +kernel),
    validateMarketBars_ok_iff.mpr ⟨parquetCandle.sorted, parquetCandle.formed⟩, ?_⟩
  have semantics : [candle 60000].forM validatePersistedBarSemantics = .ok () := eq_ok_of_toOption (by decide +kernel)
  change parquetChecksum [candle 60000] _ = .ok checksum
  have name : ChecksumAlgorithm.ofName canonicalChecksum = some (.canonical .v4) := ChecksumAlgorithm.ofName_name _
  have own : (generationManifest series .parquet [candle 60000] checksum).asdict.checksumAlgorithm =
      some canonicalChecksum := rfl
  simp only [parquetChecksum, semantics, ok_bind, own, Option.getD_some, name]
  exact digested

end Reference.MinuteTable

section Parquet

open Reference.MinuteTable

/-- A stored Parquet candle again: a duplicate for two paths, refused by the append at the tail. -/
theorem closed_writers_differ : ∃ state, Held ⟨.csv, true, true⟩ series state (some parquetCandle) ∧
    AtTail (some parquetCandle) (candle 60000) ∧
    ((commitClosed (fun _ => false) ⟨.csv, true, true⟩ (candle 60000)).run state).1 = .ok .duplicate ∧
    ((bulkWriteClosed (fun _ => false) ⟨.csv, true, true⟩ (candle 60000) []).run state).1 = .ok 0 ∧
    ((appendStrictlyNewer ⟨.csv, true, true⟩ [candle 60000] (candle 60000).key).run state).1 =
      .error (.mdUnsupportedFeature "Bounded incremental append is supported only for CSV segments") := by
  obtain ⟨checksum, digested⟩ : ∃ checksum, rowsDigest .v4 [candle 60000] = .ok checksum :=
    eq_ok_of_toBool (by decide +kernel)
  have held : Held ⟨.csv, true, true⟩ series (parquetFiles checksum) (some parquetCandle) :=
    ⟨_, _, parquetFiles_filesOf digested⟩
  have absent := held.data_parquet rfl
  have keyed : normalizedKey (candle 60000).key = .ok series := eq_ok_of_toOption (by decide +kernel)
  have reads : ClosedReads (fun _ => false) (parquetFiles checksum) (some parquetCandle) (candle 60000).time :=
    closedReads_of_absent absent _
  have same : sameCanonicalCandle (candle 60000) (candle 60000) = true := by decide +kernel
  have found : barAt (storedBars (some parquetCandle)) (candle 60000).time = some (candle 60000) := rfl
  refine ⟨_, held, ?_, ?_, ?_, ?_⟩
  · rintro _ ⟨⟩
    exact ⟨60000, rfl, le_refl _⟩
  · have compared := (compareClosed_of_digested candle_admissible.digested candle_admissible.digested).1 rfl
    have duplicate : commitSeries (some parquetCandle) (candle 60000) = .ok (.duplicate, parquetCandle) := by
      unfold commitSeries
      dsimp only
      rw [if_neg (by simp [parquetCandle]), show parquetCandle.find (candle 60000).time = some (candle 60000) from rfl]
      dsimp only
      rw [compared]
      rfl
    exact held.commitClosed_returns rfl wholeRoundings keyed minute_lasting reads duplicate
  · have merged := held.bulkWriteClosed rfl wholeEquality wholeRoundings keyed (reads.safe held minute_lasting)
    obtain ⟨series, own, counted⟩ := bulkWriteSeries_duplicate wholeEquality found same
    rw [counted] at merged
    obtain ⟨_, returned, -⟩ := merged
    exact congrArg Prod.fst returned
  · have refused := held.appendStrictlyNewer keyed (List.forall_mem_singleton.mpr minute_lasting)
      fun _ => tailReads_of_absent absent
    rw [(parquet_refuses rfl candle_admissible).1] at refused
    obtain ⟨_, raised, -⟩ := refused
    exact congrArg Prod.fst raised

end Parquet

end MarketdataProvider
