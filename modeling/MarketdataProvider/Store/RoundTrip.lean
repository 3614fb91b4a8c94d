import MarketdataProvider.Store.StoredGeneration

namespace MarketdataProvider

open Foundation Foundation.Crash

section Recovery

variable [PyText] {state : SeriesState}

omit [PyText] in
theorem replaceIndexManifest_keeps {invariant : SeriesState → Prop} (manifest : SegmentManifest)
    (downloadedAt : Int) (before : invariant state)
    (after : ∀ rows, invariant (state.replaceIndex manifest.key rows)) :
    Prog.Keeps invariant (fun _ => invariant) (replaceIndexManifest manifest downloadedAt) state :=
  .ofExcept before fun rows _ => .step before (.done (after rows) (after rows))

/-- A completed recovery of a replacement has removed its journal. -/
theorem recoverPendingReplacement_returns :
    Prog.Returns (fun _ after => after.replaceJournal = none) recoverPendingReplacement state := by
  refine .read trivial ?_
  split
  · refine .read trivial (.ofExcept trivial fun journal _ => ?_)
    split
    · refine .bind (.any _ _) fun _ _ _ => .read trivial (.ofExcept trivial fun _ _ => ?_)
      refine .bind (.any _ _) fun _ _ _ => .bind (.any _ _) fun _ _ _ => .modify trivial ?_
      exact .bind (.any _ _) fun _ _ _ => .step trivial (.done trivial rfl)
    · refine .bind (.any _ _) fun _ _ _ => .bind (.any _ _) fun _ _ _ => ?_
      exact .step trivial (.done trivial rfl)
  · rename_i absent
    exact .done trivial (by simpa using absent)

omit [PyText] in
/-- A completed recovery of an append has removed its journal and leaves the other one alone. -/
theorem recoverPendingAppend_returns (quiet : state.replaceJournal = none) :
    Prog.Returns (fun _ after => after.Quiescent) recoverPendingAppend state := by
  have index (manifest : SegmentManifest) (downloadedAt : Int) {current : SeriesState}
      (holds : current.replaceJournal = none) :
      Prog.Returns (fun _ after => after.replaceJournal = none)
        (replaceIndexManifest manifest downloadedAt) current :=
    (replaceIndexManifest_keeps _ _ holds fun _ => holds).weaken (fun _ _ => trivial)
      fun _ _ kept => kept
  have close {current : SeriesState} (holds : current.replaceJournal = none) :
      Prog.Returns (fun _ after => after.Quiescent)
        (Prog.modify fun state => { state with appendJournal := none } : StoreProg Unit) current :=
    .step trivial (.done trivial ⟨rfl, holds⟩)
  refine .read trivial ?_
  split
  · refine .read trivial ?_
    split
    · exact .fail trivial
    · exact .fail trivial
    · split
      · exact .fail trivial
      · split
        · exact .bind (index _ _ quiet) fun _ _ holds => close holds
        · refine .modify trivial (.read trivial (.bind (.modify trivial (index _ _ ?_)) ?_))
          · exact quiet
          · exact fun _ _ holds => close holds
  · rename_i absent
    exact .done trivial ⟨by simpa using absent, quiet⟩

/-- After the writer lock was taken no journal is pending, whatever the series looked like. -/
theorem recoverSeries_returns :
    Prog.Returns (fun _ after => after.Quiescent) (recoverSeries .seriesLock) state :=
  .bind recoverPendingReplacement_returns fun _ _ quiet => recoverPendingAppend_returns quiet

/-- A quiescent series is as before after the writer lock was taken. -/
theorem recoverSeries_stays (quiet : state.Quiescent) :
    Prog.Returns (fun _ => (· = state)) (recoverSeries .seriesLock) state :=
  (recoverSeries_quiet state quiet.1 quiet.2 .seriesLock).partially.weaken (fun _ _ => trivial)
    fun _ _ same => same

end Recovery

section Commit

variable [PyText] {state : SeriesState} {new : SegmentManifest} {bytes : List UInt8}

/-- The new data and the new manifest stand; the journal that names them is still there. -/
structure Stands (new : SegmentManifest) (bytes : List UInt8) (state : SeriesState) : Prop where
  data : state.data (.bars new.dataFormat) = some bytes
  manifest : state.manifest = some new.asdict
  appendJournal : state.appendJournal = none
  journal : ∃ journal, state.replaceJournal = some journal ∧ journal.newDataName = new.dataFormat

omit [PyText] in
theorem Stands.unlinkData (stands : Stands new bytes state) {name : DataName}
    (other : name ≠ .bars new.dataFormat) : Stands new bytes (state.unlinkData name) :=
  ⟨(state.data_unlinkData_of_ne other.symm).trans stands.data, stands.manifest, stands.appendJournal,
    stands.journal⟩

omit [PyText] in
theorem Stands.unlinkOptional (stands : Stands new bytes state) {name : Option DataName}
    (other : name ≠ some (.bars new.dataFormat)) :
    Prog.Returns (fun _ => Stands new bytes) (unlinkOptional name) state := by
  cases name with
  | none => exact .done trivial stands
  | some name =>
      have kept : Stands new bytes (state.unlinkData name) :=
        stands.unlinkData fun same => other (congrArg some same)
      exact .step trivial (.done trivial kept)

/-- What a completed write leaves, whatever the series looked like before. -/
def Written (new : SegmentManifest) (bytes : List UInt8) (state : SeriesState) : Prop :=
  state.Quiescent ∧ state.manifest = some new.asdict ∧ state.data (.bars new.dataFormat) = some bytes

theorem Stands.finishReplacement (stands : Stands new bytes state) :
    Prog.Returns (fun _ => Written new bytes) finishReplacement state := by
  refine .read trivial (.ofExcept trivial fun journal validated => ?_)
  have sameName : journal.newDataName = new.dataFormat := by
    obtain ⟨found, present, named⟩ := stands.journal
    rw [validatedJournal_named validated, Option.some.injEq] at present
    rw [present, named]
  have superseded : Prog.Returns (fun _ => Stands new bytes) (unlinkSuperseded journal) state := by
    unfold unlinkSuperseded
    split
    · exact .done trivial stands
    · rename_i different
      refine stands.unlinkOptional fun same => different ?_
      obtain ⟨format, old, equal⟩ := Option.map_eq_some_iff.mp same
      cases equal
      rw [old, sameName]
  refine .bind superseded fun _ first stands => ?_
  have published : Prog.Returns (fun _ => Stands new bytes) (publishReplacement journal) first := by
    unfold publishReplacement
    split
    · refine .read trivial (.ofExcept trivial fun payload _ => .step trivial (.done trivial ?_))
      exact ⟨stands.data, stands.manifest, stands.appendJournal, stands.journal⟩
    · exact .done trivial stands
  refine .bind published fun _ second stands => ?_
  have single : Stands new bytes (second.unlinkData (.bars (otherFormat journal.newDataName))) :=
    stands.unlinkData (by rw [sameName]; cases new.dataFormat <;> decide)
  refine .modify trivial (.bind (single.unlinkOptional ?_) fun _ last stands => ?_)
  · cases journal.backupName <;> simp
  · exact .step trivial (.done trivial ⟨⟨stands.appendJournal, rfl⟩, stands.manifest, stands.data⟩)

/-- A published journal names the new data, and no append is pending. -/
def Begun (new : SegmentManifest) (state : SeriesState) : Prop :=
  state.appendJournal = none ∧
    ∃ journal, state.replaceJournal = some journal ∧ journal.newDataName = new.dataFormat

theorem beginReplacement_returns (store : SegmentStore) (old : Option SegmentManifest)
    (downloadedAt : Int) (quiet : state.Quiescent) :
    Prog.Returns (fun _ => Begun new) (beginReplacement store old new downloadedAt) state := by
  refine .read trivial (.ofExcept trivial fun _ _ => .ofExcept trivial fun _ _ => ?_)
  have recovered : Prog.Guarded (fun _ => True) (fun _ => (· = state)) recoverPendingReplacement
      state :=
    recoverPendingReplacement_guarded trivial (fun _ => rfl) fun pending => by
      simp [quiet.2] at pending
  refine .bind recovered.partially ?_
  rintro _ _ rfl
  refine .read trivial ?_
  dsimp only
  have backed (name : Option SegmentFormat) {current : SeriesState}
      (none : current.appendJournal = none) :
      Prog.Returns (fun _ after => after.appendJournal = Option.none) (backUpOptional store name)
        current := by
    cases name with
    | none => exact .done trivial none
    | some format =>
        refine .modify trivial ?_
        split
        · exact .step trivial (.done trivial none)
        · refine .step trivial (.done trivial ?_)
          split
          · exact none
          · exact none
  refine .bind (backed _ quiet.1) fun _ after none => .read trivial (.step trivial (.done trivial ?_))
  exact ⟨none, _, rfl, rfl⟩

theorem commitReplacement_returns (store : SegmentStore) (content : Except PyError (List UInt8))
    (downloadedAt : Int) (quiet : state.Quiescent) :
    Prog.Returns
      (fun manifest after => manifest = new ∧ ∃ bytes, content = .ok bytes ∧ Written new bytes after)
      (commitReplacement store new content downloadedAt) state := by
  refine .read trivial (.bind (beginReplacement_returns store _ _ quiet) fun _ begun journaled => ?_)
  refine .ofExcept trivial fun bytes written => .modify trivial (.modify trivial ?_)
  have stands : Stands new bytes { begun.createData (.bars new.dataFormat) bytes with
      manifest := some new.asdict } :=
    ⟨begun.data_createData_self _ _, rfl, journaled.1, journaled.2⟩
  have indexed := replaceIndexManifest_keeps new downloadedAt stands fun rows =>
    ⟨stands.data, stands.manifest, stands.appendJournal, stands.journal⟩
  refine .bind (indexed.weaken (fun _ _ => trivial) fun _ _ kept => kept) fun _ _ stands => ?_
  exact .bind stands.finishReplacement fun _ last done => .done trivial ⟨rfl, bytes, written, done⟩

end Commit

section Write

variable [PyText] {F : Type} [PyFloat F] [Sha256] [Parquet] {state after : SeriesState}
  {bars : List (MarketBar F)} {key : SeriesKey} {manifest : SegmentManifest}

omit [Sha256] [Parquet] in
theorem Written.storedCsv [Sha256] {new : SegmentManifest}
    (written : Written new (csvFile bars) state) (series : CsvSeries new.asdict bars) :
    StoredCsv state new.asdict bars where
  toCsvSeries := series
  quiet := written.1
  data := by rw [← series.format]; exact written.2.2
  named := written.2.1

theorem replaceAllLocked_storedCsv (store : SegmentStore) {dataFormat : Option SegmentFormat}
    (csv : dataFormat.getD store.dataFormat = .csv) (quiet : state.Quiescent) :
    Prog.Returns (fun manifest after => StoredCsv after manifest.asdict (sortByTime bars))
      (replaceAllLocked store bars key dataFormat) state := by
  refine .ofExcept trivial fun plan planned => ?_
  rw [replaceAllPlan, csv] at planned
  obtain ⟨valid, normalized, checksum, _, digested, rfl⟩ := generationPlan_ok planned
  have sorted := validateMarketBars_sorted valid
  refine (commitReplacement_returns store _ _ quiet).weaken (fun _ _ => trivial) ?_
  rintro _ last ⟨rfl, bytes, content, written⟩
  obtain rfl := Except.ok.inj content
  exact written.storedCsv
    (generationManifest_csvSeries _ sorted (rowsDigest_of_barsChecksum sorted digested))

theorem replaceAll_storedCsv (store : SegmentStore) {dataFormat : Option SegmentFormat}
    (csv : dataFormat.getD store.dataFormat = .csv) (state : SeriesState) :
    Prog.Returns (fun manifest after => StoredCsv after manifest.asdict (sortByTime bars))
      (replaceAll store bars key dataFormat) state :=
  .bind recoverSeries_returns fun _ _ quiet => replaceAllLocked_storedCsv store csv quiet

omit [Parquet] in
theorem replaceAllStream_storedCsv (store : SegmentStore) (state : SeriesState) :
    Prog.Returns (fun manifest after => StoredCsv after manifest.asdict bars)
      (replaceAllStream store bars key) state := by
  refine .bind recoverSeries_returns fun _ current quiet => ?_
  refine .ofExcept trivial fun plan planned => ?_
  obtain ⟨normalized, digest, _, streamed, made, content⟩ := replaceAllStreamPlan_ok planned
  obtain ⟨-, sorted, updates, updated, rfl⟩ := streamBars_ok streamed
  refine (commitReplacement_returns store _ _ quiet).weaken (fun _ _ => trivial) ?_
  rintro _ last ⟨rfl, bytes, same, written⟩
  obtain rfl := Except.ok.inj (content.symm.trans same)
  rw [made] at written ⊢
  refine written.storedCsv (generationManifest_csvSeries _ sorted ?_)
  rw [rowsDigest, updated]
  rfl

/-- A candle that comes right after one of the same time is a repetition. -/
def dropRepeats : Option Int → List (MarketBar F) → List (MarketBar F)
  | _, [] => []
  | last, bar :: rest =>
      if last = some bar.time then dropRepeats last rest
      else bar :: dropRepeats (some bar.time) rest

omit [Sha256] [Parquet] in
theorem acceptAppendBars_eq {expected : SeriesKey} {last : Option (MarketBar F)}
    {accepted : List (MarketBar F)} (returned : acceptAppendBars expected last bars = .ok accepted) :
    accepted = dropRepeats (last.map fun bar => bar.time) bars := by
  induction bars generalizing last accepted with
  | nil =>
      cases returned
      rfl
  | cons bar rest ih =>
      simp only [acceptAppendBars, bind_eq_ok] at returned
      obtain ⟨_, _, actual, _, returned⟩ := returned
      split at returned
      · cases returned
      · simp only [bind_eq_ok] at returned
        obtain ⟨_, _, returned⟩ := returned
        split at returned
        · obtain ⟨tail, later, rfl⟩ := map_eq_ok.mp returned
          rw [ih later]
          simp [dropRepeats]
        · rename_i previous
          split_ifs at returned with older repeated same
          · rw [ih returned]
            simp [dropRepeats, repeated]
          · obtain ⟨tail, later, rfl⟩ := map_eq_ok.mp returned
            rw [ih later]
            simp [dropRepeats, Ne.symm repeated]

omit [PyText] [PyFloat F] [Sha256] [Parquet] in
/-- The stored bars and the incoming ones that are newer than the stored tail. -/
def mergeNewer (stored incoming : List (MarketBar F)) : List (MarketBar F) :=
  stored ++ (dropRepeats none incoming).filter fun bar =>
    (stored.getLast?.map fun last => last.time).all (· < bar.time)

omit [Sha256] [Parquet] in
theorem validatedAppendBars_eq {incoming : List (MarketBar F)}
    (accepted : validatedAppendBars bars key = .ok incoming) : incoming = dropRepeats none bars := by
  obtain ⟨expected, _, returned⟩ := bind_eq_ok.mp accepted
  exact acceptAppendBars_eq returned

omit [PyText] [PyFloat F] [Sha256] [Parquet] in
/-- The stored tail again leaves the stored bars as they are. -/
theorem mergeNewer_repeated {stored : List (MarketBar F)}
    (repeated : ∀ bar ∈ dropRepeats none bars,
      (stored.getLast?.map fun last => last.time) = some bar.time) : mergeNewer stored bars = stored := by
  have none_newer : (dropRepeats none bars).filter (fun bar =>
      (stored.getLast?.map fun last => last.time).all (· < bar.time)) = [] := by
    rw [List.filter_eq_nil_iff]
    intro bar member
    simp [repeated bar member]
  rw [mergeNewer, none_newer, List.append_nil]

omit [PyText] [PyFloat F] [Sha256] [Parquet] in
theorem mergeNewer_newer {stored fresh : List (MarketBar F)} {endTime : Int}
    (ended : (stored.getLast?.map fun last => last.time) = some endTime)
    (newer : fresh = (dropRepeats none bars).filter (endTime < ·.time)) :
    mergeNewer stored bars = stored ++ fresh := by
  rw [mergeNewer, ended, newer]
  rfl

omit [PyText] [PyFloat F] [Sha256] [Parquet] in
theorem sorted_append {stored fresh : List (MarketBar F)} {endTime : Int}
    (sorted : stored.Pairwise (·.time < ·.time)) (ascends : fresh.Pairwise (·.time < ·.time))
    (ended : (stored.getLast?.map fun last => last.time) = some endTime)
    (newer : ∀ bar ∈ fresh, endTime < bar.time) : (stored ++ fresh).Pairwise (·.time < ·.time) := by
  refine List.pairwise_append.mpr ⟨sorted, ascends, fun early member late fresh => ?_⟩
  obtain ⟨last, found, rfl⟩ := Option.map_eq_some_iff.mp ended
  have atMost : early.time ≤ last.time := by
    obtain ⟨front, rfl⟩ := List.getLast?_eq_some_iff.mp found
    rcases List.mem_append.mp member with inFront | isLast
    · exact ((List.pairwise_append.mp sorted).2.2 early inFront last (by simp)).le
    · rw [List.mem_singleton.mp isLast]
  exact atMost.trans_lt (newer late fresh)

variable {raw : RawManifest} {stored : List (MarketBar F)} {manifest : SegmentManifest}

omit [Parquet] in
/-- The migration of a legacy manifest describes the same bars. -/
theorem CsvSeries.current (series : CsvSeries raw stored)
    (current : currentManifest F raw (csvFile stored) = .ok manifest) :
    CsvSeries manifest.asdict stored := by
  obtain ⟨span, -⟩ := currentManifest_span current
  have spans := series.spans
  refine ⟨?_, ⟨span.rowsCount.trans spans.rowsCount, span.startTime.trans spans.startTime,
    span.endTime.trans spans.endTime⟩, series.sorted, series.timeframes, fun storable => ?_⟩
  · unfold currentManifest at current
    split at current
    · simp only [bind_eq_ok, pure_eq_ok] at current
      obtain ⟨_, _, _, _, rfl⟩ := current
      exact series.format
    · cases current
      exact series.format
  · unfold currentManifest at current
    split at current
    · simp only [bind_eq_ok, pure_eq_ok] at current
      obtain ⟨_, _, checksum, digested, rfl⟩ := current
      exact checksumAgrees_migrated series.timeframes storable spans.rowsCount digested
    · rename_i modern
      cases current
      exact (checksumAgrees_asdict (checksumAlgorithm_of_modern (by simpa using modern))).mpr
        (series.agrees storable)

omit [Parquet] in
/-- The bars of an extension follow the stored ones, in the file and under the manifest. -/
theorem CsvSeries.extended {first : MarketBar F} {rest : List (MarketBar F)} {checksum : String}
    {endTime : Int} (series : CsvSeries manifest.asdict stored) (modern : manifest.legacy = false)
    (ended : (stored.getLast?.map fun last => last.time) = some endTime)
    (ascends : (first :: rest).Pairwise (·.time < ·.time))
    (newer : ∀ bar ∈ first :: rest, endTime < bar.time)
    (chained : extendTailChainAll .v4 manifest.checksum (first :: rest) = .ok checksum) :
    CsvSeries (manifest.extended (first :: rest).length ((first :: rest).getLast (by simp)).time
      checksum).asdict (stored ++ first :: rest) := by
  have spans := series.spans
  refine ⟨series.format, ⟨?_, ?_, ?_⟩, sorted_append series.sorted ascends ended newer,
    fun bar member => ?_, fun storable => ?_⟩
  · have rows : manifest.rowsCount = stored.length := spans.rowsCount
    simp only [SegmentManifest.extended, toManifest_asdict, rows, List.length_append]
    omega
  · have start : manifest.startTime = stored.head?.map fun bar => bar.time := spans.startTime
    obtain ⟨last, found, -⟩ := Option.map_eq_some_iff.mp ended
    cases stored with
    | nil => cases found
    | cons head tail => exact start
  · simp [SegmentManifest.extended, List.getLast?_eq_getLast_of_ne_nil]
  · rcases List.mem_append.mp member with early | late
    · exact series.timeframes bar early
    · exact timeframes_of_extendTailChainAll chained bar late
  · exact checksumAgrees_extended modern (series.agrees fun bar member =>
      storable bar (List.mem_append_left _ member)) chained

omit [Parquet] in
/-- What an append commits is the file and the manifest of the merged bars. -/
theorem CsvSeries.appendPlan {journal : AppendJournal} {payload : List UInt8}
    (series : CsvSeries raw stored) (named : state.manifest = some raw)
    (data : state.data (.bars .csv) = some (csvFile stored))
    (planned : appendPlan state key bars = .ok (.commit journal payload)) :
    csvFile stored ++ payload = csvFile (mergeNewer stored bars) ∧
      CsvSeries journal.newManifest.asdict (mergeNewer stored bars) := by
  obtain ⟨incoming, found, bytes, manifest, accepted, same, _, present, current, plan⟩ :=
    appendPlan_commit planned
  rw [named, Option.some.injEq] at same
  rw [data, Option.some.injEq] at present
  subst same present
  obtain ⟨span, modern⟩ := currentManifest_span current
  have ended : manifest.endTime = stored.getLast?.map fun last => last.time :=
    span.endTime.trans series.spans.endTime
  have ascends := validatedAppendBars_sorted accepted
  obtain rfl := validatedAppendBars_eq accepted
  have migrated := series.current current
  cases plan with
  | migration legacy repeated =>
      rw [mergeNewer_repeated fun bar member => ended.symm.trans (repeated bar member)]
      exact ⟨List.append_nil _, migrated⟩
  | extension first rest endTime checksum fresh nonempty tail newer chained =>
      have last := ended.symm.trans tail
      have sorted : (first :: rest).Pairwise (·.time < ·.time) := by
        rw [fresh]
        exact ascends.filter _
      have later : ∀ bar ∈ first :: rest, endTime < bar.time := by
        intro bar member
        rw [fresh, List.mem_filter] at member
        simpa using member.2
      rw [mergeNewer_newer last fresh]
      exact ⟨(csvFile_append _ _).symm, migrated.extended modern last sorted later chained⟩

/-- An append to a series of these bars leaves the series of the merged bars. -/
theorem appendStrictlyNewer_storedCsv (store : SegmentStore) (series : StoredCsv state raw stored) :
    Prog.Returns (fun manifest after => ∃ raw, raw.toManifest = manifest ∧
      StoredCsv after raw (mergeNewer stored bars)) (appendStrictlyNewer store bars key) state := by
  refine .bind (recoverSeries_stays series.quiet) ?_
  rintro _ _ rfl
  refine .read trivial (.ofExcept trivial fun plan planned => ?_)
  cases plan with
  | keep manifest =>
      obtain ⟨incoming, found, accepted, named, modern, rfl, repeated⟩ := appendPlan_keep planned
      rw [series.named, Option.some.injEq] at named
      subst named
      obtain rfl := validatedAppendBars_eq accepted
      refine .done trivial ⟨raw, rfl, ?_⟩
      rwa [mergeNewer_repeated fun bar member => series.spans.endTime.symm.trans (repeated bar member)]
  | replaceAll incoming =>
      obtain ⟨-, absent⟩ := appendPlan_replaceAll planned
      rw [series.named] at absent
      cases absent
  | commit journal payload =>
      obtain ⟨same, merged⟩ := series.appendPlan series.named series.data planned
      obtain ⟨commit, rfl, rfl, rfl, rfl⟩ :=
        appendPlan_appendCommit series.quiet series.named series.spans.insertable planned
      refine commit.commitAppend.partially.weaken (fun _ _ => trivial) ?_
      rintro _ after ⟨rfl, completed⟩
      have bytes := congrArg CsvImage.csv completed.image
      have manifest := congrArg CsvImage.manifest completed.image
      have before := commit.present.symm.trans series.data
      rw [Option.some.injEq] at before
      refine ⟨commit.journal.newManifest.asdict, rfl, merged, completed.quiet, ?_, manifest⟩
      rw [← same, ← before]
      exact bytes

/-- The first append writes the series as a whole. -/
theorem appendStrictlyNewer_first (store : SegmentStore) (quiet : state.Quiescent)
    (absent : state.manifest = none) :
    Prog.Returns (fun manifest after => StoredCsv after manifest.asdict (dropRepeats none bars))
      (appendStrictlyNewer store bars key) state := by
  refine .bind (recoverSeries_stays quiet) ?_
  rintro _ _ rfl
  refine .read trivial (.ofExcept trivial fun plan planned => ?_)
  cases plan with
  | keep manifest =>
      obtain ⟨_, found, _, named, _⟩ := appendPlan_keep planned
      rw [absent] at named
      cases named
  | replaceAll incoming =>
      obtain ⟨accepted, -⟩ := appendPlan_replaceAll planned
      have sorted := validatedAppendBars_sorted accepted
      obtain rfl := validatedAppendBars_eq accepted
      have written : Prog.Returns
          (fun manifest after => StoredCsv after manifest.asdict (sortByTime (dropRepeats none bars)))
          (replaceAllLocked store (dropRepeats none bars) key (some .csv)) _ :=
        replaceAllLocked_storedCsv store rfl quiet
      rwa [sortByTime_eq_self sorted] at written
  | commit journal payload =>
      obtain ⟨_, found, _, _, _, named, _⟩ := appendPlan_commit planned
      rw [absent] at named
      cases named

/-- The series that the CSV writers leave, with the bars that they accepted.
An append goes on from a series of the store, an earlier version's included. -/
inductive Accepted (store : SegmentStore) (key : SeriesKey) :
    SeriesState → List (MarketBar F) → Prop
  | found {state : SeriesState} {raw : RawManifest} {bars : List (MarketBar F)}
      (series : StoredCsv state raw bars) : Accepted store key state bars
  | replaceAll {state after : SeriesState} {bars : List (MarketBar F)} {manifest : SegmentManifest}
      (dataFormat : Option SegmentFormat) (csv : dataFormat.getD store.dataFormat = .csv)
      (ran : (replaceAll store bars key dataFormat).run state = (.ok manifest, after)) :
      Accepted store key after (sortByTime bars)
  | replaceAllStream {state after : SeriesState} {bars : List (MarketBar F)}
      {manifest : SegmentManifest}
      (ran : (replaceAllStream store bars key).run state = (.ok manifest, after)) :
      Accepted store key after bars
  | firstAppend {state after : SeriesState} {bars : List (MarketBar F)} {manifest : SegmentManifest}
      (quiet : state.Quiescent) (absent : state.manifest = none)
      (ran : (appendStrictlyNewer store bars key).run state = (.ok manifest, after)) :
      Accepted store key after (dropRepeats none bars)
  | append {state after : SeriesState} {stored bars : List (MarketBar F)} {manifest : SegmentManifest}
      (before : Accepted store key state stored)
      (ran : (appendStrictlyNewer store bars key).run state = (.ok manifest, after)) :
      Accepted store key after (mergeNewer stored bars)

theorem Accepted.storedCsv {store : SegmentStore} (accepted : Accepted store key state bars) :
    ∃ raw, StoredCsv state raw bars := by
  induction accepted with
  | found series => exact ⟨_, series⟩
  | replaceAll dataFormat csv ran => exact ⟨_, (replaceAll_storedCsv store csv _).2 _ _ ran⟩
  | replaceAllStream ran => exact ⟨_, (replaceAllStream_storedCsv store _).2 _ _ ran⟩
  | firstAppend quiet absent ran => exact ⟨_, (appendStrictlyNewer_first store quiet absent).2 _ _ ran⟩
  | append before ran ih =>
      obtain ⟨raw, series⟩ := ih
      obtain ⟨merged, -, stored⟩ := (appendStrictlyNewer_storedCsv store series).2 _ _ ran
      exact ⟨merged, stored⟩

/-- What the CSV writers accepted can be read back exactly when every bar is storable. -/
theorem accepted_readsBack_iff (store : SegmentStore) (key : SeriesKey) (state : SeriesState)
    (bars : List (MarketBar F)) (accepted : Accepted store key state bars) :
    bars.Pairwise (·.time < ·.time) ∧ (ReadsBack state bars ↔ ∀ bar ∈ bars, bar.Storable) := by
  obtain ⟨raw, stored⟩ := accepted.storedCsv
  exact ⟨stored.sorted, stored.readsBack_iff⟩

end Write

section Example

open scoped Reference
open Reference

theorem candle_storable : (candle 0).Storable where
  survives := survives_of_rowToBar "1m" (eq_ok_of_toOption (by decide +kernel))
  fits := by unfold MarketBar.Fits; decide +kernel
  semantics := eq_ok_of_toOption (by decide +kernel)

theorem accepted_readsBack_iff_oneCandle : ∃ manifest after,
    (replaceAll ⟨.csv, true, false⟩ [candle 0] series none).run oneCandle = (.ok manifest, after) ∧
      ReadsBack after [candle 0] := by
  obtain ⟨manifest, returned⟩ : ∃ manifest,
      ((replaceAll ⟨.csv, true, false⟩ [candle 0] series none).run oneCandle).1 = .ok manifest :=
    eq_ok_of_toBool (by decide +kernel)
  refine ⟨manifest, _, Prod.ext returned rfl, ?_⟩
  refine (accepted_readsBack_iff ⟨.csv, true, false⟩ series _ [candle 0]
    (.replaceAll none rfl (Prod.ext returned rfl))).2.mpr ?_
  simpa using candle_storable

/-- A candle without a provider is accepted by every check of the writer and refused by the reader. -/
theorem anonymous_not_readsBack : ∃ manifest after,
    (replaceAll ⟨.csv, true, false⟩ [{ candle 0 with provider := "" }] series none).run oneCandle =
      (.ok manifest, after) ∧
    ¬ ReadsBack after [{ candle 0 with provider := "" }] := by
  obtain ⟨manifest, returned⟩ : ∃ manifest,
      ((replaceAll ⟨.csv, true, false⟩ [{ candle 0 with provider := "" }] series none).run
        oneCandle).1 = .ok manifest :=
    eq_ok_of_toBool (by decide +kernel)
  refine ⟨manifest, _, Prod.ext returned rfl, fun reads => ?_⟩
  have written : Prog.Returns
      (fun manifest after => StoredCsv after manifest.asdict [{ candle 0 with provider := "" }])
      (replaceAll ⟨.csv, true, false⟩ [{ candle 0 with provider := "" }] series none) oneCandle :=
    replaceAll_storedCsv ⟨.csv, true, false⟩ rfl oneCandle
  have stored := written.2 manifest _ (Prod.ext returned rfl)
  have storable := stored.readsBack_iff.mp reads _ List.mem_cons_self
  exact storable.survives.provider rfl

end Example

end MarketdataProvider
