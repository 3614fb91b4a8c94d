import MarketdataProvider.Store.ReplaceCommit

namespace MarketdataProvider

open Foundation Foundation.Crash

section Replacement

variable [PyText] {F : Type} [PyFloat F] [Sha256] [Parquet]

/-- The three operations that replace a whole generation. -/
inductive ReplaceOp (F : Type) where
  | replaceAll (bars : List (MarketBar F)) (dataFormat : Option SegmentFormat)
  | replaceAllStream (bars : List (MarketBar F))
  | compact (dataFormat : Option SegmentFormat)

namespace ReplaceOp

def program (store : SegmentStore) (key : SeriesKey) : ReplaceOp F → StoreProg SegmentManifest
  | replaceAll bars dataFormat => MarketdataProvider.replaceAll store bars key dataFormat
  | replaceAllStream bars => MarketdataProvider.replaceAllStream store bars key
  | compact dataFormat => compactSegment F store key dataFormat

/-- Only a compaction reads the series before it plans. -/
def reading (store : SegmentStore) : ReplaceOp F → StoreProg (List (MarketBar F))
  | compact _ => readAllLocked F store
  | _ => pure []

/-- The state in which the commit starts. -/
def source (store : SegmentStore) (state : SeriesState) (op : ReplaceOp F) : SeriesState :=
  ((op.reading store).run state).2

/-- The plan of an operation; a compaction takes its bars from the series. -/
def plan (store : SegmentStore) (key : SeriesKey) (state : SeriesState) :
    ReplaceOp F → Except PyError ReplacePlan
  | replaceAll bars dataFormat => replaceAllPlan store bars key dataFormat
  | replaceAllStream bars => replaceAllStreamPlan bars key
  | compact dataFormat => do
      let bars ← ((readAllLocked F store).run state).1
      replaceAllPlan store bars key dataFormat

end ReplaceOp

omit [PyText] [PyFloat F] [Sha256] [Parquet] in
theorem insertable_generationManifest (key : SeriesKey) (format : SegmentFormat)
    (bars : List (MarketBar F)) (checksum : String) :
    (generationManifest key format bars checksum).Insertable := by
  cases bars with
  | nil => exact .inl rfl
  | cons first rest => exact .inr ⟨rfl, by simp [generationManifest, List.getLast?_cons]⟩

/-- What a plan promises to the protocol. -/
structure PlanSpec (key : SeriesKey) (plan : ReplacePlan) : Prop where
  key : normalizedKey key = .ok plan.manifest.key
  insertable : plan.manifest.Insertable

theorem replaceAllPlan_spec {store : SegmentStore} {bars : List (MarketBar F)} {key : SeriesKey}
    {dataFormat : Option SegmentFormat} {plan : ReplacePlan}
    (planned : replaceAllPlan store bars key dataFormat = .ok plan) : PlanSpec key plan := by
  obtain ⟨_, normalized, checksum, named, _, rfl⟩ := generationPlan_ok planned
  exact ⟨named, insertable_generationManifest _ _ _ _⟩

omit [Parquet] in
theorem replaceAllStreamPlan_spec {bars : List (MarketBar F)} {key : SeriesKey} {plan : ReplacePlan}
    (planned : replaceAllStreamPlan bars key = .ok plan) : PlanSpec key plan := by
  obtain ⟨normalized, digest, named, _, made, _⟩ := replaceAllStreamPlan_ok planned
  refine ⟨by rw [made]; exact named, ?_⟩
  rw [made]
  exact insertable_generationManifest _ _ _ _

theorem ReplaceOp.plan_spec {store : SegmentStore} {key : SeriesKey} {state : SeriesState}
    {op : ReplaceOp F} {plan : ReplacePlan} (planned : op.plan store key state = .ok plan) :
    PlanSpec key plan := by
  cases op with
  | replaceAll bars dataFormat => exact replaceAllPlan_spec planned
  | replaceAllStream bars => exact replaceAllStreamPlan_spec planned
  | compact dataFormat =>
      obtain ⟨bars, _, planned⟩ := bind_eq_ok.mp planned
      exact replaceAllPlan_spec planned

/-- A read changes nothing but the published integrity generation. -/
def OnlyRead (state after : SeriesState) : Prop :=
  after = { state with generation := after.generation }

omit [Parquet] in
theorem validateOrTrust_onlyRead (state : SeriesState) (manifest : RawManifest) (bytes : List UInt8) :
    Prog.Keeps (OnlyRead state) (fun _ => OnlyRead state)
      (validateOrTrustCsvGeneration F manifest bytes) state := by
  have start : OnlyRead state state := rfl
  refine .read start ?_
  split
  · exact .done start start
  · refine .ofExcept start fun _ _ => .read start (.ofExcept start fun payload _ => ?_)
    exact .step start (.done rfl rfl)

theorem readAllLocked_onlyRead (store : SegmentStore) (state : SeriesState) :
    Prog.Keeps (OnlyRead state) (fun _ => OnlyRead state) (readAllLocked F store) state := by
  have start : OnlyRead state state := rfl
  refine .read start ?_
  split
  · split
    · exact .fail start
    · exact .done start start
  · refine .ofExcept start fun _ _ => ?_
    dsimp only
    split
    · exact .fail start
    · split
      · exact .done start start
      · refine .bind (validateOrTrust_onlyRead state _ _) fun _ after kept => ?_
        exact .ofExcept kept fun _ _ => .ofExcept kept fun _ _ => .done kept kept
      · refine .ofExcept start fun _ _ => .ofExcept start fun _ _ => .ofExcept start fun _ _ => ?_
        split
        · exact .done start start
        · exact .fail start

theorem ReplaceOp.reading_onlyRead (op : ReplaceOp F) (store : SegmentStore) (state : SeriesState) :
    Prog.Keeps (OnlyRead state) (fun _ => OnlyRead state) (op.reading store) state := by
  cases op with
  | compact dataFormat => exact readAllLocked_onlyRead store state
  | replaceAll bars dataFormat => exact .done rfl rfl
  | replaceAllStream bars => exact .done rfl rfl

omit [PyText] [PyFloat F] [Sha256] [Parquet] in
theorem OnlyRead.untouched {state after : SeriesState} (read : OnlyRead state after)
    (untouched : Untouched state state) : Untouched state after := by
  rw [read]
  exact ⟨rfl, untouched.appendJournal, untouched.replaceJournal, fun _ => rfl, rfl, rfl,
    untouched.backups⟩

/-- What a replacement needs to find on disk: at most one data file, in the manifest's format.
The manifest can lack fields, and an earlier crash can have left a backup of that format. -/
structure Replaceable (state : SeriesState) (raw : Option RawManifest) (live : Nat × StoredFile) :
    Prop where
  quiet : state.Quiescent
  clean : ∀ format, (raw.map fun manifest => manifest.toManifest.dataFormat) ≠ some format →
    state.file (.backup format) = none
  manifest : state.manifest = raw
  bars : ∀ format, state.file (.bars format) =
    oneFile (raw.map fun manifest => manifest.toManifest.dataFormat) live format
  insertable : ∀ manifest, raw = some manifest → manifest.toManifest.Insertable

section Commit

variable {state : SeriesState} {raw : Option RawManifest} {live : Nat × StoredFile}

omit [PyText] [PyFloat F] [Sha256] [Parquet] in
theorem Replaceable.onlyRead {after : SeriesState} (replaceable : Replaceable state raw live)
    (read : OnlyRead state after) : Replaceable after raw live := by
  rw [read]
  exact ⟨replaceable.quiet, replaceable.clean, replaceable.manifest, replaceable.bars,
    replaceable.insertable⟩

/-- The index rows that a rollback writes. -/
def restoredRows (state : SeriesState) (raw : Option RawManifest) : List IndexRow :=
  match raw with
  | none => []
  | some manifest =>
      (indexRows manifest.toManifest (indexedDownloadedAt state manifest.toManifest)).toOption.getD []

omit [PyText] [PyFloat F] [Sha256] [Parquet] in
theorem Replaceable.indexRows_restored (replaceable : Replaceable state raw live) :
    ∀ manifest, raw = some manifest →
      indexRows manifest.toManifest (indexedDownloadedAt state manifest.toManifest) =
        .ok (restoredRows state raw) := by
  rintro manifest rfl
  obtain ⟨rows, written⟩ := (replaceable.insertable manifest rfl).indexRows
    (indexedDownloadedAt state manifest.toManifest)
  rw [restoredRows, written]
  rfl

/-- The commit of a plan, once the two checks of the journal have passed. -/
def Replaceable.commit (replaceable : Replaceable state raw live) (store : SegmentStore)
    {plan : ReplacePlan} {rows : List IndexRow}
    (identity : validateManifestIdentity (raw.map RawManifest.toManifest) plan.manifest = .ok ())
    (path : validateJournalPath state.directory plan.manifest = .ok ())
    (written : indexRows plan.manifest plan.downloadedAt = .ok rows) : ReplaceCommit where
  origin := state
  store
  raw
  new := plan.manifest
  live
  newDownloadedAt := plan.downloadedAt
  oldRows := restoredRows state raw
  newRows := rows
  quiet := replaceable.quiet
  clean := replaceable.clean
  named := replaceable.manifest
  bars := replaceable.bars
  identity
  path
  oldIndexed := replaceable.indexRows_restored
  unindexed := by rintro rfl; rfl
  newIndexed := written

/-- The commit that an operation makes of its plan. -/
structure CommitOf (source : SeriesState) (store : SegmentStore) (raw : Option RawManifest)
    (live : Nat × StoredFile) (plan : ReplacePlan) (commit : ReplaceCommit) : Prop where
  origin : commit.origin = source
  store : commit.store = store
  raw : commit.raw = raw
  live : commit.live = live
  new : commit.new = plan.manifest
  downloadedAt : commit.newDownloadedAt = plan.downloadedAt
  oldRows : commit.oldRows = restoredRows source commit.raw

/-- What a crash after the reading leaves: the old series, or a commit that recovery decides. -/
def CommitOutcome (source : SeriesState) (store : SegmentStore) (raw : Option RawManifest)
    (live : Nat × StoredFile) (planned : Except PyError ReplacePlan) (crash : SeriesState) : Prop :=
  (Untouched source crash ∧ crash.generation = source.generation) ∨
    ∃ plan, planned = .ok plan ∧ ∃ commit : ReplaceCommit,
      CommitOf source store raw live plan commit ∧ commit.Decided plan.content crash

/-- How a completed operation ends. -/
def CommitResult (source : SeriesState) (store : SegmentStore) (raw : Option RawManifest)
    (live : Nat × StoredFile) (planned : Except PyError ReplacePlan) (manifest : SegmentManifest)
    (after : SeriesState) : Prop :=
  ∃ plan, planned = .ok plan ∧ manifest = plan.manifest ∧ ∃ commit : ReplaceCommit,
    CommitOf source store raw live plan commit ∧
      ∃ newBytes, plan.content = .ok newBytes ∧ commit.Completed newBytes after

omit [PyFloat F] [Sha256] [Parquet] in
theorem Replaceable.runPlan (replaceable : Replaceable state raw live) (store : SegmentStore)
    {planned : Except PyError ReplacePlan}
    (insertable : ∀ plan, planned = .ok plan → plan.manifest.Insertable) :
    Prog.Keeps (CommitOutcome state store raw live planned)
      (CommitResult state store raw live planned) (runPlan store planned) state := by
  have untouched := Untouched.refl replaceable.quiet
  have start : CommitOutcome state store raw live planned state := .inl ⟨untouched, rfl⟩
  refine .ofExcept start fun plan made => ?_
  obtain ⟨rows, written⟩ := (insertable plan made).indexRows plan.downloadedAt
  by_cases checked : validateManifestIdentity (raw.map RawManifest.toManifest) plan.manifest = .ok () ∧
      validateJournalPath state.directory plan.manifest = .ok ()
  · let commit := replaceable.commit store checked.1 checked.2 written
    have same : CommitOf state store raw live plan commit := ⟨rfl, rfl, rfl, rfl, rfl, rfl, rfl⟩
    refine (commit.commitReplacement plan.content).weaken ?_ ?_
    · rintro crash (prepared | decided)
      · exact .inl ⟨prepared.toUntouched, prepared.generation⟩
      · exact .inr ⟨plan, made, commit, same, decided⟩
    · rintro manifest after ⟨new, newBytes, content, completed⟩
      exact ⟨plan, made, new, commit, same, newBytes, content, completed⟩
  · -- A refused journal stops the operation before its first change.
    refine .read start ?_
    rw [replaceable.manifest]
    have refused : Prog.Keeps (CommitOutcome state store raw live planned) (fun _ _ => False)
        (beginReplacement store (raw.map RawManifest.toManifest) plan.manifest plan.downloadedAt)
        state :=
      .read start (.ofExcept start fun _ identity => .ofExcept start fun _ path =>
        absurd ⟨identity, path⟩ checked)
    exact .bind refused fun _ _ => False.elim

/-- What a crash of an operation leaves. -/
def ReplaceOp.CrashOutcome (op : ReplaceOp F) (store : SegmentStore) (key : SeriesKey)
    (state : SeriesState) (raw : Option RawManifest) (live : Nat × StoredFile) (crash : SeriesState) :
    Prop :=
  crash ∈ (op.reading store).visits state ∨
    CommitOutcome (op.source store state) store raw live (op.plan store key state) crash

theorem ReplaceOp.keeps (op : ReplaceOp F) (store : SegmentStore) (key : SeriesKey)
    (replaceable : Replaceable state raw live) :
    Prog.Keeps (op.CrashOutcome store key state raw live)
      (CommitResult (op.source store state) store raw live (op.plan store key state))
      (op.program store key) state := by
  have insertable (plan : ReplacePlan) (made : op.plan store key state = .ok plan) :
      plan.manifest.Insertable := (ReplaceOp.plan_spec made).insertable
  have locked : Prog.Keeps (op.CrashOutcome store key state raw live) (fun _ => (· = state))
      (MarketdataProvider.recoverSeries .seriesLock) state := by
    refine (recoverSeries_quiet state replaceable.quiet.1 replaceable.quiet.2
      .seriesLock).partially.weaken ?_ fun _ _ same => same
    rintro _ rfl
    exact .inl (Prog.start_mem_visits _ _)
  cases op with
  | replaceAll bars dataFormat =>
      refine .bind locked ?_
      rintro _ _ rfl
      exact (replaceable.runPlan store insertable).weaken (fun _ => .inr) fun _ _ result => result
  | replaceAllStream bars =>
      refine .bind locked ?_
      rintro _ _ rfl
      exact (replaceable.runPlan store insertable).weaken (fun _ => .inr) fun _ _ result => result
  | compact dataFormat =>
      refine .bind locked ?_
      rintro _ state rfl
      have reading : Prog.Keeps (ReplaceOp.CrashOutcome (.compact dataFormat : ReplaceOp F) store key
          state raw live) (fun bars after => (readAllLocked F store).run state = (.ok bars, after) ∧
            OnlyRead state after) (readAllLocked F store) state :=
        ⟨fun crash visited => .inl visited, (readAllLocked_onlyRead store state).returned.2⟩
      refine .bind reading ?_
      rintro bars after ⟨returned, read⟩
      have same : ReplaceOp.plan store key state (.compact dataFormat : ReplaceOp F) =
          replaceAllPlan store bars key dataFormat := by
        rw [ReplaceOp.plan, returned]
        rfl
      have source : ReplaceOp.source store state (.compact dataFormat : ReplaceOp F) = after := by
        rw [ReplaceOp.source, ReplaceOp.reading, returned]
      rw [source]
      rw [same] at insertable ⊢
      refine ((replaceable.onlyRead read).runPlan store insertable).weaken (fun crash outcome => .inr ?_)
        fun _ _ result => result
      rw [source, same]
      exact outcome

end Commit

/-- One data file in the manifest's format with its index row, or nothing at all. -/
structure SoundSeries (state : SeriesState) (stored : Option SegmentManifest) (key : SeriesKey)
    (bytes : List UInt8) : Prop where
  quiet : state.Quiescent
  manifest : state.manifest = stored.map SegmentManifest.asdict
  bars : ∀ format, state.data (.bars format) = oneFile (stored.map SegmentManifest.dataFormat) bytes format
  indexed : ∀ manifest, stored = some manifest → state.Indexed manifest ∧ manifest.key = key
  unindexed : stored = none → state.seriesRows key = []
  backups : ∀ format, state.data (.backup format) = none

omit [PyText] [PyFloat F] [Sha256] [Parquet] in
theorem SoundSeries.replaceable {state : SeriesState} {stored : Option SegmentManifest}
    {key : SeriesKey} {bytes : List UInt8} (sound : SoundSeries state stored key bytes) :
    ∃ live, live.2.bytes = bytes ∧
      Replaceable state (stored.map SegmentManifest.asdict) live := by
  have format : ((stored.map SegmentManifest.asdict).map fun raw => raw.toManifest.dataFormat) =
      stored.map SegmentManifest.dataFormat := by
    rw [Option.map_map]
    rfl
  have insertable : ∀ raw, stored.map SegmentManifest.asdict = some raw →
      raw.toManifest.Insertable := by
    intro raw found
    obtain ⟨manifest, rfl, rfl⟩ := Option.map_eq_some_iff.mp found
    obtain ⟨_, written⟩ := (sound.indexed manifest rfl).1
    exact insertable_of_indexRows written
  have clean (format : SegmentFormat) : state.file (.backup format) = none :=
    SeriesState.data_eq_none_iff.mp (sound.backups format)
  cases stored with
  | none =>
      refine ⟨(0, ⟨bytes, 0⟩), rfl, sound.quiet, fun format _ => clean format, sound.manifest, fun other => ?_, insertable⟩
      rw [format]
      exact SeriesState.data_eq_none_iff.mp (sound.bars other)
  | some manifest =>
      have own := (sound.bars manifest.dataFormat).trans (oneFile_self _ _)
      obtain ⟨live, found, holds⟩ := SeriesState.exists_file own
      refine ⟨live, holds, sound.quiet, fun format _ => clean format, sound.manifest, fun other => ?_, insertable⟩
      rw [format]
      by_cases same : manifest.dataFormat = other
      · rw [← same, found]
        exact (oneFile_self _ _).symm
      · have absent := sound.bars other
        simp only [Option.map_some, oneFile, Option.some.injEq, same, if_false] at absent ⊢
        exact SeriesState.data_eq_none_iff.mp absent

omit [PyFloat F] [Sha256] [Parquet] in
/-- A rollback brings back the image from which the operation started. -/
theorem ReplaceCommit.RolledBack.image {commit : ReplaceCommit} {state recovered : SeriesState}
    {stored : Option SegmentManifest} {bytes : List UInt8}
    (rolled : commit.RolledBack recovered) (sound : SoundSeries state stored commit.key bytes)
    (raw : commit.raw = stored.map SegmentManifest.asdict)
    (live : commit.live.2.bytes = bytes) (rows : commit.oldRows = state.seriesRows commit.key) :
    recovered.image commit.key = state.image commit.key := by
  have old : commit.old = stored := by
    rw [ReplaceCommit.old, raw, Option.map_map,
      show RawManifest.toManifest ∘ SegmentManifest.asdict = id from rfl, Option.map_id]
    rfl
  have data : (fun format => recovered.data (.bars format)) = fun format => state.data (.bars format) := by
    funext format
    rw [sound.bars, SeriesState.data, rolled.bars, ReplaceCommit.oldFormat, old]
    simp only [oneFile]
    split
    · rw [Option.map_some, commit.kept_bytes, ReplaceCommit.oldBytes, live]
    · rfl
  simp only [SeriesState.image]
  rw [data, rolled.manifest, old, sound.manifest, rolled.rows, rows]

omit [PyText] [PyFloat F] [Sha256] [Parquet] in
theorem SoundSeries.restoredRows {state source : SeriesState} {stored : Option SegmentManifest}
    {key : SeriesKey} {bytes : List UInt8} (sound : SoundSeries state stored key bytes)
    (read : OnlyRead state source) :
    restoredRows source (stored.map SegmentManifest.asdict) = state.seriesRows key := by
  rw [read]
  cases stored with
  | none => exact (sound.unindexed rfl).symm
  | some manifest =>
      obtain ⟨indexed, rfl⟩ := sound.indexed manifest rfl
      have written := indexed.indexRows_indexedDownloadedAt
      simp only [Option.map_some, MarketdataProvider.restoredRows, toManifest_asdict]
      rw [show indexRows manifest (indexedDownloadedAt
        { state with generation := source.generation } manifest) = _ from written]
      rfl

/-- A replacement is atomic from the publication of its journal on.
Before that nothing changes but a backup, which no recovery looks for. -/
theorem replacement_crash_atomic (op : ReplaceOp F) (store : SegmentStore) (key normal : SeriesKey)
    (state : SeriesState) (stored : Option SegmentManifest) (bytes : List UInt8)
    (named : normalizedKey key = .ok normal) (sound : SoundSeries state stored normal bytes) :
    (∀ crash ∈ (op.program store key).visits state,
      Untouched state crash ∨
      ∃ plan, op.plan store key state = .ok plan ∧
        ∀ later, Prog.Crashes recoverSeries crash later →
          ∀ entry, ∃ recovered, (recoverSeries entry).run later = (.ok (), recovered) ∧
            recovered.Quiescent ∧ (∀ format, recovered.data (.backup format) = none) ∧
            (crash.manifest ≠ some plan.manifest.asdict →
              recovered.image normal = state.image normal) ∧
            (crash.manifest = some plan.manifest.asdict →
              ∃ newBytes rows,
                (plan.content = .ok newBytes ∨ (stored = some plan.manifest ∧ newBytes = bytes)) ∧
                indexRows plan.manifest plan.downloadedAt = .ok rows ∧
                recovered.image normal =
                  ⟨oneFile (some plan.manifest.dataFormat) newBytes, some plan.manifest.asdict,
                    rows⟩)) ∧
    ∀ manifest after, (op.program store key).run state = (.ok manifest, after) →
      ∃ plan newBytes rows, op.plan store key state = .ok plan ∧ manifest = plan.manifest ∧
        plan.content = .ok newBytes ∧ indexRows plan.manifest plan.downloadedAt = .ok rows ∧
        after.Quiescent ∧ (∀ format, after.data (.backup format) = none) ∧
        after.image normal =
          ⟨oneFile (some plan.manifest.dataFormat) newBytes, some plan.manifest.asdict, rows⟩ := by
  obtain ⟨live, holds, replaceable⟩ := sound.replaceable
  obtain ⟨safe, completes⟩ := op.keeps store key replaceable
  have untouched := Untouched.refl replaceable.quiet
  have read : OnlyRead state (op.source store state) :=
    (op.reading_onlyRead store state).1 _ (Prog.final_mem_visits _ _)
  have keyOf {plan : ReplacePlan} {commit : ReplaceCommit} (made : op.plan store key state = .ok plan)
      (new : commit.new = plan.manifest) : commit.key = normal := by
    rw [ReplaceCommit.key, new]
    exact Except.ok.inj ((ReplaceOp.plan_spec made).key.symm.trans named)
  have absent {recovered : SeriesState} (clean : ∀ format, recovered.file (.backup format) = none)
      (format : SegmentFormat) : recovered.data (.backup format) = none :=
    SeriesState.data_eq_none_iff.mpr (clean format)
  refine ⟨fun crash visited => ?_, fun manifest after returned => ?_⟩
  · rcases safe crash visited with reading | ⟨same, _⟩ | ⟨plan, made, commit, of, decided⟩
    · exact .inl (((op.reading_onlyRead store state).1 crash reading).untouched untouched)
    · exact .inl ((read.untouched untouched).trans same)
    · refine .inr ⟨plan, made, fun later crashes entry => ?_⟩
      have commitKey := keyOf made of.new
      rcases decided with ⟨unpublished, pending, raw⟩ | ⟨newBytes, forward, rolls⟩
      · obtain ⟨recovered, ran, undone⟩ := crashes.recovered
          (fun entry other (back : commit.RollsBack other) => back.recoverSeries unpublished entry)
          (pending.rollsBack unpublished) entry
        rcases undone with rolled | ⟨equal, _⟩
        · refine ⟨recovered, ran, rolled.quiet, absent rolled.clean, fun _ => ?_, fun published => ?_⟩
          · rw [← commitKey] at sound ⊢
            exact rolled.image sound of.raw (by rw [of.live, holds])
              (by rw [of.oldRows, of.raw, sound.restoredRows read])
          · rw [raw, ← of.new] at published
            exact absurd published unpublished
        · -- Here the manifest on disk is complete, so that equal manifests are equal on disk.
          rw [ReplaceCommit.old, of.raw] at equal
          obtain ⟨found, present, reads⟩ := Option.map_eq_some_iff.mp equal
          obtain ⟨old, _, rfl⟩ := Option.map_eq_some_iff.mp present
          rw [toManifest_asdict] at reads
          rw [of.raw, present, reads] at unpublished
          exact absurd rfl unpublished
      · have published : crash.manifest = some plan.manifest.asdict := by
          rw [← of.new]
          rcases rolls with live | completed
          · exact live.manifest
          · exact congrArg SeriesImage.manifest completed.image
        obtain ⟨recovered, ran, completed⟩ := crashes.recovered
          (fun entry other (forward : commit.RollsForward newBytes other) => forward.recoverSeries entry)
          rolls entry
        refine ⟨recovered, ran, completed.quiet, absent completed.clean,
          fun other => absurd published other, fun _ => ⟨newBytes, commit.newRows, ?_, ?_, ?_⟩⟩
        · rcases forward with content | ⟨same, old⟩
          · exact .inl content
          · rw [of.raw, of.new] at same
            obtain ⟨manifest, present, equal⟩ := Option.map_eq_some_iff.mp same
            refine .inr ⟨present.trans (congrArg some (asdict_injective equal)), ?_⟩
            rw [old, ReplaceCommit.oldBytes, of.live, holds]
        · rw [← of.new, ← of.downloadedAt]
          exact commit.newIndexed
        · rw [← commitKey, completed.image, ReplaceCommit.after, of.new]
  · obtain ⟨plan, made, same, commit, of, newBytes, content, completed⟩ :=
      completes manifest after returned
    refine ⟨plan, newBytes, commit.newRows, made, same, content, ?_, completed.quiet,
      absent completed.clean, ?_⟩
    · rw [← of.new, ← of.downloadedAt]
      exact commit.newIndexed
    · rw [← keyOf made of.new, completed.image, ReplaceCommit.after, of.new]

end Replacement

namespace Reference

theorem oneCandle_sound : SoundSeries oneCandle (some manifest) series (csvFile [candle 0]) := by
  refine ⟨⟨rfl, rfl⟩, rfl, fun format => ?_, ?_, by simp, fun format => rfl⟩
  · cases format
    · rfl
    · rfl
  · rintro _ ⟨⟩
    exact ⟨⟨0, rfl⟩, rfl⟩

theorem normalizedKey_series : normalizedKey series = .ok series :=
  eq_ok_of_toOption (by decide +kernel)

/-- A write of two candles over the one that is stored. -/
theorem twoCandles_plan : ∃ plan,
    replaceAllPlan ⟨.csv, true, false⟩ [candle 0, candle 60000] series none = .ok plan :=
  eq_ok_of_toBool (by decide +kernel)
end Reference

section Example

open scoped Reference
open Reference

theorem replacement_crash_atomic_oneCandle :
    Untouched oneCandle
        ((replaceAll ⟨.csv, true, false⟩ [candle 0, candle 60000] series none).run oneCandle).2 ∨
      ∃ recovered, (recoverSeries .constructor).run
        ((replaceAll ⟨.csv, true, false⟩ [candle 0, candle 60000] series none).run oneCandle).2 =
          (.ok (), recovered) ∧ recovered.Quiescent := by
  obtain ⟨crashes, -⟩ := replacement_crash_atomic (.replaceAll [candle 0, candle 60000] none)
    ⟨.csv, true, false⟩ series series oneCandle (some manifest) (csvFile [candle 0])
    normalizedKey_series oneCandle_sound
  refine (crashes _ (Prog.final_mem_visits _ _)).imp id ?_
  rintro ⟨_, _, recovers⟩
  obtain ⟨recovered, ran, quiet, _⟩ := recovers _ .refl .constructor
  exact ⟨recovered, ran, quiet⟩

/-- The crash between the backup link and the journal: recovery finds nothing to do and the backup
stays. -/
theorem replacement_backup_survives :
    ∃ crash ∈ (replaceAll ⟨.csv, true, false⟩ [candle 0, candle 60000] series none).visits oneCandle,
      ∃ recovered, (recoverSeries .constructor).run crash = (.ok (), recovered) ∧
        recovered.data (.backup .csv) ≠ none := by
  obtain ⟨plan, planned⟩ := twoCandles_plan
  obtain ⟨key, insertable⟩ := replaceAllPlan_spec planned
  obtain ⟨rows, written⟩ := insertable.indexRows plan.downloadedAt
  have same : plan.manifest.key = series :=
    Except.ok.inj (key.symm.trans normalizedKey_series)
  have identity : validateManifestIdentity (some manifest) plan.manifest = .ok () := by
    rw [validateManifestIdentity, same]
    rfl
  have path : validateJournalPath oneCandle.directory plan.manifest = .ok () := by
    rw [validateJournalPath, same]
    exact eq_ok_of_toOption (by decide +kernel)
  obtain ⟨live, -, replaceable⟩ := oneCandle_sound.replaceable
  obtain ⟨crash, visited, prepared, backup⟩ :=
    (replaceable.commit ⟨.csv, true, false⟩ identity path written).backup_left plan.content
  obtain ⟨-, _, _, locked, rfl⟩ := recoverSeries_quiet oneCandle rfl rfl .seriesLock
  obtain ⟨-, _, recovered, ran, unchanged⟩ := recoverSeries_quiet crash prepared.appendJournal
    prepared.replaceJournal .constructor
  refine ⟨crash, Prog.visits_bind_right locked (Prog.visits_ofExcept_bind planned visited),
    recovered, ran, ?_⟩
  rw [unchanged, SeriesState.data_eq_some (backup .csv rfl)]
  simp

end Example

end MarketdataProvider
