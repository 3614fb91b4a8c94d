import MarketdataProvider.Store.CandleStore
import MarketdataProvider.Store.RoundTrip

namespace MarketdataProvider

open Foundation Foundation.Crash

section Runs

variable [PyText] {F : Type} [PyFloat F] [Sha256] [Parquet]

/-- The manifest describes these bars, and the bytes are their file in its format. -/
structure Generation (normal : SeriesKey) (raw : RawManifest) (bars : List (MarketBar F))
    (bytes : List UInt8) : Prop where
  key : raw.key = normal
  content : segmentBytes raw.toManifest.dataFormat bars = .ok bytes
  spans : raw.toManifest.Spans bars
  sorted : bars.Pairwise (·.time < ·.time)
  timeframes : ∀ bar ∈ bars, ∃ timeframe, canonicalTimeframe bar.timeframe = .ok timeframe
  lasting : ∀ bar ∈ bars, bar.Lasting
  agrees : raw.toManifest.dataFormat = .csv → ChecksumAgrees raw bars

/-- A CSV manifest is a v4 tail chain, or still the one with which the run began. -/
def KeptOrChained (found : Option RawManifest) (raw : RawManifest) : Prop :=
  raw.toManifest.dataFormat = .csv → raw.toManifest.legacy = false ∨ found = some raw ∨
    found.map (fun manifest => manifest.toManifest.asdict) = some raw

/-- Manifest, data file and index agree, or there is no series at all.
A crash before a journal can leave a backup of the live format. -/
structure Sound (F : Type) [PyFloat F] (found : Option RawManifest) (normal : SeriesKey)
    (state : SeriesState) : Prop where
  quiet : state.Quiescent
  backups : ∀ format, (state.manifest.map fun raw => raw.toManifest.dataFormat) ≠ some format →
    state.file (.backup format) = none
  absent : state.manifest = none →
    (∀ format, state.data (.bars format) = none) ∧ state.seriesRows normal = []
  present : ∀ raw, state.manifest = some raw → KeptOrChained found raw ∧
    state.Indexed raw.toManifest ∧ ∃ (bars : List (MarketBar F)) (bytes : List UInt8),
      Generation normal raw bars bytes ∧
        ∀ format, state.data (.bars format) = oneFile (some raw.toManifest.dataFormat) bytes format

/-- The validator also accepts the file once the absent fields have their defaults. -/
def Legible (F : Type) [PyFloat F] (state : SeriesState) : Prop :=
  ∀ raw bytes, state.manifest = some raw → raw.toManifest.dataFormat = .csv →
    state.data (.bars .csv) = some bytes → validateCsvChecksum F bytes raw.toManifest.asdict = .ok ()

variable {found : Option RawManifest} {normal : SeriesKey} {state after : SeriesState}
  {bars : List (MarketBar F)}

/-- Every crash ends in a sound series, however often recovery itself crashes. -/
abbrev Recoverable (F : Type) [PyFloat F] (found : Option RawManifest) (normal : SeriesKey) :
    SeriesState → Prop :=
  Prog.Recovers recoverSeries (Sound F found normal)

/-- The crash of an operation on a legible series is recoverable. -/
abbrev Endures (F : Type) [PyFloat F] (found : Option RawManifest) (normal : SeriesKey)
    (origin crash : SeriesState) : Prop :=
  Legible F origin → Recoverable F found normal crash

theorem Sound.recoverable (sound : Sound F found normal state) : Recoverable F found normal state := by
  exact Prog.Recovers.of_stays (recoverSeries_quiet _ sound.quiet.1 sound.quiet.2) sound

/-- Soundness is about the journals, the manifest, the files and the index rows of the series. -/
theorem Sound.congr (sound : Sound F found normal state) (quiet : after.Quiescent)
    (manifest : after.manifest = state.manifest) (index : after.index = state.index)
    (bars : ∀ format, after.data (.bars format) = state.data (.bars format))
    (backups : ∀ format, (state.manifest.map fun raw => raw.toManifest.dataFormat) ≠ some format →
      after.file (.backup format) = none) : Sound F found normal after where
  quiet
  backups := by rwa [manifest]
  absent none := by
    obtain ⟨files, rows⟩ := sound.absent (manifest.symm.trans none)
    refine ⟨fun format => (bars format).trans (files format), ?_⟩
    rw [SeriesState.seriesRows, index]
    exact rows
  present raw named := by
    obtain ⟨kept, ⟨downloadedAt, written⟩, stored, bytes, generation, files⟩ :=
      sound.present raw (manifest.symm.trans named)
    refine ⟨kept, ⟨downloadedAt, ?_⟩, stored, bytes, generation,
      fun format => (bars format).trans (files format)⟩
    rw [SeriesState.seriesRows, index]
    exact written

theorem Sound.onlyRead (sound : Sound F found normal state) (read : OnlyRead state after) :
    Sound F found normal after := by
  rw [read]
  exact sound.congr sound.quiet rfl rfl (fun _ => rfl) sound.backups

omit [Parquet] in
theorem Legible.onlyRead (legible : Legible F state) (read : OnlyRead state after) :
    Legible F after := by
  rw [read]
  exact legible

theorem Sound.untouched (sound : Sound F found normal state) (untouched : Untouched state after) :
    Sound F found normal after := by
  refine sound.congr ⟨untouched.appendJournal, untouched.replaceJournal⟩ untouched.manifest
    untouched.index (fun format => SeriesState.data_of_file (untouched.bars format))
    fun format foreign => ?_
  cases left : after.file (.backup format) with
  | none => rfl
  | some backup =>
      rcases untouched.backups format _ (SeriesState.data_eq_some left) with live | before
      · cases named : state.manifest with
        | none =>
            rw [(sound.absent named).1 format] at live
            cases live
        | some raw =>
            obtain ⟨-, -, _, _, -, files⟩ := sound.present raw named
            rw [named, Option.map_some] at foreign
            rw [files, oneFile, if_neg foreign] at live
            cases live
      · rw [SeriesState.data_eq_none_iff.mpr (sound.backups format foreign)] at before
        cases before

/-- A sound series can be replaced. -/
theorem Sound.replaceable (sound : Sound F found normal state) :
    ∃ live, Replaceable state state.manifest live := by
  cases named : state.manifest with
  | none =>
      refine ⟨(0, ⟨[], 0⟩), sound.quiet, fun format _ => sound.backups format (by simp [named]), named,
        fun format => ?_, by simp⟩
      exact SeriesState.data_eq_none_iff.mp ((sound.absent named).1 format)
  | some raw =>
      obtain ⟨-, -, _, bytes, generation, files⟩ := sound.present raw named
      have own := (files raw.toManifest.dataFormat).trans (oneFile_self _ _)
      obtain ⟨live, present, -⟩ := SeriesState.exists_file own
      refine ⟨live, sound.quiet, ?_, named, fun format => ?_, ?_⟩
      · have backups := sound.backups
        rwa [named] at backups
      · simp only [Option.map_some, oneFile, Option.some.injEq]
        split
        · rename_i same
          rw [← same, present]
        · rename_i other
          refine SeriesState.data_eq_none_iff.mp ?_
          rw [files, oneFile, if_neg (by simpa using other)]
      · rintro _ ⟨⟩
        exact generation.spans.insertable

/-- Under a manifest that is legible with its defaults, the digest is the same with them. -/
theorem Sound.generation_asdict (legible : Legible F state) {raw : RawManifest}
    {bytes : List UInt8} (named : state.manifest = some raw) (generation : Generation normal raw bars bytes)
    (files : ∀ format, state.data (.bars format) = oneFile (some raw.toManifest.dataFormat) bytes format) :
    Generation normal raw.toManifest.asdict bars bytes where
  key := generation.key
  content := generation.content
  spans := generation.spans
  sorted := generation.sorted
  timeframes := generation.timeframes
  lasting := generation.lasting
  agrees csv := by
    have isCsv : raw.toManifest.dataFormat = .csv := csv
    have content := generation.content
    rw [isCsv] at content
    obtain rfl := Except.ok.inj content
    have data := files .csv
    rw [isCsv, oneFile_self] at data
    obtain ⟨normalized, normal⟩ := normalized_of_timeframes generation.timeframes
    exact (validateCsvChecksum_csvFile_iff _ normal
      fun bar member => (generation.lasting bar member).toStorable).mp (legible raw _ named isCsv data)

omit [PyText] [Sha256] [Parquet] in
theorem KeptOrChained.asdict {raw : RawManifest} (kept : KeptOrChained found raw) :
    KeptOrChained found raw.toManifest.asdict := by
  intro csv
  rcases kept csv with modern | same | same
  · exact .inl modern
  · exact .inr (.inr (by rw [same]; rfl))
  · refine .inr (.inr ?_)
    obtain ⟨first, start, rfl⟩ := Option.map_eq_some_iff.mp same
    rw [start]
    rfl

/-- A plan that makes a sound series of its bars, if they can be written. -/
structure PlanSound (F : Type) [PyFloat F] (normal : SeriesKey) (plan : ReplacePlan) : Prop where
  key : plan.manifest.key = normal
  insertable : plan.manifest.Insertable
  chained : plan.manifest.dataFormat = .csv → plan.manifest.legacy = false
  generation : ∀ bytes, plan.content = .ok bytes →
    ∃ bars : List (MarketBar F), Generation normal plan.manifest.asdict bars bytes

omit [PyText] [PyFloat F] [Sha256] [Parquet] in
theorem generation_legacy (bars : List (MarketBar F)) (key : SeriesKey) (format : SegmentFormat) (checksum : String)
    (csv : format = .csv) : (generationManifest key format bars checksum).legacy = false := by
  subst csv
  simp [SegmentManifest.legacy, generationManifest]

theorem generationManifest_sound {format : SegmentFormat} {checksum : String} {bytes : List UInt8}
    (sorted : bars.Pairwise (·.time < ·.time)) (digested : rowsDigest .v4 bars = .ok checksum)
    (lasting : ∀ bar ∈ bars, bar.Lasting) (content : segmentBytes format bars = .ok bytes) :
    Generation normal (generationManifest normal format bars checksum).asdict bars bytes where
  key := rfl
  content
  spans := generationManifest_spans _ _ _ _
  sorted
  timeframes := timeframes_of_rowsDigest digested
  lasting
  agrees csv := by
    obtain rfl : format = .csv := csv
    exact checksumAgrees_generationManifest digested

theorem replaceAllPlan_sound {store : SegmentStore} {key : SeriesKey}
    {dataFormat : Option SegmentFormat} {plan : ReplacePlan}
    (keyed : normalizedKey key = .ok normal) (lasting : ∀ bar ∈ bars, bar.Lasting)
    (planned : replaceAllPlan store bars key dataFormat = .ok plan) : PlanSound F normal plan := by
  obtain ⟨valid, other, checksum, named, digested, rfl⟩ := generationPlan_ok planned
  obtain rfl := Except.ok.inj (named.symm.trans keyed)
  have sorted := validateMarketBars_sorted valid
  exact ⟨rfl, insertable_generationManifest _ _ _ _, generation_legacy _ _ _ _,
    fun bytes content => ⟨_, generationManifest_sound sorted
      (rowsDigest_of_barsChecksum sorted digested)
      (fun bar member => lasting bar (mem_sortByTime.mp member)) content⟩⟩

theorem replaceAllStreamPlan_sound {key : SeriesKey} {plan : ReplacePlan}
    (keyed : normalizedKey key = .ok normal) (lasting : ∀ bar ∈ bars, bar.Lasting)
    (planned : replaceAllStreamPlan bars key = .ok plan) : PlanSound F normal plan := by
  obtain ⟨other, digest, named, streamed, made, content⟩ := replaceAllStreamPlan_ok planned
  obtain rfl := Except.ok.inj (named.symm.trans keyed)
  obtain ⟨-, sorted, updates, updated, rfl⟩ := streamBars_ok streamed
  have digested : rowsDigest .v4 bars = .ok (hexDigest updates.flatten) := by
    rw [rowsDigest, updated]
    rfl
  refine ⟨by rw [made]; rfl, ?_, ?_, fun bytes same => ⟨bars, ?_⟩⟩
  · rw [made]
    exact insertable_generationManifest _ _ _ _
  · rw [made]
    exact generation_legacy _ _ _ _
  · rw [made]
    exact generationManifest_sound sorted digested lasting (content.symm.trans same)

section Replace

variable {commit : ReplaceCommit}

/-- A rollback brings the old generation back, under its manifest with the defaults. -/
theorem Sound.rolledBack (sound : Sound F found normal state) (legible : Legible F state)
    (origin : commit.origin = state) (raw : commit.raw = state.manifest) (key : commit.key = normal)
    (rolled : commit.RolledBack after) : Sound F found normal after := by
  subst origin
  have oldManifest : after.manifest =
      commit.origin.manifest.map fun raw => raw.toManifest.asdict := by
    rw [rolled.manifest, ReplaceCommit.old, raw, Option.map_map]
    rfl
  have oldFormat : commit.oldFormat =
      commit.origin.manifest.map fun raw => raw.toManifest.dataFormat := by
    rw [ReplaceCommit.oldFormat, ReplaceCommit.old, raw, Option.map_map]
    rfl
  have files : ∀ format, after.data (.bars format) = commit.origin.data (.bars format) := by
    intro format
    rw [SeriesState.data, rolled.bars, SeriesState.data, commit.origin_bars, oneFile, oneFile]
    split
    · rw [Option.map_some, Option.map_some, commit.kept_bytes]
      rfl
    · rfl
  refine ⟨rolled.quiet, fun format _ => rolled.clean format, fun none => ?_, fun manifest named => ?_⟩
  · have first := Option.map_eq_none_iff.mp (oldManifest.symm.trans none)
    obtain ⟨absent, -⟩ := sound.absent first
    refine ⟨fun format => (files format).trans (absent format), ?_⟩
    rw [← key, rolled.rows, commit.unindexed (raw.trans first)]
  · obtain ⟨old, present, rfl⟩ := Option.map_eq_some_iff.mp (oldManifest.symm.trans named)
    obtain ⟨kept, -, bars, bytes, generation, data⟩ := sound.present old present
    refine ⟨kept.asdict, ⟨commit.oldDownloadedAt, ?_⟩, bars, bytes,
      Sound.generation_asdict legible present generation data, fun format => (files format).trans (data format)⟩
    have rows := rolled.rows
    rw [key, ← generation.key] at rows
    have replaced : commit.old = some old.toManifest := by
      rw [ReplaceCommit.old, raw, present]
      rfl
    have written := commit.oldIndexed_of_old replaced
    rw [← rows] at written
    exact written

/-- A completed replacement leaves the generation of its bytes. -/
theorem Generation.completed {bytes : List UInt8}
    (generation : Generation normal commit.new.asdict bars bytes)
    (kept : KeptOrChained found commit.new.asdict) (completed : commit.Completed bytes after) :
    Sound F found normal after := by
  have manifest : after.manifest = some commit.new.asdict :=
    congrArg SeriesImage.manifest completed.image
  refine ⟨completed.quiet, fun format _ => completed.clean format, fun none => ?_, fun raw named => ?_⟩
  · rw [manifest] at none
    cases none
  · rw [manifest, Option.some.injEq] at named
    subst named
    refine ⟨kept, ⟨commit.newDownloadedAt, ?_⟩, bars, bytes, generation, fun format => ?_⟩
    · rw [toManifest_asdict, commit.newIndexed]
      exact congrArg Except.ok (congrArg SeriesImage.rows completed.image).symm
    · exact congrFun (congrArg SeriesImage.data completed.image) format

/-- The old bytes of a commit are the file of the bars that the series has. -/
theorem Sound.oldGeneration (sound : Sound F found normal state) (origin : commit.origin = state)
    (raw : commit.raw = state.manifest) {manifest : RawManifest}
    (named : state.manifest = some manifest) :
    KeptOrChained found manifest ∧ ∃ bars : List (MarketBar F),
      Generation normal manifest bars commit.oldBytes ∧
        ∀ format, state.data (.bars format) =
          oneFile (some manifest.toManifest.dataFormat) commit.oldBytes format := by
  obtain ⟨kept, -, bars, bytes, generation, files⟩ := sound.present manifest named
  have own : commit.oldFormat = some manifest.toManifest.dataFormat := by
    rw [ReplaceCommit.oldFormat, ReplaceCommit.old, raw, named]
    rfl
  have live := (files manifest.toManifest.dataFormat).trans (oneFile_self _ _)
  rw [← origin, SeriesState.data_eq_some (commit.origin_live own), Option.some.injEq] at live
  subst live
  exact ⟨kept, bars, generation, files⟩

theorem Sound.undone (sound : Sound F found normal state) (legible : Legible F state)
    (origin : commit.origin = state) (raw : commit.raw = state.manifest) (key : commit.key = normal)
    (undone : commit.Undone after) : Sound F found normal after := by
  rcases undone with rolled | ⟨same, completed⟩
  · exact sound.rolledBack legible origin raw key rolled
  · rw [ReplaceCommit.old, raw] at same
    obtain ⟨manifest, named, reading⟩ := Option.map_eq_some_iff.mp same
    obtain ⟨kept, bars, generation, files⟩ := sound.oldGeneration origin raw named
    have renamed := Sound.generation_asdict legible named generation files
    have keptNew := kept.asdict
    rw [reading] at renamed keptNew
    exact renamed.completed keptNew completed

variable {plan : ReplacePlan} {planned : Except PyError ReplacePlan} {store : SegmentStore}
  {live : Nat × StoredFile}

/-- A completed commit ends with the bytes of its plan, or with those that were there before. -/
theorem Sound.completed {bytes : List UInt8} (sound : Sound F found normal state)
    (of : CommitOf state store state.manifest live plan commit) (sane : PlanSound F normal plan)
    (forward : commit.ForwardBytes plan.content bytes) (completed : commit.Completed bytes after) :
    Sound F found normal after := by
  rcases forward with content | ⟨same, rfl⟩
  · obtain ⟨bars, generation⟩ := sane.generation bytes content
    rw [← of.new] at generation
    refine generation.completed (fun csv => .inl ?_) completed
    rw [toManifest_asdict, of.new]
    refine sane.chained ?_
    rw [← of.new]
    exact csv
  · obtain ⟨kept, bars, generation, -⟩ := sound.oldGeneration of.origin of.raw (of.raw.symm.trans same)
    exact generation.completed kept completed

/-- A replacement by a sound plan keeps the series sound, and its crashes are recoverable. -/
theorem Sound.runPlan (sound : Sound F found normal state) (store : SegmentStore)
    (sane : ∀ plan, planned = .ok plan → PlanSound F normal plan) :
    Prog.Keeps (Endures F found normal state) (fun _ => Sound F found normal) (runPlan store planned)
      state := by
  obtain ⟨live, replaceable⟩ := sound.replaceable
  refine (replaceable.runPlan store fun plan made => (sane plan made).insertable).weaken ?_ ?_
  · rintro crash (⟨untouched, -⟩ | ⟨plan, made, commit, of, decided⟩) legible
    · exact (sound.untouched untouched).recoverable
    · have key : commit.key = normal := by
        rw [ReplaceCommit.key, of.new]
        exact (sane plan made).key
      rcases decided with ⟨unpublished, pending, -⟩ | ⟨bytes, forward, rolls⟩
      · exact (Prog.Recovers.of_guarded
          (fun entry other (back : commit.RollsBack other) => back.recoverSeries unpublished entry)
          (pending.rollsBack unpublished)).weaken
            fun _ undone => sound.undone legible of.origin of.raw key undone
      · exact (Prog.Recovers.of_guarded
          (fun entry other (forward : commit.RollsForward bytes other) => forward.recoverSeries entry)
          rolls).weaken fun _ completed => sound.completed of (sane plan made) forward completed
  · rintro manifest last ⟨plan, made, -, commit, of, bytes, content, completed⟩
    exact sound.completed of (sane plan made) (.inl content) completed

end Replace

section Read

omit [PyText] [PyFloat F] [Sha256] [Parquet] in
theorem oneFile_eq_some {format other : SegmentFormat} {content found : List UInt8}
    (present : oneFile (some format) content other = some found) : other = format ∧ found = content := by
  unfold oneFile at present
  split at present
  · rename_i same
    cases same
    exact ⟨rfl, (Option.some.inj present).symm⟩
  · cases present

omit [Sha256] in
/-- The cells of a Parquet table are the texts of the row codec. -/
theorem readParquet_of_storable {bytes : List UInt8} {normalized read : List (MarketBar F)}
    {pyarrow : Bool} (normal : bars.mapM normalizedBar = .ok normalized)
    (storable : ∀ bar ∈ bars, bar.Storable) (written : segmentBytes .parquet bars = .ok bytes)
    (reads : readParquet F pyarrow bytes = .ok read) : read = normalized := by
  have table : Parquet.readTable bytes = some (bars.map persistedRow) := by
    unfold segmentBytes at written
    dsimp only at written
    split at written
    · cases written
    · rename_i made
      rw [← Except.ok.inj written]
      exact Parquet.read_write _ _ made
  unfold readParquet at reads
  split at reads
  · cases reads
  · rw [table] at reads
    have rows : (bars.map persistedRow).mapM (fun row =>
        rowToBar (F := F) (row.map fun cell => (cell.1, some cell.2))) = .ok normalized := by
      rw [mapM_eq_ok, List.forall₂_map_left_iff]
      exact (readCsv_csvFile fun bar member => (storable bar member).fits).mp
        (readCsv_of_storable normal storable)
    exact Except.ok.inj (reads.symm.trans rows)

/-- A sound series gives lasting bars to its readers and changes at most its integrity generation. -/
theorem Sound.readAllLocked (sound : Sound F found normal state) (store : SegmentStore) :
    Prog.Keeps (OnlyRead state) (fun bars after => OnlyRead state after ∧
      ∀ bar ∈ bars, bar.Lasting) (readAllLocked F store) state := by
  have start : OnlyRead state state := rfl
  refine .read start ?_
  split
  · split
    · exact .fail start
    · exact .done start ⟨start, by simp⟩
  · rename_i raw named
    obtain ⟨-, -, bars, bytes, generation, files⟩ := sound.present raw named
    obtain ⟨normalized, normal⟩ := normalized_of_timeframes generation.timeframes
    have lasting := lasting_normalized normal generation.lasting
    refine .ofExcept start fun _ _ => ?_
    dsimp only
    split
    · exact .fail start
    · split
      · exact .done start ⟨start, by simp⟩
      · rename_i content _ found isCsv
        refine .bind (validateOrTrust_onlyRead state _ _) fun _ after kept => ?_
        refine .ofExcept kept fun read reads => .ofExcept kept fun _ _ => .done kept ⟨kept, ?_⟩
        rw [isCsv, files] at found
        obtain ⟨csv, rfl⟩ := oneFile_eq_some found
        have written := generation.content
        rw [← csv] at written
        obtain rfl := Except.ok.inj written
        rw [readCsv_of_storable normal fun bar member => (generation.lasting bar member).toStorable]
          at reads
        obtain rfl := Except.ok.inj reads
        exact lasting
      · rename_i content _ found isParquet
        refine .ofExcept start fun read reads => .ofExcept start fun _ _ => .ofExcept start fun _ _ => ?_
        rw [isParquet, files] at found
        obtain ⟨parquet, rfl⟩ := oneFile_eq_some found
        have written := generation.content
        rw [← parquet] at written
        obtain rfl := readParquet_of_storable normal
          (fun bar member => (generation.lasting bar member).toStorable) written reads
        split
        · exact .done start ⟨start, lasting⟩
        · exact .fail start

end Read

section Append

variable {key : SeriesKey} {journal : AppendJournal} {payload : List UInt8}

omit [PyText] [PyFloat F] [Sha256] [Parquet] in
/-- The bars that an append takes over are among those that it was given. -/
theorem mem_dropRepeats {last : Option Int} {bar : MarketBar F}
    (member : bar ∈ dropRepeats last bars) : bar ∈ bars := by
  induction bars generalizing last with
  | nil => exact member
  | cons first rest ih =>
      unfold dropRepeats at member
      split at member
      · exact List.mem_cons_of_mem _ (ih member)
      · rcases List.mem_cons.mp member with rfl | later
        · exact List.mem_cons_self
        · exact List.mem_cons_of_mem _ (ih later)

omit [Sha256] [Parquet] in
theorem lasting_mergeNewer {stored : List (MarketBar F)} (old : ∀ bar ∈ stored, bar.Lasting)
    (new : ∀ bar ∈ bars, bar.Lasting) : ∀ bar ∈ mergeNewer stored bars, bar.Lasting := by
  intro bar member
  rcases List.mem_append.mp member with early | late
  · exact old bar early
  · exact new bar (mem_dropRepeats (List.mem_filter.mp late).1)

/-- The series before the append, as the CSV file of its bars. -/
theorem Generation.csvSeries {raw : RawManifest} {bytes : List UInt8}
    (generation : Generation normal raw bars bytes) (csv : raw.toManifest.dataFormat = .csv) :
    CsvSeries raw bars ∧ bytes = csvFile bars := by
  have content := generation.content
  rw [csv] at content
  exact ⟨⟨csv, generation.spans, generation.sorted, generation.timeframes,
    fun _ => generation.agrees csv⟩, (Except.ok.inj content).symm⟩

omit [Parquet] in
theorem CommitPlan.chained {stored manifest : SegmentManifest} {bytes : List UInt8}
    (plan : CommitPlan state stored manifest bytes bars journal payload)
    (modern : manifest.legacy = false) : journal.newManifest.legacy = false := by
  cases plan with
  | migration => exact modern
  | extension =>
      simp only [SegmentManifest.legacy, Bool.or_eq_false_iff] at modern
      simp [extensionJournal, SegmentManifest.legacy, SegmentManifest.extended, modern.1.2, modern.2]

/-- A CSV generation with its index row and no other file is a sound series. -/
theorem Generation.soundCsv {manifest : SegmentManifest}
    (generation : Generation normal manifest.asdict bars (csvFile bars))
    (csv : manifest.dataFormat = .csv) (kept : KeptOrChained found manifest.asdict)
    (quiet : state.Quiescent) (named : state.manifest = some manifest.asdict)
    (indexed : ∃ downloadedAt, indexRows manifest downloadedAt = .ok (state.seriesRows normal))
    (data : state.data (.bars .csv) = some (csvFile bars))
    (parquet : state.file (.bars .parquet) = none)
    (backup : state.file (.backup .parquet) = none) : Sound F found normal state := by
  refine ⟨quiet, fun format foreign => ?_, fun none => ?_, fun raw present => ?_⟩
  · rw [named, Option.map_some, toManifest_asdict, csv] at foreign
    cases format with
    | csv => exact absurd rfl foreign
    | parquet => exact backup
  · rw [named] at none
    cases none
  · rw [named, Option.some.injEq] at present
    subst present
    refine ⟨kept, ?_, bars, _, generation, fun format => ?_⟩
    · rw [← generation.key] at indexed
      exact indexed
    · rw [toManifest_asdict, csv]
      cases format with
      | csv => exact data
      | parquet => exact SeriesState.data_eq_none_iff.mpr parquet

omit [Parquet] in
/-- Both manifests of an append journal are those of the stored series. -/
theorem appendPlan_keys (planned : appendPlan state key bars = .ok (.commit journal payload)) :
    ∃ raw, state.manifest = some raw ∧ journal.oldManifest.key = raw.toManifest.key ∧
      journal.newManifest.key = raw.toManifest.key := by
  obtain ⟨incoming, raw, bytes, manifest, _, named, _, _, current, plan⟩ := appendPlan_commit planned
  have span := (currentManifest_span current).1.key
  refine ⟨raw, named, ?_⟩
  cases plan with
  | migration => exact ⟨rfl, span⟩
  | extension => exact ⟨rfl, span⟩

/-- The journal of an append leads to the file of the merged bars. -/
theorem Generation.appended {raw : RawManifest} {stored : List (MarketBar F)}
    (generation : Generation normal raw stored (csvFile stored)) (csv : raw.toManifest.dataFormat = .csv)
    (named : state.manifest = some raw) (data : state.data (.bars .csv) = some (csvFile stored))
    (lasting : ∀ bar ∈ bars, bar.Lasting)
    (planned : appendPlan state key bars = .ok (.commit journal payload)) :
    Generation normal journal.newManifest.asdict (mergeNewer stored bars) (csvFile (mergeNewer stored bars)) ∧
      journal.newManifest.dataFormat = .csv ∧ csvFile stored ++ payload = csvFile (mergeNewer stored bars) := by
  obtain ⟨appended, merged⟩ := (generation.csvSeries csv).1.appendPlan named data planned
  obtain ⟨found, same, -, kept⟩ := appendPlan_keys planned
  obtain rfl := Option.some.inj (named.symm.trans same)
  have both := lasting_mergeNewer generation.lasting lasting
  have content : segmentBytes journal.newManifest.dataFormat (mergeNewer stored bars) =
      .ok (csvFile (mergeNewer stored bars)) := by
    rw [show journal.newManifest.dataFormat = .csv from merged.format]
    rfl
  refine ⟨⟨kept.trans generation.key, content, merged.spans, merged.sorted, merged.timeframes, both, fun _ =>
    merged.agrees fun bar member => (both bar member).toStorable⟩, merged.format, appended⟩

/-- A journaled append keeps the series sound, and its crashes are recoverable. -/
theorem Sound.commitAppend (sound : Sound F found normal state) (lasting : ∀ bar ∈ bars, bar.Lasting)
    (planned : appendPlan state key bars = .ok (.commit journal payload)) :
    Prog.Keeps (Endures F found normal state) (fun _ => Sound F found normal)
      (commitAppend journal payload) state := by
  obtain ⟨_, raw, _, manifest, _, named, csv, _, current, plan⟩ := appendPlan_commit planned
  obtain ⟨kept, -, stored, bytes, generation, files⟩ := sound.present raw named
  obtain ⟨-, rfl⟩ := generation.csvSeries csv
  have data := files .csv
  rw [csv, oneFile_self] at data
  obtain ⟨new, isCsv, appended⟩ := generation.appended csv named data lasting planned
  have modern := (currentManifest_span current).2
  obtain ⟨commit, rfl, rfl, rfl, rfl⟩ :=
    appendPlan_appendCommit sound.quiet named generation.spans.insertable planned
  have commitKey : commit.key = normal := by
    rw [AppendCommit.key, ← commit.reading]
    exact generation.key
  have parquet : commit.origin.file (.bars .parquet) = none := by
    have absent := files .parquet
    rw [csv] at absent
    exact SeriesState.data_eq_none_iff.mp absent
  have oldBytes : commit.bytes = csvFile stored := by
    have present := commit.present
    rw [data, Option.some.injEq] at present
    exact present.symm
  have backup : commit.origin.file (.backup .parquet) = none := by
    refine sound.backups .parquet ?_
    rw [named, Option.map_some, csv]
    decide
  have undone (legible : Legible F commit.origin) (last : SeriesState)
      (undone : commit.Undone last) : Sound F found normal last := by
    rcases undone with rfl | rolled
    · exact sound
    · have old := Sound.generation_asdict legible named generation files
      have keptOld := kept.asdict
      rw [commit.reading] at old keptOld csv
      obtain ⟨_, _, file, _⟩ := rolled.file
      refine old.soundCsv csv keptOld rolled.quiet rolled.manifest ?_ ?_ (rolled.alone _ parquet)
        (rolled.alone _ backup)
      · rw [← commitKey, rolled.rows]
        exact ⟨_, commit.oldIndexed⟩
      · rw [SeriesState.data_eq_some file, oldBytes]
  have completed (last : SeriesState) (completed : commit.Completed last) :
      Sound F found normal last := by
    have image := completed.image
    refine new.soundCsv isCsv (fun _ => .inl ?_) completed.quiet
      (congrArg CsvImage.manifest image) ?_ ?_ (completed.alone _ parquet) (completed.alone _ backup)
    · exact plan.chained modern
    · rw [← commitKey, show last.seriesRows commit.key = commit.newRows from congrArg CsvImage.rows image]
      exact ⟨_, commit.newIndexed⟩
    · rw [← appended, ← oldBytes]
      exact congrArg CsvImage.csv image
  refine commit.commitAppend.partially.weaken ?_ fun _ last result => completed last result.2
  rintro crash (back | forward) legible
  · exact (Prog.Recovers.of_guarded
      (fun entry other (holds : commit.RollsBack other) => holds.recoverSeries entry) back).weaken
        (undone legible)
  · exact (Prog.Recovers.of_guarded
      (fun entry other (holds : commit.RollsForward other) => holds.recoverSeries entry)
      forward).weaken completed

/-- The state right after the journal of an append is published. -/
def SeriesState.journaled (state : SeriesState) (journal : AppendJournal) : SeriesState :=
  { state with appendJournal := some journal }

omit [PyFloat F] [Sha256] [Parquet] in
/-- Without a replacement journal its recovery only looks. -/
theorem recoverPendingReplacement_looks {state : SeriesState} (absent : state.replaceJournal = none) :
    Prog.Returns (fun _ => (· = state)) recoverPendingReplacement state ∧
      recoverPendingReplacement.run state = (.ok (), state) := by
  have guarded : Prog.Guarded (fun _ => True) (fun _ => (· = state)) recoverPendingReplacement state :=
    recoverPendingReplacement_guarded trivial (fun _ => rfl) fun pending => by simp [absent] at pending
  refine ⟨guarded.partially, ?_⟩
  obtain ⟨-, _, last, ran, rfl⟩ := guarded
  exact ran

theorem journaled_visited (store : SegmentStore) (quiet : state.Quiescent)
    (reached : appendPlan state key bars = .ok (.commit journal payload)) :
    state.journaled journal ∈ (appendStrictlyNewer store bars key).visits state := by
  obtain ⟨-, _, _, ran, rfl⟩ := recoverSeries_quiet state quiet.1 quiet.2 .seriesLock
  refine Prog.visits_bind_right ran (Prog.visits_read_bind (Prog.visits_ofExcept_bind reached ?_))
  exact List.mem_cons_of_mem _ (Prog.start_mem_visits _ _)

end Append

section Operations

variable {key : SeriesKey}

theorem Sound.recoverSeries (sound : Sound F found normal state) :
    Prog.Keeps (Endures F found normal state) (fun _ => (· = state))
      (MarketdataProvider.recoverSeries .seriesLock) state := by
  refine (recoverSeries_quiet state sound.quiet.1 sound.quiet.2 .seriesLock).partially.weaken ?_
    fun _ _ same => same
  rintro _ rfl _
  exact sound.recoverable

theorem Sound.replaceAllLocked (sound : Sound F found normal state) (store : SegmentStore)
    (dataFormat : Option SegmentFormat) (keyed : normalizedKey key = .ok normal)
    (lasting : ∀ bar ∈ bars, bar.Lasting) :
    Prog.Keeps (Endures F found normal state) (fun _ => Sound F found normal)
      (replaceAllLocked store bars key dataFormat) state :=
  sound.runPlan store fun _ planned => replaceAllPlan_sound keyed lasting planned

/-- What follows a read starts from the same series with the bars of that read. -/
theorem Sound.reading {Result : Type} (sound : Sound F found normal state) (store : SegmentStore)
    {rest : List (MarketBar F) → StoreProg Result}
    (next : ∀ read last, Sound F found normal last → (∀ bar ∈ read, bar.Lasting) →
      Prog.Keeps (Endures F found normal last) (fun _ => Sound F found normal) (rest read) last) :
    Prog.Keeps (Endures F found normal state) (fun _ => Sound F found normal)
      (MarketdataProvider.readAllLocked F store >>= rest) state := by
  refine .bind ((sound.readAllLocked store).weaken
    (fun crash read _ => (sound.onlyRead read).recoverable) fun _ _ result => result) ?_
  rintro read last ⟨only, lasting⟩
  exact (next read last (sound.onlyRead only) lasting).weaken
    (fun _ endures legible => endures (legible.onlyRead only)) fun _ _ result => result

theorem Sound.appendStrictlyNewerLocked (sound : Sound F found normal state) (store : SegmentStore)
    (keyed : normalizedKey key = .ok normal) (lasting : ∀ bar ∈ bars, bar.Lasting) :
    Prog.Keeps (Endures F found normal state) (fun _ => Sound F found normal)
      (appendStrictlyNewerLocked store bars key) state := by
  have start : Endures F found normal state state := fun _ => sound.recoverable
  refine .read start (.ofExcept start fun plan planned => ?_)
  cases plan with
  | keep manifest => exact .done start sound
  | replaceAll incoming =>
      obtain ⟨accepted, -⟩ := appendPlan_replaceAll planned
      obtain rfl := validatedAppendBars_eq accepted
      exact sound.replaceAllLocked store _ keyed fun bar member => lasting bar (mem_dropRepeats member)
  | commit journal payload => exact sound.commitAppend lasting planned

/-- A read of a range changes at most the integrity generation, as a whole read does. -/
theorem readRangeLocked_onlyRead (pending : Nat → Bool) (store : SegmentStore) (state : SeriesState)
    (start stop : Option Int) :
    Prog.Keeps (OnlyRead state) (fun _ => OnlyRead state) (readRangeLocked F pending store start stop)
      state := by
  have begun : OnlyRead state state := rfl
  refine .read begun ?_
  split
  · split
    · exact .fail begun
    · exact .done begun begun
  · refine .ofExcept begun fun _ _ => ?_
    dsimp only
    split
    · exact .fail begun
    · split
      · exact .done begun begun
      · refine .bind (validateOrTrust_onlyRead state _ _) fun _ after kept => ?_
        split
        · exact .ofExcept kept fun _ _ => .ofExcept kept fun _ _ => .done kept kept
        · exact .ofExcept kept fun _ _ => .ofExcept kept fun _ _ => .done kept kept
      · refine .ofExcept begun fun _ _ => .ofExcept begun fun _ _ => .ofExcept begun fun _ _ => ?_
        split
        · exact .done begun begun
        · exact .fail begun

/-- What follows a read that only looks starts from the same series. -/
theorem Sound.looking {Result Found : Type} (sound : Sound F found normal state)
    {look : StoreProg Found} {rest : Found → StoreProg Result}
    (looks : Prog.Keeps (OnlyRead state) (fun _ => OnlyRead state) look state)
    (next : ∀ seen last, Sound F found normal last →
      Prog.Keeps (Endures F found normal last) (fun _ => Sound F found normal) (rest seen) last) :
    Prog.Keeps (Endures F found normal state) (fun _ => Sound F found normal) (look >>= rest) state := by
  refine .bind (looks.weaken (fun crash only _ => (sound.onlyRead only).recoverable)
    fun _ _ only => only) fun seen last only => ?_
  exact (next seen last (sound.onlyRead only)).weaken
    (fun _ endures legible => endures (legible.onlyRead only)) fun _ _ result => result

omit [PyText] [PyFloat F] [Sha256] [Parquet] in
theorem mem_insertByTime {existing : List (MarketBar F)} {bar other : MarketBar F}
    (member : other ∈ insertByTime existing bar) : other ∈ existing ∨ other = bar := by
  unfold insertByTime at member
  split at member
  · obtain ⟨item, inside, rfl⟩ := List.mem_map.mp member
    split
    · exact .inr rfl
    · exact .inl inside
  · simpa using member

theorem Sound.upsertClosedLocked (sound : Sound F found normal state) (store : SegmentStore)
    {bar : MarketBar F} (keyed : normalizedKey bar.key = .ok normal) (lasting : bar.Lasting) :
    Prog.Keeps (Endures F found normal state) (fun _ => Sound F found normal)
      (upsertClosedLocked store bar) state := by
  refine sound.reading store fun read last again stored => ?_
  refine .ofExcept (fun _ => again.recoverable) fun _ _ => ?_
  refine again.replaceAllLocked store _ keyed fun other member => ?_
  rcases mem_insertByTime member with old | rfl
  · exact stored other old
  · exact lasting

/-- The operations that write a series; an append without a bar is the metadata migration. -/
inductive StoreOp (F : Type) where
  | replaceAll (key : SeriesKey) (bars : List (MarketBar F)) (dataFormat : Option SegmentFormat)
  | replaceAllStream (key : SeriesKey) (bars : List (MarketBar F))
  | appendStrictlyNewer (key : SeriesKey) (bars : List (MarketBar F))
  | upsertClosed (bar : MarketBar F)
  | commitClosed (pending : Nat → Bool) (bar : MarketBar F)
  | compact (key : SeriesKey) (dataFormat : Option SegmentFormat)

namespace StoreOp

def program (store : SegmentStore) : StoreOp F → StoreProg Unit
  | replaceAll key bars dataFormat => do
      let _ ← MarketdataProvider.replaceAll store bars key dataFormat
      return ()
  | replaceAllStream key bars => do
      let _ ← MarketdataProvider.replaceAllStream store bars key
      return ()
  | appendStrictlyNewer key bars => do
      let _ ← MarketdataProvider.appendStrictlyNewer store bars key
      return ()
  | upsertClosed bar => do
      let _ ← MarketdataProvider.upsertClosed store bar
      return ()
  | commitClosed pending bar => do
      let _ ← MarketdataProvider.commitClosed pending store bar
      return ()
  | compact key dataFormat => do
      let _ ← compactSegment F store key dataFormat
      return ()

omit [PyText] [PyFloat F] [Sha256] [Parquet] in
def series : StoreOp F → SeriesKey
  | replaceAll key _ _ => key
  | replaceAllStream key _ => key
  | appendStrictlyNewer key _ => key
  | upsertClosed bar => bar.key
  | commitClosed _ bar => bar.key
  | compact key _ => key

omit [PyText] [PyFloat F] [Sha256] [Parquet] in
/-- The bars that come from the caller. -/
def given : StoreOp F → List (MarketBar F)
  | replaceAll _ bars _ => bars
  | replaceAllStream _ bars => bars
  | appendStrictlyNewer _ bars => bars
  | upsertClosed bar => [bar]
  | commitClosed _ bar => [bar]
  | compact _ _ => []

end StoreOp

/-- The result of an operation is thrown away. -/
theorem Sound.discard {Result : Type} {program : StoreProg Result}
    (kept : Prog.Keeps (Endures F found normal state) (fun _ => Sound F found normal) program state) :
    Prog.Keeps (Endures F found normal state) (fun _ => Sound F found normal)
      (program >>= fun _ => pure ()) state :=
  .bind kept fun _ _ done => .done (fun _ => done.recoverable) done

theorem Sound.keeps (sound : Sound F found normal state) (store : SegmentStore) (op : StoreOp F)
    (keyed : normalizedKey op.series = .ok normal) (lasting : ∀ bar ∈ op.given, bar.Lasting) :
    Prog.Keeps (Endures F found normal state) (fun _ => Sound F found normal) (op.program store)
      state := by
  cases op with
  | replaceAll key bars dataFormat =>
      refine Sound.discard (.bind sound.recoverSeries ?_)
      rintro _ _ rfl
      exact sound.replaceAllLocked store dataFormat keyed lasting
  | replaceAllStream key bars =>
      refine Sound.discard (.bind sound.recoverSeries ?_)
      rintro _ _ rfl
      exact sound.runPlan store fun _ planned => replaceAllStreamPlan_sound keyed lasting planned
  | appendStrictlyNewer key bars =>
      refine Sound.discard (.bind sound.recoverSeries ?_)
      rintro _ _ rfl
      exact sound.appendStrictlyNewerLocked store keyed lasting
  | upsertClosed bar =>
      refine Sound.discard (.bind sound.recoverSeries ?_)
      rintro _ _ rfl
      exact sound.upsertClosedLocked store keyed (lasting bar List.mem_cons_self)
  | commitClosed pending bar =>
      refine Sound.discard (.bind sound.recoverSeries ?_)
      rintro _ state rfl
      have start : Endures F found normal state state := fun _ => sound.recoverable
      refine .read start ?_
      split
      · exact .bind (sound.appendStrictlyNewerLocked store keyed lasting)
          fun _ _ done => .done (fun _ => done.recoverable) done
      · have looks : Prog.Keeps (OnlyRead state) (fun _ => OnlyRead state)
            (getLocked F pending store bar.time) state :=
          .bind (readRangeLocked_onlyRead pending store state _ _) fun _ _ only => .done only only
        refine sound.looking looks fun existing last again => ?_
        have begun : Endures F found normal last last := fun _ => again.recoverable
        cases existing with
        | some existing =>
            dsimp only
            cases compareClosed existing bar with
            | ok status => exact .done begun again
            | error error => exact .fail begun
        | none =>
            exact .bind (again.upsertClosedLocked store keyed (lasting bar List.mem_cons_self))
              fun _ _ done => .done (fun _ => done.recoverable) done
  | compact key dataFormat =>
      refine Sound.discard (.bind sound.recoverSeries ?_)
      rintro _ _ rfl
      exact sound.reading store fun read last again stored =>
        again.replaceAllLocked store dataFormat keyed stored

/-- One step of a run: an operation that completes, or one that crashes and is recovered.
A crash is only of an operation on a legible series. -/
inductive StoreStep (F : Type) [PyFloat F] (store : SegmentStore) (normal : SeriesKey) :
    SeriesState → SeriesState → Prop where
  | completes {state after : SeriesState} (op : StoreOp F)
      (keyed : normalizedKey op.series = .ok normal) (lasting : ∀ bar ∈ op.given, bar.Lasting)
      (ran : (op.program store).run state = (.ok (), after)) :
      StoreStep F store normal state after
  | recovers {state crash later after : SeriesState} (op : StoreOp F) (entry : RecoveryEntry)
      (keyed : normalizedKey op.series = .ok normal) (lasting : ∀ bar ∈ op.given, bar.Lasting)
      (crashed : crash ∈ (op.program store).visits state)
      (again : Prog.Crashes MarketdataProvider.recoverSeries crash later)
      (ran : (MarketdataProvider.recoverSeries entry).run later = (.ok (), after))
      (legible : Legible F state) : StoreStep F store normal state after

theorem StoreStep.sound {store : SegmentStore} (step : StoreStep F store normal state after)
    (sound : Sound F found normal state) : Sound F found normal after := by
  cases step with
  | completes op keyed lasting ran => exact (sound.keeps store op keyed lasting).2 _ _ ran
  | recovers op entry keyed lasting crashed again ran legible =>
      obtain ⟨recovered, same, reached⟩ :=
        (sound.keeps store op keyed lasting).1 _ crashed legible _ again entry
      rw [ran] at same
      cases same
      exact reached

/-- The validator accepts the CSV file of a sound series. -/
theorem Sound.validates (sound : Sound F found normal state) {raw : RawManifest} {bytes : List UInt8}
    (named : state.manifest = some raw) (csv : raw.toManifest.dataFormat = .csv)
    (data : state.data (.bars .csv) = some bytes) : validateCsvChecksum F bytes raw = .ok () := by
  obtain ⟨-, -, bars, content, generation, files⟩ := sound.present raw named
  obtain ⟨series, rfl⟩ := generation.csvSeries csv
  rw [files, csv, oneFile_self, Option.some.injEq] at data
  subst data
  obtain ⟨normalized, normal⟩ := normalized_of_timeframes generation.timeframes
  exact (validateCsvChecksum_csvFile_iff raw normal
    fun bar member => (generation.lasting bar member).toStorable).mpr (generation.agrees csv)

/-- Manifest, data file and index agree after every run, as long as no operation crashes on a
series that the defaults make unreadable. -/
theorem series_agrees (store : SegmentStore) (normal : SeriesKey) (start state : SeriesState)
    (sound : Sound F start.manifest normal start)
    (run : Relation.ReflTransGen (StoreStep F store normal) start state) :
    Sound F start.manifest normal state ∧
      ∀ raw bytes, state.manifest = some raw → raw.toManifest.dataFormat = .csv →
        state.data (.bars .csv) = some bytes → validateCsvChecksum F bytes raw = .ok () := by
  have reached : Sound F start.manifest normal state := by
    induction run with
    | refl => exact sound
    | tail _ step ih => exact step.sound ih
  exact ⟨reached, fun raw bytes named csv data => reached.validates named csv data⟩

end Operations

end Runs

section Legacy

open scoped Reference
open Reference

namespace Reference

/-- The manifest of an earlier version: no algorithm, and the first digest. -/
def legacyManifest : RawManifest where
  toManifestHeader := { manifest.toManifestHeader with
    schemaVersion := "stage-d-csv-1"
    checksum := (rowsDigest .v1 [candle 0]).toOption.getD "" }
  dataFormat := some .csv
  checksumAlgorithm := none
  baseChecksum := none
  baseRowsCount := none

/-- The file of one candle under this manifest, with its index row. -/
def storedCandle (raw : RawManifest) : SeriesState :=
  { oneCandle with
    manifest := some raw
    index := (indexRows raw.toManifest 0).toOption.getD [] }

def legacySeries : SeriesState := storedCandle legacyManifest

/-- The candle has a digest of every version. -/
theorem candle_digested (version : ChecksumVersion) :
    ∃ checksum, rowsDigest version [candle 0] = .ok checksum := by
  cases version <;> exact eq_ok_of_toBool (by decide +kernel)

theorem legacy_agrees : ChecksumAgrees legacyManifest [candle 0] := by
  have digested : rowsDigest .v1 [candle 0] = .ok legacyManifest.checksum := by
    obtain ⟨checksum, made⟩ := candle_digested .v1
    rw [show legacyManifest.checksum = (rowsDigest .v1 [candle 0]).toOption.getD "" from rfl, made]
    rfl
  have name : ChecksumAlgorithm.ofName legacyCanonicalChecksum = some (.canonical .v1) :=
    ChecksumAlgorithm.ofName_name _
  simp only [ChecksumAgrees, show legacyManifest.checksumAlgorithm = none from rfl, Option.getD_none,
    name]
  exact digested

theorem candle_normal : [candle 0].mapM normalizedBar = .ok [candle 0] :=
  rfl

theorem candle_timeframe : canonicalTimeframe (candle 0).timeframe = .ok "1m" :=
  rfl

theorem candle_lasting : (candle 0).Lasting where
  toStorable := candle_storable
  again timeframe found := by
    obtain rfl := Except.ok.inj (candle_timeframe.symm.trans found)
    unfold MarketBar.Fits
    decide +kernel

theorem candles_storable : ∀ bar ∈ [candle 0], bar.Storable := by
  simpa using candle_storable

/-- The defaults make the manifest claim the newest digest. -/
theorem legacy_defaults_disagree :
    validateCsvChecksum Whole (csvFile [candle 0]) legacyManifest.toManifest.asdict ≠ .ok () := by
  rw [ne_eq, validateCsvChecksum_csvFile_iff _ candle_normal candles_storable]
  have name : ChecksumAlgorithm.ofName canonicalChecksum = some (.canonical .v4) :=
    ChecksumAlgorithm.ofName_name _
  simp only [ChecksumAgrees,
    show legacyManifest.toManifest.asdict.checksumAlgorithm = some canonicalChecksum from rfl,
    Option.getD_some, name]
  intro digested
  have different : (rowsDigest .v4 [candle 0]).toOption ≠
      some legacyManifest.toManifest.asdict.checksum := by decide +kernel
  rw [digested] at different
  exact different rfl

theorem oneCandle_agrees : ChecksumAgrees manifest.asdict [candle 0] := by
  obtain ⟨checksum, digested⟩ : ∃ checksum, barsChecksum [candle 0] = .ok checksum :=
    candle_digested .v4
  have made : manifest = generationManifest series .csv [candle 0] checksum := by
    rw [manifest, digested]
    rfl
  rw [made]
  exact checksumAgrees_generationManifest (rowsDigest_of_barsChecksum (by simp) digested)

/-- An append of nothing is the metadata migration. -/
theorem legacy_migration : ∃ journal,
    appendPlan legacySeries series ([] : List (MarketBar Whole)) = .ok (.commit journal []) := by
  have accepted : validatedAppendBars ([] : List (MarketBar Whole)) series = .ok [] := rfl
  have legacy : legacyManifest.toManifest.legacy = true := rfl
  have valid := (validateCsvChecksum_csvFile_iff _ candle_normal candles_storable).mpr legacy_agrees
  obtain ⟨checksum, summed⟩ := candle_digested .v4
  have digested := (csvCanonicalChecksum_csvFile_iff candle_normal candles_storable).mpr summed
  have current : currentManifest Whole legacyManifest (csvFile [candle 0]) =
      .ok (legacyManifest.toManifest.migrated checksum) := by
    rw [currentManifest, if_pos legacy, valid, ok_bind, digested]
    rfl
  refine ⟨migrationJournal legacySeries legacyManifest.toManifest
    (legacyManifest.toManifest.migrated checksum) (csvFile [candle 0]), ?_⟩
  simp only [appendPlan, accepted, ok_bind, show legacySeries.manifest = some legacyManifest from rfl,
    show legacyManifest.toManifest.dataFormat = .csv from rfl, ne_eq, not_true_eq_false, if_false,
    show legacySeries.data (.bars .csv) = some (csvFile [candle 0]) from rfl, current, unchangedPlan,
    legacy, if_true]

/-- A series of one candle is sound under every manifest that describes it. -/
theorem storedCandle_sound {raw : RawManifest} (key : raw.key = series)
    (csv : raw.toManifest.dataFormat = .csv) (spans : raw.toManifest.Spans [candle 0])
    (agrees : ChecksumAgrees raw [candle 0]) (indexed : (storedCandle raw).Indexed raw.toManifest) :
    Sound Whole (some raw) series (storedCandle raw) := by
  refine ⟨⟨rfl, rfl⟩, fun _ _ => rfl, by rintro ⟨⟩, ?_⟩
  rintro _ ⟨⟩
  refine ⟨fun _ => .inr (.inl rfl), indexed, [candle 0], csvFile [candle 0], ⟨key, ?_, spans, ?_, ?_, ?_,
    fun _ => agrees⟩, fun format => ?_⟩
  · rw [csv]
    rfl
  · simp
  · simpa using ⟨_, candle_timeframe⟩
  · simpa using candle_lasting
  · rw [csv]
    cases format
    · rfl
    · rfl

theorem legacy_spans : legacyManifest.toManifest.Spans [candle 0] := ⟨rfl, rfl, rfl⟩

theorem legacy_sound : Sound Whole legacySeries.manifest series legacySeries :=
  storedCandle_sound rfl rfl legacy_spans legacy_agrees ⟨0, rfl⟩

end Reference

theorem series_agrees_oneCandle : ∃ state,
    StoreStep Whole ⟨.csv, true, false⟩ series oneCandle state ∧
      Sound Whole oneCandle.manifest series state := by
  obtain ⟨_, ran⟩ : ∃ result,
      (((StoreOp.replaceAll series [candle 0] none).program ⟨.csv, true, false⟩).run oneCandle).1 =
        .ok result := eq_ok_of_toBool (by decide +kernel)
  have step : StoreStep Whole ⟨.csv, true, false⟩ series oneCandle _ :=
    .completes (.replaceAll series [candle 0] none) normalizedKey_series (by simpa [StoreOp.given] using candle_lasting)
      (Prod.ext ran rfl)
  have sound : Sound Whole oneCandle.manifest series oneCandle :=
    storedCandle_sound rfl rfl (generationManifest_spans _ _ _ _) oneCandle_agrees ⟨0, rfl⟩
  exact ⟨_, step, (series_agrees ⟨.csv, true, false⟩ series oneCandle _ sound (.single step)).1⟩

/-- The metadata migration of a legacy series crashes after its journal: the recovered manifest
claims the newest digest for the first one. -/
theorem legacy_crash_disagrees : ∃ crash after raw,
    Sound Whole legacySeries.manifest series legacySeries ∧
      crash ∈ ((StoreOp.appendStrictlyNewer series ([] : List (MarketBar Whole))).program
        ⟨.csv, true, false⟩).visits legacySeries ∧
      (recoverSeries .seriesLock).run crash = (.ok (), after) ∧
      after.manifest = some raw ∧ after.data (.bars .csv) = some (csvFile [candle 0]) ∧
      validateCsvChecksum Whole (csvFile [candle 0]) raw ≠ .ok () := by
  obtain ⟨journal, reached⟩ := legacy_migration
  have named : legacySeries.manifest = some legacyManifest := rfl
  obtain ⟨commit, origin, raw, rfl, -⟩ := appendPlan_appendCommit ⟨rfl, rfl⟩ named
    legacy_spans.insertable reached
  have pending : commit.Pending (commit.origin.journaled commit.journal) := commit.journaled.pending
  rw [origin] at pending
  obtain ⟨-, _, after, ran, back, number, found⟩ := pending.recoverSeries .seriesLock
  refine ⟨_, after, _, legacy_sound, Prog.visits_bind_left
    (journaled_visited ⟨.csv, true, false⟩ ⟨rfl, rfl⟩ reached), ran, back.manifest, ?_, ?_⟩
  · have bytes : commit.bytes = csvFile [candle 0] := by
      have present := commit.present
      rw [origin] at present
      exact (Option.some.inj present).symm
    rw [SeriesState.data, found, bytes]
    rfl
  · rw [← commit.reading, raw]
    exact legacy_defaults_disagree

end Legacy

end MarketdataProvider
