import MarketdataProvider.Store.AppendRecovery

namespace MarketdataProvider

open Foundation Foundation.Crash

/-- The durable image of a series: both data files, the manifest and the index rows. -/
structure SeriesImage where
  data : SegmentFormat → Option (List UInt8)
  manifest : Option RawManifest
  rows : List IndexRow

def SeriesState.image (state : SeriesState) (key : SeriesKey) : SeriesImage where
  data := fun format => state.data (.bars format)
  manifest := state.manifest
  rows := state.seriesRows key

theorem SeriesState.file_unlinkData (state : SeriesState) (name other : DataName) :
    (state.unlinkData name).file other = if other = name then none else state.file other := by
  split
  · rename_i same
    rw [same, file_unlinkData_self]
  · rename_i different
    exact file_unlinkData_of_ne state different

theorem SeriesState.file_unlinkData_none {state : SeriesState} {name other : DataName}
    (absent : state.file other = none) : (state.unlinkData name).file other = none := by
  rw [file_unlinkData, absent, ite_self]

def SeriesState.unlinkOption (state : SeriesState) : Option DataName → SeriesState
  | none => state
  | some name => state.unlinkData name

@[simp] theorem SeriesState.seriesRows_unlinkOption (state : SeriesState) (name : Option DataName)
    (key : SeriesKey) : (state.unlinkOption name).seriesRows key = state.seriesRows key := by
  cases name <;> rfl

@[simp] theorem SeriesState.manifest_unlinkOption (state : SeriesState) (name : Option DataName) :
    (state.unlinkOption name).manifest = state.manifest := by
  cases name <;> rfl

@[simp] theorem SeriesState.replaceJournal_unlinkOption (state : SeriesState)
    (name : Option DataName) : (state.unlinkOption name).replaceJournal = state.replaceJournal := by
  cases name <;> rfl

@[simp] theorem SeriesState.generation_unlinkOption (state : SeriesState)
    (name : Option DataName) : (state.unlinkOption name).generation = state.generation := by
  cases name <;> rfl

theorem SeriesState.file_unlinkOption_none {state : SeriesState} {other : DataName}
    (name : Option DataName) (absent : state.file other = none) :
    (state.unlinkOption name).file other = none := by
  cases name with
  | none => exact absent
  | some name => exact file_unlinkData_none absent

theorem SeriesState.file_unlinkOption_of_ne {state : SeriesState} {name : Option DataName}
    {other : DataName} (different : name ≠ some other) :
    (state.unlinkOption name).file other = state.file other := by
  cases name with
  | none => rfl
  | some name => exact state.file_unlinkData_of_ne fun same => different (congrArg some same.symm)

theorem unlinkOptional_guarded {invariant : SeriesState → Prop} {state : SeriesState}
    (name : Option DataName) (before : invariant state) (after : invariant (state.unlinkOption name)) :
    Prog.Guarded invariant (fun _ final => final = state.unlinkOption name) (unlinkOptional name)
      state := by
  cases name with
  | none => exact .done before rfl
  | some name => exact .step before (.done after rfl)

/-- The data files of one generation: one file, in the generation's format. -/
def oneFile {Content : Type} (format : Option SegmentFormat) (content : Content) :
    SegmentFormat → Option Content :=
  fun other => if format = some other then some content else none

theorem oneFile_self {Content : Type} (format : SegmentFormat) (content : Content) :
    oneFile (some format) content format = some content :=
  if_pos rfl

theorem eq_or_otherFormat (format other : SegmentFormat) :
    other = format ∨ other = otherFormat format := by
  cases format <;> cases other <;> decide

/-- A hard link is the live file itself, a copy is a new file with the same bytes. -/
def SegmentStore.backupOf (store : SegmentStore) (state : SeriesState) (live : Nat × StoredFile) :
    Nat × StoredFile :=
  if store.hardLinks then live else (state.files.fresh, ⟨live.2.bytes, state.clock⟩)

theorem SegmentStore.backupOf_bytes (store : SegmentStore) (state : SeriesState)
    (live : Nat × StoredFile) : (store.backupOf state live).2.bytes = live.2.bytes := by
  unfold backupOf
  split <;> rfl

/-- One replacement: the series from which it starts, and the generation to which it leads.
The manifest on disk can lack fields that the journal's image of it has, and a crash before an
earlier journal can have left a backup of the live format. -/
structure ReplaceCommit [PyText] where
  origin : SeriesState
  store : SegmentStore
  raw : Option RawManifest
  new : SegmentManifest
  live : Nat × StoredFile
  newDownloadedAt : Int
  oldRows : List IndexRow
  newRows : List IndexRow
  quiet : origin.Quiescent
  clean : ∀ format, (raw.map fun manifest => manifest.toManifest.dataFormat) ≠ some format →
    origin.file (.backup format) = none
  named : origin.manifest = raw
  bars : ∀ format, origin.file (.bars format) =
    oneFile (raw.map fun manifest => manifest.toManifest.dataFormat) live format
  identity : validateManifestIdentity (raw.map RawManifest.toManifest) new = .ok ()
  path : validateJournalPath origin.directory new = .ok ()
  oldIndexed : ∀ manifest, raw = some manifest →
    indexRows manifest.toManifest (indexedDownloadedAt origin manifest.toManifest) = .ok oldRows
  unindexed : raw = none → oldRows = []
  newIndexed : indexRows new newDownloadedAt = .ok newRows

namespace ReplaceCommit

variable [PyText]

def key (commit : ReplaceCommit) : SeriesKey := commit.new.key

def old (commit : ReplaceCommit) : Option SegmentManifest := commit.raw.map RawManifest.toManifest

def oldFormat (commit : ReplaceCommit) : Option SegmentFormat :=
  commit.old.map SegmentManifest.dataFormat

def oldBytes (commit : ReplaceCommit) : List UInt8 := commit.live.2.bytes

/-- The file that keeps the old bytes until the new generation is complete. -/
def kept (commit : ReplaceCommit) : Nat × StoredFile := commit.store.backupOf commit.origin commit.live

def oldDownloadedAt (commit : ReplaceCommit) : Int :=
  (commit.old.map (indexedDownloadedAt commit.origin)).getD 0

def journal (commit : ReplaceCommit) : ReplaceJournal where
  oldManifest := commit.old
  newManifest := commit.new
  oldDataName := commit.oldFormat
  newDataName := commit.new.dataFormat
  backupName := commit.oldFormat
  oldDownloadedAt := commit.oldDownloadedAt
  newDownloadedAt := commit.newDownloadedAt

def after (commit : ReplaceCommit) (bytes : List UInt8) : SeriesImage where
  data := oneFile (some commit.new.dataFormat) bytes
  manifest := some commit.new.asdict
  rows := commit.newRows

/-- What every state between the first and the last step shares. -/
structure Framed (commit : ReplaceCommit) (state : SeriesState) : Prop where
  directory : state.directory = commit.origin.directory
  appendJournal : state.appendJournal = none
  bars : ∀ format, format ≠ commit.new.dataFormat → commit.oldFormat ≠ some format →
    state.file (.bars format) = none
  backups : ∀ format, commit.oldFormat ≠ some format → state.file (.backup format) = none

/-- The old data file is live. -/
def Live (commit : ReplaceCommit) (state : SeriesState) : Prop :=
  ∀ format, commit.oldFormat = some format → state.file (.bars format) = some commit.kept

/-- The journal is published and the old manifest is still there, in one of its two spellings. -/
structure Pending (commit : ReplaceCommit) (state : SeriesState) : Prop extends
    commit.Framed state where
  journal : state.replaceJournal = some commit.journal
  manifest : state.manifest = commit.raw ∨
    (state.manifest = commit.old.map SegmentManifest.asdict ∧ commit.Live state)
  backup : ∀ format, commit.oldFormat = some format →
    state.file (.backup format) = some commit.kept ∨
      (state.file (.backup format) = none ∧ state.file (.bars format) = some commit.kept)
  generation : state.generation = commit.origin.generation

/-- The old generation is back: no journal, no backup, and the old file alone. -/
structure RolledBack (commit : ReplaceCommit) (state : SeriesState) : Prop where
  quiet : state.Quiescent
  clean : ∀ format, state.file (.backup format) = none
  bars : ∀ format, state.file (.bars format) = oneFile commit.oldFormat commit.kept format
  manifest : state.manifest = commit.old.map SegmentManifest.asdict
  rows : state.seriesRows commit.key = commit.oldRows
  generation : state.generation = commit.origin.generation

/-- The new manifest is published: recovery rolls forward with the bytes that are there. -/
structure Published (commit : ReplaceCommit) (bytes : List UInt8) (state : SeriesState) : Prop extends
    commit.Framed state where
  journal : state.replaceJournal = some commit.journal
  manifest : state.manifest = some commit.new.asdict
  live : state.data (.bars commit.new.dataFormat) = some bytes

/-- The new generation is complete, and a CSV file carries its integrity generation. -/
structure Completed (commit : ReplaceCommit) (bytes : List UInt8) (state : SeriesState) : Prop where
  quiet : state.Quiescent
  clean : ∀ format, state.file (.backup format) = none
  image : state.image commit.key = commit.after bytes
  generation : commit.new.dataFormat = .csv →
    ∃ payload, generationPayload state commit.new = .ok payload ∧ state.generation = some payload

def RollsForward (commit : ReplaceCommit) (bytes : List UInt8) (state : SeriesState) : Prop :=
  commit.Published bytes state ∨ commit.Completed bytes state

/-- Until the new manifest is published, recovery rolls back.
When both manifests are equal, a rollback that has written it again counts as published. -/
def RollsBack (commit : ReplaceCommit) (state : SeriesState) : Prop :=
  (commit.Pending state ∧ state.manifest ≠ some commit.new.asdict) ∨ commit.RolledBack state ∨
    (commit.old = some commit.new ∧ commit.RollsForward commit.oldBytes state)

/-- Where recovery ends before the publication. -/
def Undone (commit : ReplaceCommit) (state : SeriesState) : Prop :=
  commit.RolledBack state ∨
    (commit.old = some commit.new ∧ commit.Completed commit.oldBytes state)

variable {commit : ReplaceCommit} {state : SeriesState} {bytes : List UInt8}

theorem kept_bytes (commit : ReplaceCommit) : commit.kept.2.bytes = commit.oldBytes :=
  commit.store.backupOf_bytes _ _

theorem old_eq {manifest : SegmentManifest} (old : commit.old = some manifest) :
    ∃ raw, commit.raw = some raw ∧ raw.toManifest = manifest :=
  Option.map_eq_some_iff.mp old

theorem raw_eq_none (first : commit.old = none) : commit.raw = none :=
  Option.map_eq_none_iff.mp first

theorem oldIndexed_of_old {manifest : SegmentManifest} (old : commit.old = some manifest) :
    indexRows manifest commit.oldDownloadedAt = .ok commit.oldRows := by
  obtain ⟨raw, named, rfl⟩ := commit.old_eq old
  rw [oldDownloadedAt, old]
  exact commit.oldIndexed raw named

theorem validatedJournal_eq (directory : state.directory = commit.origin.directory)
    (journal : state.replaceJournal = some commit.journal) :
    validatedJournal state = .ok commit.journal := by
  have identity : validateManifestIdentity commit.old commit.new = .ok () := commit.identity
  simp only [validatedJournal, journal]
  simp [ReplaceCommit.journal, directory, identity, commit.path, oldFormat, ok_bind]

theorem Framed.unlinkData (framed : commit.Framed state) (name : DataName) :
    commit.Framed (state.unlinkData name) :=
  ⟨framed.directory, framed.appendJournal,
    fun format notNew notOld => SeriesState.file_unlinkData_none (framed.bars format notNew notOld),
    fun format notOld => SeriesState.file_unlinkData_none (framed.backups format notOld)⟩

/-- Removing any other file leaves the published generation alone. -/
theorem Published.unlinkData (published : commit.Published bytes state) (name : DataName)
    (other : name ≠ .bars commit.new.dataFormat) : commit.Published bytes (state.unlinkData name) :=
  ⟨published.toFramed.unlinkData name, published.journal, published.manifest, by
    rw [SeriesState.data_unlinkData_of_ne state other.symm, published.live]⟩

theorem Published.generation (published : commit.Published bytes state)
    (payload : IntegrityGeneration) :
    commit.Published bytes { state with generation := some payload } :=
  ⟨⟨published.directory, published.appendJournal, published.bars, published.backups⟩,
    published.journal, published.manifest, published.live⟩

/-- The new index rows are written as well. -/
def Indexed (commit : ReplaceCommit) (bytes : List UInt8) (state : SeriesState) : Prop :=
  commit.Published bytes state ∧ state.seriesRows commit.key = commit.newRows

/-- The integrity generation of a CSV file is published. -/
def Certified (commit : ReplaceCommit) (bytes : List UInt8) (state : SeriesState) : Prop :=
  commit.Indexed bytes state ∧ (commit.new.dataFormat = .csv →
    ∃ payload, generationPayload state commit.new = .ok payload ∧ state.generation = some payload)

theorem Published.replaceIndex (published : commit.Published bytes state) :
    commit.Indexed bytes (state.replaceIndex commit.new.key commit.newRows) :=
  ⟨⟨⟨published.directory, published.appendJournal, published.bars, published.backups⟩,
    published.journal, published.manifest, published.live⟩,
    state.seriesRows_replaceIndex (key_of_mem_indexRows commit.newIndexed)⟩

theorem Indexed.unlinkSuperseded (indexed : commit.Indexed bytes state) :
    Prog.Guarded (commit.Indexed bytes) (fun _ => commit.Indexed bytes)
      (unlinkSuperseded commit.journal) state := by
  unfold MarketdataProvider.unlinkSuperseded
  split
  · exact .done indexed indexed
  · rename_i different
    cases own : commit.oldFormat with
    | none =>
        rw [show commit.journal.oldDataName = none from own]
        exact .done indexed indexed
    | some format =>
        rw [show commit.journal.oldDataName = some format from own] at different ⊢
        have other : (.bars format : DataName) ≠ .bars commit.new.dataFormat := by
          rintro ⟨⟩
          exact different rfl
        have kept : commit.Indexed bytes (state.unlinkData (.bars format)) :=
          ⟨indexed.1.unlinkData _ other, indexed.2⟩
        exact .step indexed (.done kept kept)

theorem Indexed.publishReplacement (indexed : commit.Indexed bytes state) :
    Prog.Guarded (commit.Indexed bytes) (fun _ => commit.Certified bytes)
      (publishReplacement commit.journal) state := by
  unfold MarketdataProvider.publishReplacement
  split
  · rename_i isCsv
    have live : state.data (.bars .csv) = some bytes := by
      rw [← indexed.1.live, ← isCsv]
      rfl
    have kept (payload : IntegrityGeneration) :
        commit.Indexed bytes { state with generation := some payload } :=
      ⟨indexed.1.generation payload, indexed.2⟩
    refine (publishIntegrityGeneration_guarded _ live indexed kept).weaken ?_
    rintro _ _ ⟨payload, stamped, rfl⟩
    exact ⟨kept payload, fun _ => ⟨payload, stamped, rfl⟩⟩
  · rename_i notCsv
    exact .done indexed ⟨indexed, fun isCsv => absurd isCsv notCsv⟩

/-- Removing another file leaves the certificate alone. -/
theorem Certified.unlinkData (certified : commit.Certified bytes state) (name : DataName)
    (other : name ≠ .bars commit.new.dataFormat) : commit.Certified bytes (state.unlinkData name) := by
  obtain ⟨indexed, generation⟩ := certified
  refine ⟨⟨indexed.1.unlinkData name other, indexed.2⟩, fun isCsv => ?_⟩
  rw [isCsv] at other
  have same : generationPayload (state.unlinkData name) commit.new =
      generationPayload state commit.new := by
    rw [generationPayload, generationPayload, SeriesState.file_unlinkData_of_ne state other.symm]
  rw [same]
  exact generation isCsv

/-- Only the old format can have a backup, so that one removal leaves none. -/
theorem Framed.noBackups (framed : commit.Framed state) (format : SegmentFormat) :
    (state.unlinkOption (commit.oldFormat.map .backup)).file (.backup format) = none := by
  by_cases own : commit.oldFormat = some format
  · rw [own]
    exact state.file_unlinkData_self _
  · exact SeriesState.file_unlinkOption_none _ (framed.backups format own)

/-- With one data file, no backup and the new rows, only the journal is left to remove. -/
theorem Certified.completed (certified : commit.Certified bytes state)
    (single : state.file (.bars (otherFormat commit.new.dataFormat)) = none)
    (clean : ∀ format, state.file (.backup format) = none) :
    commit.Completed bytes { state with replaceJournal := none } := by
  obtain ⟨⟨published, rows⟩, generation⟩ := certified
  refine ⟨⟨published.appendJournal, rfl⟩, clean, ?_, generation⟩
  have data : (fun format => state.data (.bars format)) = oneFile (some commit.new.dataFormat) bytes := by
    funext format
    rcases eq_or_otherFormat commit.new.dataFormat format with rfl | rfl
    · rw [published.live, oneFile_self]
    · rw [SeriesState.data_eq_none_iff.mpr single, oneFile,
        if_neg (by cases commit.new.dataFormat <;> decide)]
  simp only [SeriesState.image, after]
  rw [← rows, ← published.manifest, ← data]
  rfl

/-- The last steps remove the file of the other format, the backup and the journal. -/
theorem Indexed.finishReplacement (indexed : commit.Indexed bytes state) :
    Prog.Guarded (commit.RollsForward bytes) (fun _ => commit.Completed bytes)
      finishReplacement state := by
  have forward : ∀ state, commit.Indexed bytes state → commit.RollsForward bytes state :=
    fun _ indexed => .inl indexed.1
  refine .read (.inl indexed.1) ?_
  refine .ofExcept (validatedJournal_eq indexed.1.directory indexed.1.journal) ?_
  refine .bind (indexed.unlinkSuperseded.widen forward) fun _ first indexed => ?_
  refine .bind (indexed.publishReplacement.widen forward) fun _ second certified => ?_
  have single := certified.unlinkData (.bars (otherFormat commit.new.dataFormat))
    (by cases commit.new.dataFormat <;> decide)
  have clean : commit.Certified bytes
      ((second.unlinkData (.bars (otherFormat commit.new.dataFormat))).unlinkOption
        (commit.oldFormat.map .backup)) := by
    cases commit.oldFormat with
    | none => exact single
    | some format => exact single.unlinkData _ (by simp)
  refine .modify (.inl certified.1.1) (.bind
    (unlinkOptional_guarded _ (.inl single.1.1) (.inl clean.1.1)) ?_)
  rintro _ _ rfl
  have completed := clean.completed
    (SeriesState.file_unlinkOption_none _ (SeriesState.file_unlinkData_self _ _))
    single.1.1.toFramed.noBackups
  exact .step (.inl clean.1.1) (.done (.inr completed) completed)

/-- A published replacement is rolled forward to its generation. -/
theorem Published.recoverReplacementJournal (published : commit.Published bytes state) :
    Prog.Guarded (commit.RollsForward bytes) (fun _ => commit.Completed bytes)
      recoverReplacementJournal state := by
  have committed : replacementCommitted state commit.journal = true := by
    have live : state.data (.bars commit.journal.newDataName) = some bytes := published.live
    simp only [replacementCommitted, published.manifest, live, Option.isSome_some, Bool.and_true,
      decide_eq_true_eq]
    rfl
  have indexed := published.replaceIndex
  refine .read (.inl published) ?_
  refine .ofExcept (validatedJournal_eq published.directory published.journal) ?_
  rw [if_pos committed]
  refine .bind (replaceIndexManifest_guarded commit.newIndexed (.inl published) (.inl indexed.1)) ?_
  rintro _ _ rfl
  exact indexed.finishReplacement

theorem RollsForward.recoverSeries (forward : commit.RollsForward bytes state) (entry : RecoveryEntry) :
    Prog.Guarded (commit.RollsForward bytes) (fun _ => commit.Completed bytes)
      (recoverSeries entry) state := by
  refine recoverSeries_replacement_guarded forward ?_ ?_ ?_ entry
  · rintro other (published | completed)
    · exact published.appendJournal
    · exact completed.quiet.1
  · intro quiet
    rcases forward with published | completed
    · rw [published.journal] at quiet
      cases quiet
    · exact completed
  · intro journaled
    rcases forward with published | completed
    · exact published.recoverReplacementJournal
    · simp [completed.quiet.2] at journaled

/-- A data file of another format than the old one can go. -/
theorem Pending.unlinkBars (pending : commit.Pending state) {format : SegmentFormat}
    (superseding : commit.oldFormat ≠ some format) :
    commit.Pending (state.unlinkData (.bars format)) := by
  have different (other : SegmentFormat) (own : commit.oldFormat = some other) :
      (.bars other : DataName) ≠ .bars format := by
    rintro ⟨⟩
    exact superseding own
  refine ⟨pending.toFramed.unlinkData _, pending.journal, pending.manifest.imp id ?_,
    fun other own => ?_, pending.generation⟩
  · rintro ⟨manifest, live⟩
    refine ⟨manifest, fun other own => ?_⟩
    rw [SeriesState.file_unlinkData_of_ne _ (different other own), live other own]
  · rw [SeriesState.file_unlinkData_of_ne _ (by simp),
      SeriesState.file_unlinkData_of_ne _ (different other own)]
    exact pending.backup other own

/-- Pending, and the data files are those of the old generation again. -/
structure Restored (commit : ReplaceCommit) (state : SeriesState) : Prop where
  pending : commit.Pending state
  bars : ∀ format, state.file (.bars format) = oneFile commit.oldFormat commit.kept format

/-- The old manifest and its index rows are written again as well. -/
structure Rewritten (commit : ReplaceCommit) (state : SeriesState) : Prop extends
    commit.Restored state where
  manifest : state.manifest = commit.old.map SegmentManifest.asdict
  rows : state.seriesRows commit.key = commit.oldRows

theorem Restored.live (restored : commit.Restored state) : commit.Live state := by
  intro format own
  rw [restored.bars, own, oneFile_self]

theorem key_eq_of_old {manifest : SegmentManifest} (old : commit.old = some manifest) :
    manifest.key = commit.key := by
  have identity : validateManifestIdentity commit.old commit.new = .ok () := commit.identity
  simp only [validateManifestIdentity, old] at identity
  split at identity
  · assumption
  · cases identity

/-- A first write had no generation before it: everything that it wrote is removed. -/
theorem Pending.removeNewGeneration (pending : commit.Pending state) (first : commit.old = none) :
    Prog.Guarded commit.Pending (fun _ => commit.Rewritten)
      (removeNewGeneration commit.journal) state := by
  have noFormat (format : SegmentFormat) : commit.oldFormat ≠ some format := by
    simp [oldFormat, first]
  have noRaw := commit.raw_eq_none first
  have removed := pending.unlinkBars (noFormat commit.new.dataFormat)
  have unmanifested : commit.Pending
      { state.unlinkData (.bars commit.new.dataFormat) with manifest := none } :=
    ⟨⟨removed.directory, removed.appendJournal, removed.bars, removed.backups⟩, removed.journal,
      .inl noRaw.symm, removed.backup, removed.generation⟩
  have unindexed : commit.Pending
      (SeriesState.replaceIndex { state.unlinkData (.bars commit.new.dataFormat) with manifest := none }
        commit.new.key []) :=
    ⟨⟨removed.directory, removed.appendJournal, removed.bars, removed.backups⟩, removed.journal,
      .inl noRaw.symm, removed.backup, removed.generation⟩
  have bars (format : SegmentFormat) :
      (state.unlinkData (.bars commit.new.dataFormat)).file (.bars format) =
        oneFile commit.oldFormat commit.kept format := by
    rw [oneFile, if_neg (noFormat format)]
    by_cases own : format = commit.new.dataFormat
    · rw [own]
      exact state.file_unlinkData_self _
    · exact removed.bars format own (noFormat format)
  refine .modify pending (.modify removed (.step unmanifested (.done unindexed ⟨⟨unindexed, bars⟩, ?_, ?_⟩)))
  · rw [first]
    rfl
  · rw [commit.unindexed noRaw]
    exact SeriesState.seriesRows_replaceIndex _ (by simp)

/-- The rename puts the old file back, whether or not it moves anything. -/
theorem Pending.renameBackup (pending : commit.Pending state) {format : SegmentFormat}
    (own : commit.oldFormat = some format) (present : state.file (.backup format) = some commit.kept) :
    commit.Pending (state.renameData (.backup format) (.bars format)) ∧
      (state.renameData (.backup format) (.bars format)).file (.bars format) = some commit.kept := by
  have back : (state.renameData (.backup format) (.bars format)).file (.bars format) =
      some commit.kept := state.file_renameData_target present
  refine ⟨⟨⟨pending.directory, pending.appendJournal, fun other notNew notOld => ?_,
    fun other notOld => ?_⟩, pending.journal, pending.manifest.imp id ?_, fun other same => ?_,
    pending.generation⟩, back⟩
  · rw [SeriesState.file_renameData_of_ne _ (by simp) (by rintro ⟨⟩; exact notOld own)]
    exact pending.bars other notNew notOld
  · rw [SeriesState.file_renameData_of_ne _ (by rintro ⟨⟩; exact notOld own) (by simp)]
    exact pending.backups other notOld
  · rintro ⟨manifest, _⟩
    refine ⟨manifest, fun other same => ?_⟩
    rw [own, Option.some.injEq] at same
    rw [← same, back]
  · rw [own, Option.some.injEq] at same
    subst same
    rcases state.file_renameData_source (.backup format) (.bars format) with gone | stays
    · exact .inr ⟨gone, back⟩
    · exact .inl (stays.trans present)

theorem Pending.restoreBackup (pending : commit.Pending state) {format : SegmentFormat}
    (own : commit.oldFormat = some format) :
    Prog.Guarded commit.Pending
      (fun _ after => commit.Pending after ∧ after.file (.bars format) = some commit.kept)
      (restoreBackup commit.journal) state := by
  have names : commit.journal.backupName = some format ∧ commit.journal.oldDataName = some format :=
    ⟨own, own⟩
  refine .read pending ?_
  simp only [names.1, names.2]
  rcases pending.backup format own with present | ⟨absent, live⟩
  · rw [SeriesState.data_eq_some present]
    have renamed := pending.renameBackup own present
    exact .step pending (.done renamed.1 renamed)
  · rw [SeriesState.data_eq_none_iff.mpr absent]
    exact .done pending ⟨pending, live⟩

/-- With the old file live and no other data file the old files are there again. -/
theorem Pending.restored (pending : commit.Pending state) {format : SegmentFormat}
    (own : commit.oldFormat = some format) (live : state.file (.bars format) = some commit.kept)
    (alone : ∀ other, other ≠ format → state.file (.bars other) = none) : commit.Restored state := by
  refine ⟨pending, fun other => ?_⟩
  by_cases same : other = format
  · rw [same, own, live, oneFile_self]
  · rw [alone other same, own, oneFile, if_neg (by rintro ⟨⟩; exact same rfl)]

theorem Pending.unlinkReplacing (pending : commit.Pending state) {format : SegmentFormat}
    (own : commit.oldFormat = some format) (live : state.file (.bars format) = some commit.kept) :
    Prog.Guarded commit.Pending (fun _ => commit.Restored) (unlinkReplacing commit.journal) state := by
  have foreign (other : SegmentFormat) (different : other ≠ format) : commit.oldFormat ≠ some other := by
    rw [own]
    rintro ⟨⟩
    exact different rfl
  unfold MarketdataProvider.unlinkReplacing
  split
  · rename_i same
    have sameFormat : commit.new.dataFormat = format := Option.some.inj (same.trans own)
    refine .done pending (pending.restored own live fun other different => ?_)
    exact pending.bars other (by rw [sameFormat]; exact different) (foreign other different)
  · rename_i different
    have superseding : commit.oldFormat ≠ some commit.new.dataFormat := fun same => different same.symm
    have removed := pending.unlinkBars superseding
    have live' : (state.unlinkData (.bars commit.new.dataFormat)).file (.bars format) =
        some commit.kept := by
      rw [SeriesState.file_unlinkData_of_ne _ (by rintro ⟨⟩; exact superseding own), live]
    refine .step pending (.done removed (removed.restored own live' fun other alien => ?_))
    by_cases replaced : other = commit.new.dataFormat
    · rw [replaced]
      exact state.file_unlinkData_self _
    · exact removed.bars other replaced (foreign other alien)

theorem Restored.writeManifestAndIndex (restored : commit.Restored state) {manifest : SegmentManifest}
    (old : commit.old = some manifest) :
    Prog.Guarded commit.Pending (fun _ => commit.Rewritten)
      (writeManifestAndIndex manifest commit.journal.oldDownloadedAt) state := by
  have pending := restored.pending
  have spelled : some manifest.asdict = commit.old.map SegmentManifest.asdict := by
    rw [old]
    rfl
  have rewritten : commit.Pending { state with manifest := some manifest.asdict } :=
    ⟨⟨pending.directory, pending.appendJournal, pending.bars, pending.backups⟩, pending.journal,
      .inr ⟨spelled, restored.live⟩, pending.backup, pending.generation⟩
  have written := commit.oldIndexed_of_old old
  have reindexed : commit.Pending
      { state.replaceIndex manifest.key commit.oldRows with manifest := some manifest.asdict } :=
    ⟨⟨pending.directory, pending.appendJournal, pending.bars, pending.backups⟩, pending.journal,
      .inr ⟨spelled, restored.live⟩, pending.backup, pending.generation⟩
  refine (writeManifestAndIndex_guarded written pending rewritten reindexed).weaken ?_
  rintro _ _ rfl
  refine ⟨⟨reindexed, restored.bars⟩, spelled, ?_⟩
  have rows := state.seriesRows_replaceIndex (key_of_mem_indexRows written)
  rw [key_eq_of_old old] at rows ⊢
  exact rows

theorem Pending.restoreGeneration (pending : commit.Pending state) :
    Prog.Guarded commit.Pending (fun _ => commit.Rewritten) (restoreGeneration commit.journal)
      state := by
  unfold MarketdataProvider.restoreGeneration
  cases old : commit.old with
  | none =>
      rw [show commit.journal.oldManifest = none from old]
      exact pending.removeNewGeneration old
  | some manifest =>
      rw [show commit.journal.oldManifest = some manifest from old]
      have own : commit.oldFormat = some manifest.dataFormat := by rw [oldFormat, old]; rfl
      refine .bind (pending.restoreBackup own) fun _ first reached => .read reached.1 ?_
      have present : (commit.journal.oldDataName.bind fun oldData => first.data (.bars oldData)) ≠ none := by
        rw [show commit.journal.oldDataName = some manifest.dataFormat from own, Option.bind_some,
          SeriesState.data_eq_some reached.2]
        simp
      rw [if_neg present]
      exact .bind (reached.1.unlinkReplacing own reached.2) fun _ second restored =>
        restored.writeManifestAndIndex old

/-- The backup is not needed any more once the old file is live. -/
theorem Rewritten.unlinkBackup (rewritten : commit.Rewritten state) :
    commit.Rewritten (state.unlinkOption (commit.oldFormat.map .backup)) := by
  have pending := rewritten.pending
  have bars (format : SegmentFormat) :
      (state.unlinkOption (commit.oldFormat.map .backup)).file (.bars format) =
        state.file (.bars format) :=
    SeriesState.file_unlinkOption_of_ne (by cases commit.oldFormat <;> simp)
  have framed : commit.Framed (state.unlinkOption (commit.oldFormat.map .backup)) := by
    cases commit.oldFormat with
    | none => exact pending.toFramed
    | some own => exact pending.toFramed.unlinkData _
  have live : commit.Live (state.unlinkOption (commit.oldFormat.map .backup)) :=
    fun format own => (bars format).trans (rewritten.live format own)
  refine ⟨⟨⟨framed, ?_, .inr ⟨?_, live⟩, fun format own =>
    .inr ⟨pending.toFramed.noBackups format, live format own⟩, ?_⟩,
    fun format => (bars format).trans (rewritten.bars format)⟩, ?_, ?_⟩
  · rw [SeriesState.replaceJournal_unlinkOption, pending.journal]
  · rw [SeriesState.manifest_unlinkOption, rewritten.manifest]
  · rw [SeriesState.generation_unlinkOption, pending.generation]
  · rw [SeriesState.manifest_unlinkOption, rewritten.manifest]
  · rw [SeriesState.seriesRows_unlinkOption, rewritten.rows]

theorem Rewritten.rolledBack (rewritten : commit.Rewritten state)
    (clean : ∀ format, state.file (.backup format) = none) :
    commit.RolledBack { state with replaceJournal := none } :=
  ⟨⟨rewritten.pending.appendJournal, rfl⟩, clean, rewritten.bars, rewritten.manifest, rewritten.rows,
    rewritten.pending.generation⟩

/-- A rollback that has written a manifest equal to the new one looks like a published commit. -/
theorem Pending.rollsBack (pending : commit.Pending state)
    (unpublished : commit.raw ≠ some commit.new.asdict) : commit.RollsBack state := by
  by_cases same : state.manifest = some commit.new.asdict
  · rcases pending.manifest with raw | ⟨spelled, live⟩
    · exact absurd (raw.symm.trans same) unpublished
    · obtain ⟨manifest, old, equal⟩ := Option.map_eq_some_iff.mp (spelled.symm.trans same)
      obtain rfl := asdict_injective equal
      have own : commit.oldFormat = some commit.new.dataFormat := by rw [oldFormat, old]; rfl
      refine .inr (.inr ⟨old, .inl ⟨pending.toFramed, pending.journal, same, ?_⟩⟩)
      rw [SeriesState.data_eq_some (live _ own), commit.kept_bytes]
  · exact .inl ⟨pending, same⟩

/-- An unpublished replacement is rolled back to the old generation. -/
theorem Pending.recoverReplacementJournal (pending : commit.Pending state)
    (unpublished : commit.raw ≠ some commit.new.asdict)
    (unwritten : state.manifest ≠ some commit.new.asdict) :
    Prog.Guarded commit.RollsBack (fun _ => commit.RolledBack) recoverReplacementJournal state := by
  have uncommitted : replacementCommitted state commit.journal = false := by
    have different : state.manifest ≠ some commit.journal.newManifest.asdict := unwritten
    simp [replacementCommitted, different]
  have back : ∀ state, commit.Pending state → commit.RollsBack state :=
    fun _ other => other.rollsBack unpublished
  refine .read (back _ pending)
    (.ofExcept (validatedJournal_eq pending.directory pending.journal) ?_)
  rw [uncommitted]
  refine .bind (pending.restoreGeneration.widen back) fun _ first rewritten => ?_
  have unlinked := rewritten.unlinkBackup
  refine .bind (unlinkOptional_guarded _ (back _ rewritten.pending) (back _ unlinked.pending)) ?_
  rintro _ _ rfl
  have rolled := unlinked.rolledBack rewritten.pending.toFramed.noBackups
  exact .step (back _ unlinked.pending) (.done (.inr (.inl rolled)) rolled)

theorem RollsBack.noAppend (back : commit.RollsBack state) : state.appendJournal = none := by
  rcases back with ⟨pending, _⟩ | rolled | ⟨_, published | completed⟩
  · exact pending.appendJournal
  · exact rolled.quiet.1
  · exact published.appendJournal
  · exact completed.quiet.1

/-- From a pending journal, recovery brings the old generation back. -/
theorem Pending.recoverSeries (pending : commit.Pending state)
    (unpublished : commit.raw ≠ some commit.new.asdict)
    (unwritten : state.manifest ≠ some commit.new.asdict) (entry : RecoveryEntry) :
    Prog.Guarded commit.RollsBack (fun _ => commit.RolledBack) (recoverSeries entry) state := by
  refine recoverSeries_replacement_guarded (pending.rollsBack unpublished)
    (fun _ back => RollsBack.noAppend back) (fun quiet => ?_) (fun _ => ?_) entry
  · rw [pending.journal] at quiet
    cases quiet
  · exact pending.recoverReplacementJournal unpublished unwritten

theorem RollsBack.recoverSeries (back : commit.RollsBack state)
    (unpublished : commit.raw ≠ some commit.new.asdict) (entry : RecoveryEntry) :
    Prog.Guarded commit.RollsBack (fun _ => commit.Undone) (recoverSeries entry) state := by
  rcases back with ⟨pending, unwritten⟩ | rolled | ⟨same, forward⟩
  · exact (pending.recoverSeries unpublished unwritten entry).weaken fun _ _ => .inl
  · refine recoverSeries_replacement_guarded (.inr (.inl rolled)) (fun _ back => RollsBack.noAppend back)
      (fun _ => .inl rolled) (fun journaled => ?_) entry
    simp [rolled.quiet.2] at journaled
  · exact ((forward.recoverSeries entry).widen fun _ other => .inr (.inr ⟨same, other⟩)).weaken
      fun _ _ completed => .inr ⟨same, completed⟩

end ReplaceCommit

end MarketdataProvider
