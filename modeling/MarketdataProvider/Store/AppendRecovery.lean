import MarketdataProvider.Core.Reference
import MarketdataProvider.Store.SegmentStore

namespace MarketdataProvider

open Foundation Foundation.Crash

/-- The durable image of a CSV series: the bytes of its file, its manifest and its index rows. -/
structure CsvImage where
  csv : Option (List UInt8)
  manifest : Option RawManifest
  rows : List IndexRow
  deriving DecidableEq

def SeriesState.csvImage (state : SeriesState) (key : SeriesKey) : CsvImage where
  csv := state.data (.bars .csv)
  manifest := state.manifest
  rows := state.seriesRows key

/-- No journal is pending. -/
def SeriesState.Quiescent (state : SeriesState) : Prop :=
  state.appendJournal = none ∧ state.replaceJournal = none

/-- The index holds what was written for the manifest, with some download time. -/
def SeriesState.Indexed (state : SeriesState) (manifest : SegmentManifest) : Prop :=
  ∃ downloadedAt, indexRows manifest downloadedAt = .ok (state.seriesRows manifest.key)

/-- The download time in the index is the one that the row was written with. -/
theorem SeriesState.Indexed.indexRows_indexedDownloadedAt {state : SeriesState}
    {manifest : SegmentManifest} (indexed : state.Indexed manifest) :
    indexRows manifest (indexedDownloadedAt state manifest) = .ok (state.seriesRows manifest.key) := by
  obtain ⟨_, written⟩ := indexed
  exact indexRows_latestDownloadedAt written

/-- One append journal, the series from which it starts, and the generation to which it leads.
The manifest on disk can lack fields that the journal's image of it has. -/
structure AppendCommit where
  origin : SeriesState
  raw : RawManifest
  journal : AppendJournal
  bytes : List UInt8
  payload : List UInt8
  oldRows : List IndexRow
  newRows : List IndexRow
  quiet : origin.Quiescent
  named : origin.manifest = some raw
  reading : raw.toManifest = journal.oldManifest
  present : origin.data (.bars .csv) = some bytes
  sizeBefore : journal.dataSizeBefore = bytes.length
  sizeAfter : journal.dataSizeAfter = bytes.length + payload.length
  sameKey : journal.newManifest.key = journal.oldManifest.key
  advances : journal.newManifest ≠ journal.oldManifest
  oldIndexed : indexRows journal.oldManifest (indexedDownloadedAt origin journal.oldManifest) =
    .ok oldRows
  newIndexed : indexRows journal.newManifest journal.downloadedAt = .ok newRows

namespace AppendCommit

def key (commit : AppendCommit) : SeriesKey := commit.journal.oldManifest.key

def after (commit : AppendCommit) : CsvImage where
  csv := some (commit.bytes ++ commit.payload)
  manifest := some commit.journal.newManifest.asdict
  rows := commit.newRows

/-- The protocol never makes a file. -/
def Alone (commit : AppendCommit) (state : SeriesState) : Prop :=
  ∀ name, commit.origin.file name = none → state.file name = none

/-- The journal is published and the new manifest is not: the old bytes are a prefix of the file. -/
structure Pending (commit : AppendCommit) (state : SeriesState) : Prop where
  replaceJournal : state.replaceJournal = none
  appendJournal : state.appendJournal = some commit.journal
  manifest : state.manifest = some commit.raw ∨
    state.manifest = some commit.journal.oldManifest.asdict
  rows : state.seriesRows commit.key = commit.origin.seriesRows commit.key ∨
    state.seriesRows commit.key = commit.oldRows
  csv : ∃ torn, state.data (.bars .csv) = some (commit.bytes ++ torn)
  alone : commit.Alone state
  generation : state.generation = commit.origin.generation
  clock : commit.origin.clock ≤ state.clock

/-- The old bytes are there again, in a file that was stamped after the operation began. -/
structure RolledBack (commit : AppendCommit) (state : SeriesState) : Prop where
  quiet : state.Quiescent
  manifest : state.manifest = some commit.journal.oldManifest.asdict
  rows : state.seriesRows commit.key = commit.oldRows
  file : ∃ number stamp, state.file (.bars .csv) = some (number, ⟨commit.bytes, stamp⟩) ∧
    commit.origin.clock ≤ stamp
  alone : commit.Alone state
  generation : state.generation = commit.origin.generation

/-- Recovery leaves the series as it was, or rolls it back. -/
def Undone (commit : AppendCommit) (state : SeriesState) : Prop :=
  state = commit.origin ∨ commit.RolledBack state

def RollsBack (commit : AppendCommit) (state : SeriesState) : Prop :=
  commit.Pending state ∨ commit.Undone state

/-- After the new manifest is published, only the index row can still be the old one. -/
structure RollsForward (commit : AppendCommit) (state : SeriesState) : Prop where
  replaceJournal : state.replaceJournal = none
  manifest : state.manifest = some commit.journal.newManifest.asdict
  csv : state.data (.bars .csv) = some (commit.bytes ++ commit.payload)
  alone : commit.Alone state
  pending : (state.appendJournal = none ∧ state.seriesRows commit.key = commit.newRows) ∨
    state.appendJournal = some commit.journal

/-- A completed commit has no journal and the new image. -/
structure Completed (commit : AppendCommit) (state : SeriesState) : Prop where
  quiet : state.Quiescent
  image : state.csvImage commit.key = commit.after
  alone : commit.Alone state

variable {commit : AppendCommit} {state : SeriesState}

theorem RollsForward.completed (forward : commit.RollsForward state)
    (quiet : state.appendJournal = none) : commit.Completed state := by
  refine ⟨⟨quiet, forward.replaceJournal⟩, ?_, forward.alone⟩
  rcases forward.pending with ⟨-, rows⟩ | journal
  · simp only [SeriesState.csvImage, after, forward.csv, forward.manifest, rows]
  · rw [quiet] at journal
    cases journal

/-- Neither spelling of the old manifest is the new one. -/
theorem unpublished {manifest : Option RawManifest}
    (old : manifest = some commit.raw ∨ manifest = some commit.journal.oldManifest.asdict) :
    manifest ≠ some commit.journal.newManifest.asdict := by
  rintro rfl
  rcases old with same | same
  · have reading := commit.reading
    rw [← Option.some.inj same, toManifest_asdict] at reading
    exact commit.advances reading
  · exact commit.advances (asdict_injective (Option.some.inj same))

theorem RollsBack.unpublished (back : commit.RollsBack state) :
    state.manifest ≠ some commit.journal.newManifest.asdict := by
  rcases back with pending | rfl | rolled
  · exact AppendCommit.unpublished pending.manifest
  · exact AppendCommit.unpublished (.inl commit.named)
  · exact AppendCommit.unpublished (.inr rolled.manifest)

/-- The rows of the old manifest are the same for the rows before and after a rollback. -/
theorem Pending.indexRows_old (pending : commit.Pending state) :
    indexRows commit.journal.oldManifest (indexedDownloadedAt state commit.journal.oldManifest) =
      .ok commit.oldRows := by
  rcases pending.rows with same | written
  · exact (congrArg (indexRows _ ∘ latestDownloadedAt) same).trans commit.oldIndexed
  · exact (congrArg (indexRows _ ∘ latestDownloadedAt) written).trans
      (indexRows_latestDownloadedAt commit.oldIndexed)

theorem Alone.rewrite (alone : commit.Alone state) (change : List UInt8 → List UInt8) :
    commit.Alone (state.rewriteData (.bars .csv) change) :=
  fun name absent => state.file_rewriteData_none _ change (alone name absent)

/-- The truncation cuts a torn payload off, whatever its length. -/
theorem Pending.truncate (pending : commit.Pending state) :
    commit.Pending (state.rewriteData (.bars .csv) (·.take commit.journal.dataSizeBefore)) ∧
      ∃ number, (state.rewriteData (.bars .csv) (·.take commit.journal.dataSizeBefore)).file
        (.bars .csv) = some (number, ⟨commit.bytes, state.clock⟩) := by
  obtain ⟨torn, csv⟩ := pending.csv
  obtain ⟨⟨number, file⟩, found, holds⟩ := SeriesState.exists_file csv
  have cut : (state.rewriteData (.bars .csv) (·.take commit.journal.dataSizeBefore)).file
      (.bars .csv) = some (number, ⟨commit.bytes, state.clock⟩) := by
    rw [SeriesState.file_rewriteData_self, found, Option.map_some, holds, commit.sizeBefore,
      List.take_left]
  refine ⟨⟨pending.replaceJournal, pending.appendJournal, pending.manifest, pending.rows, ⟨[], ?_⟩,
    pending.alone.rewrite _, pending.generation, Nat.le_succ_of_le pending.clock⟩, number, cut⟩
  rw [SeriesState.data_eq_some cut, List.append_nil]

theorem Pending.rewriteOld (pending : commit.Pending state) :
    commit.Pending { state with manifest := some commit.journal.oldManifest.asdict } :=
  ⟨pending.replaceJournal, pending.appendJournal, .inr rfl, pending.rows, pending.csv, pending.alone,
    pending.generation, pending.clock⟩

theorem Pending.reindexOld (pending : commit.Pending state) :
    commit.Pending
      { state.replaceIndex commit.journal.oldManifest.key commit.oldRows with
        manifest := some commit.journal.oldManifest.asdict } :=
  ⟨pending.replaceJournal, pending.appendJournal, .inr rfl,
    .inr (state.seriesRows_replaceIndex (key_of_mem_indexRows commit.oldIndexed)), pending.csv,
    pending.alone, pending.generation, pending.clock⟩

theorem Pending.unfinished (pending : commit.Pending state) (torn : List UInt8) :
    ¬ (commit.bytes ++ torn).length < commit.journal.dataSizeBefore ∧
      appendCommitted state commit.journal (commit.bytes ++ torn).length = false := by
  refine ⟨?_, by simp [appendCommitted, AppendCommit.unpublished pending.manifest]⟩
  rw [commit.sizeBefore, List.length_append]
  omega

/-- A rollback that stamped the file at a time of the clock. -/
def RolledBackAt (commit : AppendCommit) (stamp : Nat) (state : SeriesState) : Prop :=
  commit.RolledBack state ∧
    ∃ number, state.file (.bars .csv) = some (number, ⟨commit.bytes, stamp⟩)

/-- Nothing was published: recovery truncates the file and writes the old generation again. -/
theorem Pending.recoverAppendJournal (pending : commit.Pending state) :
    Prog.Guarded commit.RollsBack (fun _ => commit.RolledBackAt state.clock) recoverAppendJournal
      state := by
  obtain ⟨torn, csv⟩ := pending.csv
  obtain ⟨large, uncommitted⟩ := pending.unfinished torn
  obtain ⟨truncated, number, cut⟩ := pending.truncate
  have back : ∀ state, commit.Pending state → commit.RollsBack state := fun _ => .inl
  refine .read (.inl pending) ?_
  simp only [pending.appendJournal, csv, large, uncommitted, if_false, Bool.false_eq_true]
  refine .modify (.inl pending) (.read (.inl truncated) (.bind
    (writeManifestAndIndex_guarded truncated.indexRows_old (back _ truncated)
      (back _ truncated.rewriteOld) (back _ truncated.reindexOld)) ?_))
  rintro _ _ rfl
  have restored := truncated.reindexOld
  have rows := (state.rewriteData (.bars .csv) (·.take commit.journal.dataSizeBefore)).seriesRows_replaceIndex
    (key_of_mem_indexRows commit.oldIndexed)
  have rolled : commit.RolledBack
      { (state.rewriteData (.bars .csv) (·.take commit.journal.dataSizeBefore)).replaceIndex
          commit.journal.oldManifest.key commit.oldRows with
        manifest := some commit.journal.oldManifest.asdict
        appendJournal := none } :=
    ⟨⟨rfl, pending.replaceJournal⟩, rfl, rows, ⟨number, state.clock, cut, pending.clock⟩,
      restored.alone, restored.generation⟩
  exact .modify (.inl restored) (.done (.inr (.inr rolled)) ⟨rolled, number, cut⟩)

/-- Recovery can crash right after the truncation. -/
theorem Pending.truncate_visited (pending : commit.Pending state) :
    state.rewriteData (.bars .csv) (·.take commit.journal.dataSizeBefore) ∈
      MarketdataProvider.recoverAppendJournal.visits state := by
  obtain ⟨torn, csv⟩ := pending.csv
  obtain ⟨large, uncommitted⟩ := pending.unfinished torn
  refine Prog.visits_read_bind ?_
  simp only [pending.appendJournal, csv, large, uncommitted, if_false, Bool.false_eq_true]
  exact Prog.visits_bind_left (List.mem_cons_of_mem _ (Prog.start_mem_visits _ _))

theorem RollsForward.reindexNew (forward : commit.RollsForward state)
    (journal : state.appendJournal = some commit.journal) :
    commit.RollsForward (state.replaceIndex commit.journal.newManifest.key commit.newRows) :=
  ⟨forward.replaceJournal, forward.manifest, forward.csv, forward.alone, .inr journal⟩

theorem RollsForward.dropJournal (forward : commit.RollsForward state) :
    commit.RollsForward
      { state.replaceIndex commit.journal.newManifest.key commit.newRows with
        appendJournal := none } := by
  refine ⟨forward.replaceJournal, forward.manifest, forward.csv, forward.alone, .inl ⟨rfl, ?_⟩⟩
  have rows := state.seriesRows_replaceIndex (key_of_mem_indexRows commit.newIndexed)
  rw [commit.sameKey] at rows
  rw [commit.sameKey]
  exact rows

/-- The manifest was published: recovery writes the new index row and closes the journal. -/
theorem RollsForward.recoverAppendJournal (forward : commit.RollsForward state)
    (journal : state.appendJournal = some commit.journal) :
    Prog.Guarded commit.RollsForward (fun _ => commit.Completed) recoverAppendJournal state := by
  have large : ¬ (commit.bytes ++ commit.payload).length < commit.journal.dataSizeBefore := by
    rw [commit.sizeBefore, List.length_append]
    omega
  have published :
      appendCommitted state commit.journal (commit.bytes ++ commit.payload).length = true := by
    simp [appendCommitted, forward.manifest, commit.sizeAfter]
  refine .read forward ?_
  simp only [journal, forward.csv, large, published, if_false, if_true]
  refine .bind (replaceIndexManifest_guarded commit.newIndexed forward (forward.reindexNew journal)) ?_
  rintro _ _ rfl
  exact .modify (forward.reindexNew journal)
    (.done forward.dropJournal (forward.dropJournal.completed rfl))

theorem Undone.quiescent (undone : commit.Undone state) : state.Quiescent := by
  rcases undone with rfl | rolled
  · exact commit.quiet
  · exact rolled.quiet

/-- Recovery by either entry undoes the append while the new manifest is unpublished. -/
theorem RollsBack.recoverSeries [PyText] (back : commit.RollsBack state) (entry : RecoveryEntry) :
    Prog.Guarded commit.RollsBack (fun _ => commit.Undone) (recoverSeries entry) state := by
  have single : ∀ state, commit.RollsBack state → state.replaceJournal = none := by
    rintro other (pending | undone)
    · exact pending.replaceJournal
    · exact undone.quiescent.2
  refine recoverSeries_append_guarded back single (fun quiet => ?_) (fun journaled => ?_) entry
  · rcases back with pending | undone
    · rw [pending.appendJournal] at quiet
      cases quiet
    · exact undone
  · rcases back with pending | undone
    · exact pending.recoverAppendJournal.weaken fun _ _ rolled => .inr rolled.1
    · simp [undone.quiescent.1] at journaled

/-- From a pending journal, recovery rolls back. -/
theorem Pending.recoverSeries [PyText] (pending : commit.Pending state) (entry : RecoveryEntry) :
    Prog.Guarded commit.RollsBack (fun _ => commit.RolledBackAt state.clock) (recoverSeries entry)
      state := by
  have single : ∀ state, commit.RollsBack state → state.replaceJournal = none := by
    rintro other (pending | undone)
    · exact pending.replaceJournal
    · exact undone.quiescent.2
  refine recoverSeries_append_guarded (.inl pending) single (fun quiet => ?_) (fun _ => ?_) entry
  · rw [pending.appendJournal] at quiet
    cases quiet
  · exact pending.recoverAppendJournal

/-- Recovery by either entry gives the new image once the new manifest is published. -/
theorem RollsForward.recoverSeries [PyText] (forward : commit.RollsForward state)
    (entry : RecoveryEntry) :
    Prog.Guarded commit.RollsForward (fun _ => commit.Completed) (recoverSeries entry) state := by
  refine recoverSeries_append_guarded forward (fun _ other => other.replaceJournal) forward.completed
    (fun pending => ?_) entry
  rcases forward.pending with ⟨quiet, -⟩ | journal
  · simp [quiet] at pending
  · exact forward.recoverAppendJournal journal

/-- Every crash point of the append is on one of the two sides. -/
def Decided (commit : AppendCommit) (state : SeriesState) : Prop :=
  commit.RollsBack state ∨ commit.RollsForward state

/-- The file of a journaled series holds the old bytes and the first part of the payload. -/
structure Torn (commit : AppendCommit) (written : List UInt8) (state : SeriesState) : Prop where
  pending : commit.Pending state
  csv : state.data (.bars .csv) = some (commit.bytes ++ written)

theorem Torn.decided {written : List UInt8} (torn : commit.Torn written state) : commit.Decided state :=
  .inl (.inl torn.pending)

/-- One more byte reaches the file. -/
theorem Torn.appendByte {written : List UInt8} (torn : commit.Torn written state) (byte : UInt8) :
    commit.Torn (written ++ [byte]) (state.rewriteData (.bars .csv) (· ++ [byte])) := by
  obtain ⟨pending, csv⟩ := torn
  have grown : (state.rewriteData (.bars .csv) (· ++ [byte])).data (.bars .csv) =
      some (commit.bytes ++ (written ++ [byte])) := by
    rw [SeriesState.data_rewriteData_self, csv, Option.map_some, List.append_assoc]
  exact ⟨⟨pending.replaceJournal, pending.appendJournal, pending.manifest, pending.rows, ⟨_, grown⟩,
    pending.alone.rewrite _, pending.generation, Nat.le_succ_of_le pending.clock⟩, grown⟩

/-- The file grows byte by byte to the whole payload. -/
theorem Torn.appendBytes (rest : List UInt8) {written : List UInt8} {state : SeriesState}
    (torn : commit.Torn written state) :
    Prog.Guarded commit.Decided (fun _ => commit.Torn (written ++ rest)) (appendBytes rest) state := by
  induction rest generalizing written state with
  | nil => exact .done torn.decided (by simpa using torn)
  | cons byte rest ih =>
      refine .modify torn.decided ?_
      have grown := ih (torn.appendByte byte)
      rwa [List.append_assoc] at grown

/-- The manifest is published: the append is on the other side from here on. -/
theorem Torn.publish (torn : commit.Torn commit.payload state) :
    commit.RollsForward { state with manifest := some commit.journal.newManifest.asdict } :=
  ⟨torn.pending.replaceJournal, rfl, torn.csv, torn.pending.alone, .inr torn.pending.appendJournal⟩

theorem RollsForward.publishGeneration (forward : commit.RollsForward state)
    (payload : IntegrityGeneration) : commit.RollsForward { state with generation := some payload } :=
  ⟨forward.replaceJournal, forward.manifest, forward.csv, forward.alone, forward.pending⟩

theorem journaled (commit : AppendCommit) :
    commit.Torn [] { commit.origin with appendJournal := some commit.journal } := by
  have csv : SeriesState.data { commit.origin with appendJournal := some commit.journal } (.bars .csv) =
      some (commit.bytes ++ []) := by
    rw [List.append_nil]
    exact commit.present
  exact ⟨⟨commit.quiet.2, rfl, .inl commit.named, .inl rfl, ⟨[], csv⟩, fun _ absent => absent, rfl,
    Nat.le_refl _⟩, csv⟩

/-- The commit goes from the journal to the completed new generation. -/
theorem commitAppend (commit : AppendCommit) :
    Prog.Guarded commit.Decided
      (fun manifest after => manifest = commit.journal.newManifest ∧ commit.Completed after)
      (commitAppend commit.journal commit.payload) commit.origin := by
  refine .modify (.inl (.inr (.inl rfl))) (.bind (commit.journaled.appendBytes commit.payload) ?_)
  intro _ written torn
  rw [List.nil_append] at torn
  have published := torn.publish
  have journal := torn.pending.appendJournal
  refine .modify torn.decided (.bind (replaceIndexManifest_guarded commit.newIndexed (.inr published)
    (.inr (published.reindexNew journal))) ?_)
  rintro _ _ rfl
  have indexed := published.reindexNew journal
  refine .bind (publishIntegrityGeneration_guarded _ indexed.csv (.inr indexed)
    fun payload => .inr (indexed.publishGeneration payload)) ?_
  rintro _ _ ⟨payload, -, rfl⟩
  have closed := published.dropJournal.publishGeneration payload
  exact .modify (.inr (indexed.publishGeneration payload))
    (.done (.inr closed) ⟨rfl, closed.completed rfl⟩)

end AppendCommit

section Append

variable [PyText] {F : Type} [PyFloat F] [Sha256]

/-- The migration keeps the series, its span and its row count. -/
structure SegmentManifest.SameSpan (current stored : SegmentManifest) : Prop where
  key : current.key = stored.key
  rowsCount : current.rowsCount = stored.rowsCount
  startTime : current.startTime = stored.startTime
  endTime : current.endTime = stored.endTime

theorem currentManifest_span {raw : RawManifest} {bytes : List UInt8} {manifest : SegmentManifest}
    (current : currentManifest F raw bytes = .ok manifest) :
    manifest.SameSpan raw.toManifest ∧ manifest.legacy = false := by
  unfold currentManifest at current
  split at current
  · simp only [bind_eq_ok, pure_eq_ok] at current
    obtain ⟨_, _, checksum, _, rfl⟩ := current
    exact ⟨⟨rfl, rfl, rfl, rfl⟩, by simp [SegmentManifest.legacy, SegmentManifest.migrated]⟩
  · rename_i modern
    cases current
    exact ⟨⟨rfl, rfl, rfl, rfl⟩, by simpa using modern⟩

section Plan

variable {state : SeriesState} {stored manifest : SegmentManifest} {bytes payload : List UInt8}
  {incoming : List (MarketBar F)} {journal : AppendJournal}

/-- What recovery needs to know about a journal, whichever plan wrote it. -/
structure JournalSpec (stored : SegmentManifest) (bytes payload : List UInt8)
    (journal : AppendJournal) : Prop where
  oldManifest : journal.oldManifest = stored
  sizeBefore : journal.dataSizeBefore = bytes.length
  sizeAfter : journal.dataSizeAfter = bytes.length + payload.length
  sameKey : journal.newManifest.key = journal.oldManifest.key
  advances : journal.newManifest ≠ journal.oldManifest
  insertable : stored.Insertable → journal.newManifest.Insertable

omit [PyText] [Sha256] in
theorem SegmentManifest.SameSpan.insertable (span : manifest.SameSpan stored)
    (insertable : stored.Insertable) : manifest.Insertable := by
  unfold SegmentManifest.Insertable
  rw [span.rowsCount, span.startTime, span.endTime]
  exact insertable

theorem CommitPlan.spec (span : manifest.SameSpan stored) (modern : manifest.legacy = false)
    (plan : CommitPlan state stored manifest bytes incoming journal payload) :
    JournalSpec stored bytes payload journal := by
  cases plan with
  | migration legacy repeated =>
      refine ⟨rfl, rfl, rfl, span.key, ?_, span.insertable⟩
      intro same
      rw [show manifest = stored from same, legacy] at modern
      cases modern
  | extension first rest endTime checksum fresh nonempty ended newer chained =>
      refine ⟨rfl, rfl, rfl, span.key, ?_, fun insertable => .inr ⟨?_, rfl⟩⟩
      · intro same
        have counts := congrArg (fun manifest : SegmentManifest => manifest.rowsCount) same
        simp only [extensionJournal, SegmentManifest.extended, span.rowsCount,
          List.length_cons] at counts
        omega
      · rcases insertable with empty | ⟨starts, -⟩
        · rw [span.rowsCount, empty] at nonempty
          cases nonempty
        · exact (congrArg Option.isSome span.startTime).trans starts

end Plan

/-- A planned commit on a quiescent series whose index row can be written again. -/
theorem appendPlan_appendCommit {state : SeriesState} {key : SeriesKey} {bars : List (MarketBar F)}
    {raw : RawManifest} {journal : AppendJournal} {payload : List UInt8} (quiet : state.Quiescent)
    (named : state.manifest = some raw) (insertable : raw.toManifest.Insertable)
    (reached : appendPlan state key bars = .ok (.commit journal payload)) :
    ∃ commit : AppendCommit, commit.origin = state ∧ commit.raw = raw ∧ commit.journal = journal ∧
      commit.payload = payload := by
  obtain ⟨incoming, found, bytes, manifest, _, same, _, present, current, plan⟩ :=
    appendPlan_commit reached
  rw [named, Option.some.injEq] at same
  subst same
  obtain ⟨span, modern⟩ := currentManifest_span current
  have spec := plan.spec span modern
  obtain ⟨newRows, newIndexed⟩ := (spec.insertable insertable).indexRows journal.downloadedAt
  obtain ⟨oldRows, oldIndexed⟩ := insertable.indexRows (indexedDownloadedAt state raw.toManifest)
  exact ⟨{
    origin := state
    raw, journal, bytes, payload, oldRows, newRows, quiet, named
    reading := spec.oldManifest.symm
    present
    sizeBefore := spec.sizeBefore
    sizeAfter := spec.sizeAfter
    sameKey := spec.sameKey
    advances := spec.advances
    oldIndexed := by rw [spec.oldManifest]; exact oldIndexed
    newIndexed }, rfl, rfl, rfl, rfl⟩

/-- The whole operation, from the lock to the end of the commit. -/
theorem AppendCommit.appendStrictlyNewer [Parquet] (commit : AppendCommit) {key : SeriesKey}
    {bars : List (MarketBar F)} (store : SegmentStore)
    (reached : appendPlan commit.origin key bars = .ok (.commit commit.journal commit.payload)) :
    Prog.Guarded commit.Decided
      (fun manifest after => manifest = commit.journal.newManifest ∧ commit.Completed after)
      (appendStrictlyNewer store bars key) commit.origin := by
  refine .bind ((recoverSeries_quiet commit.origin commit.quiet.1 commit.quiet.2 .seriesLock).widen ?_) ?_
  · rintro _ rfl
    exact .inl (.inr (.inl rfl))
  · rintro _ _ rfl
    refine .read (.inl (.inr (.inl rfl))) ?_
    rw [reached]
    exact commit.commitAppend

/-- A crash of the append, and any number of crashed recoveries, leave one of two generations. -/
theorem appendStrictlyNewer_crash_atomic [Parquet] (store : SegmentStore) (key : SeriesKey)
    (bars : List (MarketBar F)) (state : SeriesState) (stored : SegmentManifest)
    (journal : AppendJournal) (payload : List UInt8) (quiet : state.Quiescent)
    (named : state.manifest = some stored.asdict) (indexed : state.Indexed stored)
    (reached : appendPlan state key bars = .ok (.commit journal payload)) :
    ∃ completed,
      (appendStrictlyNewer store bars key).run state = (.ok journal.newManifest, completed) ∧
      completed.Quiescent ∧
      completed.csvImage stored.key ≠ state.csvImage stored.key ∧
      ∀ crash ∈ (appendStrictlyNewer store bars key).visits state,
        ∀ later, Prog.Crashes recoverSeries crash later →
          ∀ entry, ∃ recovered, (recoverSeries entry).run later = (.ok (), recovered) ∧
            recovered.Quiescent ∧
            (crash.manifest = some journal.newManifest.asdict →
              recovered.csvImage stored.key = completed.csvImage stored.key) ∧
            (crash.manifest ≠ some journal.newManifest.asdict →
              recovered.csvImage stored.key = state.csvImage stored.key) := by
  obtain ⟨_, written⟩ := indexed
  obtain ⟨commit, rfl, raw, rfl, rfl⟩ := appendPlan_appendCommit quiet named
    (insertable_of_indexRows written) reached
  obtain rfl : stored = commit.journal.oldManifest := by
    rw [← commit.reading, raw, toManifest_asdict]
  have sameRows : commit.origin.seriesRows commit.key = commit.oldRows :=
    Except.ok.inj ((indexRows_latestDownloadedAt written).symm.trans commit.oldIndexed)
  have restored : ∀ recovered, commit.Undone recovered →
      recovered.csvImage commit.key = commit.origin.csvImage commit.key := by
    rintro recovered (rfl | rolled)
    · rfl
    · obtain ⟨number, stamp, file, -⟩ := rolled.file
      simp only [SeriesState.csvImage, SeriesState.data_eq_some file, commit.present,
        rolled.manifest, named, rolled.rows, sameRows]
  obtain ⟨safe, manifest, completed, returned, rfl, done⟩ := commit.appendStrictlyNewer store reached
  refine ⟨completed, returned, done.quiet, ?_, fun crash visited later crashes entry => ?_⟩
  · intro same
    have manifests := congrArg CsvImage.manifest (done.image.symm.trans same)
    exact AppendCommit.unpublished (.inl commit.named) manifests.symm
  · rcases safe crash visited with undone | published
    · obtain ⟨recovered, ran, last⟩ := crashes.recovered
        (fun entry other (holds : commit.RollsBack other) => holds.recoverSeries entry) undone entry
      exact ⟨recovered, ran, last.quiescent, fun published => absurd published undone.unpublished,
        fun _ => restored recovered last⟩
    · obtain ⟨recovered, ran, last⟩ := crashes.recovered
        (fun entry other (holds : commit.RollsForward other) => holds.recoverSeries entry) published
        entry
      exact ⟨recovered, ran, last.quiet, fun _ => last.image.trans done.image.symm,
        fun unpublished => absurd published.manifest unpublished⟩

end Append

namespace Reference

def series : SeriesKey := ⟨"binance", "spot", "BTCUSDT", "1m", "trade_kline"⟩

/-- The generation of one candle that the store writes. -/
def manifest : SegmentManifest :=
  generationManifest series .csv [candle 0] ((barsChecksum [candle 0]).toOption.getD "")

/-- A series of one candle, as a completed write leaves it. -/
def oneCandle : SeriesState :=
  { (SeriesState.empty ((seriesDirectory series).toOption.getD [])).createData (.bars .csv) (csvFile [candle 0]) with
    manifest := some manifest.asdict
    index := (indexRows manifest 0).toOption.getD [] }

theorem oneCandle_data : oneCandle.data (.bars .csv) = some (csvFile [candle 0]) := rfl

theorem readLastCsvBar_oneCandle :
    readLastCsvBar Whole (csvFile [candle 0]) = .ok (some (candle 0)) := by
  rw [readLastCsvBar_eq (Csv.encodeRecord persistedMarketBarFields)
    ([persistedMarketBarFields, persistedRecord (candle 0)].flatMap Csv.encodeRecord)]
  · exact eq_ok_of_toOption (by decide +kernel)
  · decide +kernel
  · decide +kernel
  · exact eq_ok_of_toOption (by decide +kernel)

/-- The next candle is strictly newer, so that the append reaches its journal. -/
theorem appendPlan_oneCandle : ∃ journal payload,
    appendPlan oneCandle series [candle 60000] = .ok (.commit journal payload) := by
  have accepted : validatedAppendBars [candle 60000] series = .ok [candle 60000] :=
    eq_ok_of_toOption (by decide +kernel)
  have current : currentManifest Whole manifest.asdict (csvFile [candle 0]) = .ok manifest := rfl
  obtain ⟨checksum, chained⟩ :
      ∃ checksum, extendTailChainAll .v4 manifest.checksum [candle 60000] = .ok checksum :=
    eq_ok_of_toBool (by decide +kernel)
  refine ⟨extensionJournal oneCandle manifest manifest (csvFile [candle 0]) (candle 60000) [] checksum,
    csvAppendPayload [candle 60000], ?_⟩
  simp only [appendPlan, accepted, ok_bind, oneCandle_data,
    show oneCandle.manifest = some manifest.asdict from rfl,
    show manifest.asdict.toManifest = manifest from rfl, show manifest.dataFormat = .csv from rfl,
    current, ne_eq, not_true_eq_false, if_false, tailPlan, readLastCsvBar_oneCandle,
    show manifest.endTime = some 0 from rfl, extensionPlan, chained,
    show manifest.rowsCount = 1 from rfl, show (candle 60000).time = 60000 from rfl,
    show (candle 0).time = 0 from rfl]
  rfl

end Reference

open scoped Reference in
theorem appendStrictlyNewer_crash_atomic_oneCandle : ∃ journal payload completed,
    appendPlan Reference.oneCandle Reference.series [Reference.candle 60000] =
      .ok (.commit journal payload) ∧
    (appendStrictlyNewer ⟨.csv, true, false⟩ [Reference.candle 60000] Reference.series).run
      Reference.oneCandle = (.ok journal.newManifest, completed) := by
  obtain ⟨journal, payload, reached⟩ := Reference.appendPlan_oneCandle
  obtain ⟨completed, returned, -⟩ := appendStrictlyNewer_crash_atomic ⟨.csv, true, false⟩
    Reference.series [Reference.candle 60000] Reference.oneCandle Reference.manifest journal payload
    ⟨rfl, rfl⟩ rfl ⟨0, rfl⟩ reached
  exact ⟨journal, payload, completed, reached, returned⟩

end MarketdataProvider
