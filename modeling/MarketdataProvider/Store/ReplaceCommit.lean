import MarketdataProvider.Store.ReplaceRecovery

namespace MarketdataProvider

open Foundation Foundation.Crash

variable [PyText]

/-- Nothing durable has changed yet; a backup has the bytes of a live file, or was there before. -/
structure Untouched (origin state : SeriesState) : Prop where
  directory : state.directory = origin.directory
  appendJournal : state.appendJournal = none
  replaceJournal : state.replaceJournal = none
  bars : ∀ format, state.file (.bars format) = origin.file (.bars format)
  manifest : state.manifest = origin.manifest
  index : state.index = origin.index
  backups : ∀ format bytes, state.data (.backup format) = some bytes →
    origin.data (.bars format) = some bytes ∨ origin.data (.backup format) = some bytes

omit [PyText] in
theorem Untouched.refl {state : SeriesState} (quiet : state.Quiescent) : Untouched state state :=
  ⟨rfl, quiet.1, quiet.2, fun _ => rfl, rfl, rfl, fun _ _ => .inr⟩

omit [PyText] in
theorem Untouched.trans {first second third : SeriesState} (left : Untouched first second)
    (right : Untouched second third) : Untouched first third :=
  ⟨right.directory.trans left.directory, right.appendJournal, right.replaceJournal,
    fun format => (right.bars format).trans (left.bars format), right.manifest.trans left.manifest,
    right.index.trans left.index, fun format bytes found =>
      (right.backups format bytes found).elim
        (fun live => .inl ((SeriesState.data_of_file (left.bars format)).symm.trans live))
        (left.backups format bytes)⟩

namespace ReplaceCommit

variable {commit : ReplaceCommit} {state : SeriesState} {bytes : List UInt8}

/-- The series before the journal: untouched, with the integrity generation of the start. -/
structure Prepared (commit : ReplaceCommit) (state : SeriesState) : Prop extends
    Untouched commit.origin state where
  generation : state.generation = commit.origin.generation

/-- The journal is published and both generations are kept. -/
structure Journaled (commit : ReplaceCommit) (state : SeriesState) : Prop extends
    commit.Framed state where
  journal : state.replaceJournal = some commit.journal
  manifest : state.manifest = commit.raw
  backup : ∀ format, commit.oldFormat = some format → state.file (.backup format) = some commit.kept
  generation : state.generation = commit.origin.generation

/-- The bytes with which a roll forward can end.
They are the old ones only when the new manifest is the one that was there. -/
def ForwardBytes (commit : ReplaceCommit) (content : Except PyError (List UInt8))
    (bytes : List UInt8) : Prop :=
  content = .ok bytes ∨ (commit.raw = some commit.new.asdict ∧ bytes = commit.oldBytes)

/-- A crash state after the journal was published. -/
def Decided (commit : ReplaceCommit) (content : Except PyError (List UInt8)) (state : SeriesState) : Prop :=
  (commit.raw ≠ some commit.new.asdict ∧ commit.Pending state ∧ state.manifest = commit.raw) ∨
    ∃ bytes, commit.ForwardBytes content bytes ∧ commit.RollsForward bytes state

/-- Every crash point of the commit is before the journal or decided by it. -/
def Reached (commit : ReplaceCommit) (content : Except PyError (List UInt8)) (state : SeriesState) : Prop :=
  commit.Prepared state ∨ commit.Decided content state

theorem prepared (commit : ReplaceCommit) : commit.Prepared commit.origin :=
  ⟨.refl commit.quiet, rfl⟩

theorem origin_bars (commit : ReplaceCommit) (format : SegmentFormat) :
    commit.origin.file (.bars format) = oneFile commit.oldFormat commit.live format := by
  rw [commit.bars, oldFormat, old, Option.map_map]
  rfl

theorem origin_live {format : SegmentFormat} (own : commit.oldFormat = some format) :
    commit.origin.file (.bars format) = some commit.live := by
  rw [commit.origin_bars, own, oneFile_self]

theorem noForeignBackup {format : SegmentFormat} (notOld : commit.oldFormat ≠ some format) :
    commit.origin.file (.backup format) = none := by
  refine commit.clean format ?_
  rwa [oldFormat, old, Option.map_map] at notOld

theorem Prepared.framed (prepared : commit.Prepared state) : commit.Framed state := by
  have foreign (format : SegmentFormat) (notOld : commit.oldFormat ≠ some format) :
      commit.origin.file (.bars format) = none := by
    rw [commit.origin_bars, oneFile, if_neg notOld]
  refine ⟨prepared.directory, prepared.appendJournal, fun format _ notOld => ?_,
    fun format notOld => ?_⟩
  · rw [prepared.bars, foreign format notOld]
  · cases found : state.file (.backup format) with
    | none => rfl
    | some backup =>
        rcases prepared.backups format _ (SeriesState.data_eq_some found) with live | left
        · rw [SeriesState.data_eq_none_iff.mpr (foreign format notOld)] at live
          cases live
        · rw [SeriesState.data_eq_none_iff.mpr (commit.noForeignBackup notOld)] at left
          cases left

theorem Prepared.unlinkBackup (prepared : commit.Prepared state) (format : SegmentFormat) :
    commit.Prepared (state.unlinkData (.backup format)) := by
  refine ⟨⟨prepared.directory, prepared.appendJournal, prepared.replaceJournal, fun other => ?_,
    prepared.manifest, prepared.index, fun other content found => ?_⟩, prepared.generation⟩
  · rw [SeriesState.file_unlinkData_of_ne _ (by simp), prepared.bars]
  · by_cases same : other = format
    · rw [same, SeriesState.data_unlinkData_self] at found
      cases found
    · rw [SeriesState.data_unlinkData_of_ne _ (by simpa using same)] at found
      exact prepared.backups other content found

/-- A new backup with the bytes of the live file changes nothing else. -/
theorem Prepared.withBackup (prepared : commit.Prepared state) (next : SeriesState)
    {format : SegmentFormat} (own : commit.oldFormat = some format)
    (kept : next = { state with files := next.files, clock := next.clock })
    (backup : next.file (.backup format) = some commit.kept)
    (others : ∀ name, name ≠ .backup format → next.file name = state.file name) :
    commit.Prepared next := by
  refine ⟨⟨?_, ?_, ?_, fun other => ?_, ?_, ?_, fun other content found => ?_⟩, ?_⟩
  · rw [kept]; exact prepared.directory
  · rw [kept]; exact prepared.appendJournal
  · rw [kept]; exact prepared.replaceJournal
  · rw [others _ (by simp), prepared.bars]
  · rw [kept]; exact prepared.manifest
  · rw [kept]; exact prepared.index
  · by_cases same : other = format
    · rw [same, SeriesState.data_eq_some backup, commit.kept_bytes] at found
      rw [same, SeriesState.data_eq_some (commit.origin_live own), ← found]
      exact .inl rfl
    · rw [SeriesState.data_of_file (others _ (by simpa using same))] at found
      exact prepared.backups other content found
  · rw [kept]; exact prepared.generation

/-- The backup is the live file itself, or a copy that carries the next inode and the clock. -/
theorem backUp (commit : ReplaceCommit) {format : SegmentFormat}
    (own : commit.oldFormat = some format) :
    Prog.Guarded commit.Prepared
      (fun _ after => commit.Prepared after ∧ after.file (.backup format) = some commit.kept)
      (backUp commit.store format) commit.origin := by
  have unlinked := commit.prepared.unlinkBackup format
  have present : (commit.origin.unlinkData (.backup format)).file (.bars format) = some commit.live := by
    rw [unlinked.bars, commit.origin_live own]
  refine .modify commit.prepared ?_
  split
  · rename_i links
    have linked : ((commit.origin.unlinkData (.backup format)).linkData (.bars format)
        (.backup format)).file (.backup format) = some commit.kept := by
      rw [SeriesState.file_linkData_self, present, kept, SegmentStore.backupOf, if_pos links]
    have next := unlinked.withBackup _ own rfl linked
      fun name different => SeriesState.file_linkData_of_ne _ _ different
    exact .step unlinked (.done next ⟨next, linked⟩)
  · rename_i copies
    refine .step unlinked ?_
    simp only [SeriesState.data_eq_some present]
    have copied : ((commit.origin.unlinkData (.backup format)).createData (.backup format)
        commit.live.2.bytes).file (.backup format) = some commit.kept := by
      rw [SeriesState.file_createData_self, kept, SegmentStore.backupOf, if_neg copies]
      rfl
    have next := unlinked.withBackup _ own rfl copied
      fun name different => SeriesState.file_createData_of_ne _ _ different
    exact .done next ⟨next, copied⟩

/-- The backup exists whenever there is an old generation. -/
theorem backUpOptional (commit : ReplaceCommit) :
    Prog.Guarded commit.Prepared
      (fun _ after => commit.Prepared after ∧ ∀ format, commit.oldFormat = some format →
        after.file (.backup format) = some commit.kept)
      (backUpOptional commit.store commit.oldFormat) commit.origin := by
  cases own : commit.oldFormat with
  | none => exact .done commit.prepared ⟨commit.prepared, fun format found => by cases found⟩
  | some format =>
      refine (commit.backUp own).weaken ?_
      rintro _ after ⟨prepared, backup⟩
      exact ⟨prepared, by rintro _ ⟨⟩; exact backup⟩

theorem Journaled.pending (journaled : commit.Journaled state) : commit.Pending state :=
  ⟨journaled.toFramed, journaled.journal, .inl journaled.manifest,
    fun format own => .inl (journaled.backup format own), journaled.generation⟩

theorem Journaled.decided (journaled : commit.Journaled state) {content : Except PyError (List UInt8)}
    (live : commit.raw = some commit.new.asdict →
      state.data (.bars commit.new.dataFormat) = some bytes ∧ commit.ForwardBytes content bytes) :
    commit.Decided content state := by
  by_cases same : commit.raw = some commit.new.asdict
  · exact .inr ⟨bytes, (live same).2, .inl ⟨journaled.toFramed, journaled.journal,
      journaled.manifest.trans same, (live same).1⟩⟩
  · exact .inl ⟨same, journaled.pending, journaled.manifest⟩

/-- Before the new data is there, the live file still has the old bytes. -/
theorem Journaled.decidedOld (journaled : commit.Journaled state)
    (bars : ∀ format, state.file (.bars format) = commit.origin.file (.bars format))
    (content : Except PyError (List UInt8)) : commit.Decided content state := by
  refine journaled.decided fun same => ⟨?_, .inr ⟨same, rfl⟩⟩
  have own : commit.oldFormat = some commit.new.dataFormat := by
    rw [oldFormat, old, same, Option.map_some, toManifest_asdict]
    rfl
  exact SeriesState.data_eq_some ((bars _).trans (commit.origin_live own))

theorem backupFormat_eq (commit : ReplaceCommit) :
    backupFormat commit.origin commit.old = commit.oldFormat := by
  unfold backupFormat
  cases own : commit.oldFormat with
  | none => rw [show commit.old.map SegmentManifest.dataFormat = none from own]; rfl
  | some format =>
      rw [show commit.old.map SegmentManifest.dataFormat = some format from own, Option.filter_some,
        SeriesState.data_eq_some (commit.origin_live own)]
      rfl

theorem recoverPending_origin (commit : ReplaceCommit) :
    Prog.Guarded commit.Prepared (fun _ => (· = commit.origin)) recoverPendingReplacement
      commit.origin :=
  recoverPendingReplacement_guarded commit.prepared (fun _ => rfl) fun journaled => by
    simp [commit.quiet.2] at journaled

theorem Prepared.journaled (prepared : commit.Prepared state)
    (backup : ∀ format, commit.oldFormat = some format →
      state.file (.backup format) = some commit.kept) :
    commit.Journaled { state with replaceJournal := some commit.journal } :=
  ⟨⟨prepared.framed.directory, prepared.framed.appendJournal, prepared.framed.bars,
    prepared.framed.backups⟩, rfl, prepared.manifest.trans commit.named, backup, prepared.generation⟩

/-- The journal names the old generation as it is at the start. -/
theorem Prepared.replaceJournalOf (prepared : commit.Prepared state) :
    replaceJournalOf state commit.old commit.new commit.oldFormat commit.newDownloadedAt =
      commit.journal := by
  have same : indexedDownloadedAt state = indexedDownloadedAt commit.origin := by
    funext manifest
    rw [indexedDownloadedAt, indexedDownloadedAt, SeriesState.seriesRows, SeriesState.seriesRows,
      prepared.index]
  rw [MarketdataProvider.replaceJournalOf, same]
  rfl

theorem beginReplacement (commit : ReplaceCommit) (content : Except PyError (List UInt8)) :
    Prog.Guarded (commit.Reached content)
      (fun _ after => commit.Journaled after ∧
        ∀ format, after.file (.bars format) = commit.origin.file (.bars format))
      (beginReplacement commit.store commit.old commit.new commit.newDownloadedAt) commit.origin := by
  have early : ∀ state, commit.Prepared state → commit.Reached content state := fun _ => .inl
  have start := early _ commit.prepared
  refine .read start (.ofExcept commit.identity (.ofExcept commit.path
    (.bind (commit.recoverPending_origin.widen early) ?_)))
  rintro _ _ rfl
  refine .read start ?_
  simp only [commit.backupFormat_eq]
  refine .bind (commit.backUpOptional.widen early) fun _ backed reached => ?_
  refine .read (early _ reached.1) ?_
  rw [reached.1.replaceJournalOf]
  have journaled := reached.1.journaled reached.2
  exact .step (early _ reached.1) (.done (.inr (journaled.decidedOld reached.1.bars content))
    ⟨journaled, reached.1.bars⟩)

/-- The new bytes take the place of the old ones; the backup still has those. -/
theorem Journaled.createData (journaled : commit.Journaled state) (bytes : List UInt8) :
    commit.Journaled (state.createData (.bars commit.new.dataFormat) bytes) := by
  refine ⟨⟨journaled.directory, journaled.appendJournal, fun format notNew notOld => ?_,
    fun format notOld => ?_⟩, journaled.journal, journaled.manifest, fun format own => ?_,
    journaled.generation⟩
  · rw [SeriesState.file_createData_of_ne _ _ (by simpa using notNew)]
    exact journaled.bars format notNew notOld
  · rw [SeriesState.file_createData_of_ne _ _ (by simp)]
    exact journaled.backups format notOld
  · rw [SeriesState.file_createData_of_ne _ _ (by simp)]
    exact journaled.backup format own

/-- The whole protocol once the new bytes are known: what each crash leaves, and where it ends. -/
theorem commitReplacement_guarded (commit : ReplaceCommit) (bytes : List UInt8) :
    Prog.Guarded (commit.Reached (.ok bytes))
      (fun manifest after => manifest = commit.new ∧ commit.Completed bytes after)
      (MarketdataProvider.commitReplacement commit.store commit.new (.ok bytes) commit.newDownloadedAt)
      commit.origin := by
  refine .read (.inl commit.prepared) ?_
  rw [show commit.origin.manifest.map RawManifest.toManifest = commit.old by rw [commit.named]; rfl]
  refine .bind (commit.beginReplacement (.ok bytes)) ?_
  rintro _ begun ⟨journaled, bars⟩
  have decided : commit.Reached (.ok bytes) begun := .inr (journaled.decidedOld bars (.ok bytes))
  have created := journaled.createData bytes
  have live := begun.data_createData_self (.bars commit.new.dataFormat) bytes
  have published : commit.Published bytes
      { begun.createData (.bars commit.new.dataFormat) bytes with
        manifest := some commit.new.asdict } :=
    ⟨⟨created.directory, created.appendJournal, created.bars, created.backups⟩, created.journal, rfl,
      live⟩
  have forward : ∀ state, commit.RollsForward bytes state → commit.Reached (.ok bytes) state :=
    fun state rolls => .inr (.inr ⟨bytes, .inl rfl, rolls⟩)
  have indexed := published.replaceIndex
  refine .ofExcept rfl (.modify decided (.modify
    (.inr (created.decided fun same => ⟨live, .inl rfl⟩)) (.bind
      (replaceIndexManifest_guarded commit.newIndexed (forward _ (.inl published))
        (forward _ (.inl indexed.1))) ?_)))
  rintro _ _ rfl
  refine .bind (indexed.finishReplacement.widen forward) fun _ last completed => ?_
  exact .done (forward _ (.inr completed)) ⟨rfl, completed⟩

/-- Without the new bytes the protocol stops behind the journal. -/
theorem commitReplacement (commit : ReplaceCommit) (content : Except PyError (List UInt8)) :
    Prog.Keeps (commit.Reached content)
      (fun manifest after => manifest = commit.new ∧
        ∃ bytes, content = .ok bytes ∧ commit.Completed bytes after)
      (commitReplacement commit.store commit.new content commit.newDownloadedAt) commit.origin := by
  cases content with
  | ok bytes =>
      apply (commit.commitReplacement_guarded bytes).partially.weaken fun _ reached => reached
      rintro manifest after ⟨new, completed⟩
      exact ⟨new, bytes, rfl, completed⟩
  | error error =>
      refine .read (.inl commit.prepared) ?_
      rw [show commit.origin.manifest.map RawManifest.toManifest = commit.old by rw [commit.named]; rfl]
      refine .bind (commit.beginReplacement (.error error)).partially ?_
      rintro _ begun ⟨journaled, bars⟩
      exact .fail (.inr (journaled.decidedOld bars (.error error)))

/-- A crash between the backup and the journal leaves the backup behind. -/
theorem backup_left (commit : ReplaceCommit) (content : Except PyError (List UInt8)) :
    ∃ crash ∈ (MarketdataProvider.commitReplacement commit.store commit.new content
        commit.newDownloadedAt).visits commit.origin,
      commit.Prepared crash ∧ ∀ format, commit.oldFormat = some format →
        crash.file (.backup format) = some commit.kept := by
  obtain ⟨-, _, _, quiet, rfl⟩ := commit.recoverPending_origin
  obtain ⟨-, _, crash, backed, reached⟩ := commit.backUpOptional
  refine ⟨crash, ?_, reached⟩
  have last := Prog.final_mem_visits
    (MarketdataProvider.backUpOptional commit.store commit.oldFormat) commit.origin
  rw [backed] at last
  refine Prog.visits_read_bind ?_
  rw [show commit.origin.manifest.map RawManifest.toManifest = commit.old by rw [commit.named]; rfl]
  refine Prog.visits_bind_left (Prog.visits_read_bind ?_)
  refine Prog.visits_ofExcept_bind commit.identity (Prog.visits_ofExcept_bind commit.path ?_)
  refine Prog.visits_bind_right quiet (Prog.visits_read_bind ?_)
  rw [commit.backupFormat_eq]
  exact Prog.visits_bind_left last

end ReplaceCommit

end MarketdataProvider
