import MarketdataProvider.Store.Agreement

namespace MarketdataProvider

open Foundation Foundation.Crash

section Recovery

variable [PyText] {F : Type} [PyFloat F] [Sha256] [Parquet]

section Reading

/-- The digest check of a read: a CSV file can pass by its published generation instead. -/
def Honors (generation : Option IntegrityGeneration) (manifest : RawManifest)
    (format : SegmentFormat) (file : Nat × StoredFile) (bars : List (MarketBar F)) : Prop :=
  match format with
  | .csv => generation.any (·.describes file manifest) ∨
      validateCsvChecksum F file.2.bytes manifest = .ok ()
  | .parquet => parquetChecksum bars manifest = .ok manifest.checksum

/-- The bars of a data file, without its digest. -/
def fileBars (F : Type) [PyFloat F] (pyarrow : Bool) (format : SegmentFormat) (bytes : List UInt8) :
    Except PyError (List (MarketBar F)) :=
  match format with
  | .csv => readCsv F bytes
  | .parquet => readParquet F pyarrow bytes

/-- One data file in one format, under a manifest, with no journal pending. -/
structure OnDisk (state : SeriesState) (raw : RawManifest) (format : SegmentFormat)
    (file : Nat × StoredFile) : Prop where
  quiet : state.Quiescent
  named : state.manifest = some raw
  files : ∀ other, state.file (.bars other) = oneFile (some format) file other

variable {store : SegmentStore} {state after : SeriesState} {raw : RawManifest}
  {format : SegmentFormat} {file : Nat × StoredFile} {bars : List (MarketBar F)}

omit [Parquet] in
/-- A published generation spares the validation; a validation publishes one. -/
theorem validateOrTrust_returns (present : state.file (.bars .csv) = some file) :
    ((validateOrTrustCsvGeneration F raw file.2.bytes).run state).1 = .ok () ↔
      state.generation.any (·.describes file raw) ∨ validateCsvChecksum F file.2.bytes raw = .ok () := by
  have current : integrityGenerationIsCurrent state raw = state.generation.any (·.describes file raw) := by
    rw [integrityGenerationIsCurrent, present]
    cases state.generation <;> rfl
  obtain ⟨payload, stamped⟩ := generationPayload_ok raw.toManifest (SeriesState.data_eq_some present)
  rw [validateOrTrustCsvGeneration, Prog.read_bind, Prog.run_step, ← current]
  dsimp only [id]
  split
  · rename_i trusted
    simp [trusted]
  · rename_i untrusted
    rw [Prog.run_check_bind_eq_ok]
    simp [untrusted, publishIntegrityGeneration, stamped, Prog.modify]

/-- What a locked read of one data file asks of the manifest and of the file. -/
theorem OnDisk.readAllLocked_iff (disk : OnDisk state raw format file) :
    ((readAllLocked F store).run state).1 = .ok bars ↔
      validateManifestContract raw = .ok () ∧ raw.dataFormat.getD store.dataFormat = format ∧
        fileBars F store.pyarrow format file.2.bytes = .ok bars ∧
        validateMarketBars bars = .ok () ∧
        Honors state.generation raw format file bars := by
  have data (other : SegmentFormat) :
      state.data (.bars other) = if format = other then some file.2.bytes else none := by
    rw [SeriesState.data, disk.files, oneFile]
    simp only [Option.some.injEq]
    split <;> rfl
  rw [readAllLocked, Prog.read_bind, Prog.run_step]
  dsimp only [id]
  rw [disk.named]
  dsimp only
  rw [Prog.run_check_bind_eq_ok]
  refine and_congr_right fun _ => ?_
  simp only [data]
  by_cases own : raw.dataFormat.getD store.dataFormat = format
  · have single : ¬ format = otherFormat format := otherFormat_ne format
    simp only [own, single, if_false, Option.isSome_none, Bool.false_eq_true, if_true, true_and]
    cases format with
    | csv =>
        have present : state.file (.bars .csv) = some file := by rw [disk.files, oneFile_self]
        have trusts : ((validateOrTrustCsvGeneration F raw file.2.bytes).run state).1 = .ok () ↔ _ :=
          validateOrTrust_returns present
        have read (last : SeriesState) :
            ((Prog.ofExcept (readCsv F file.2.bytes) >>= fun bars =>
              Prog.ofExcept (validateMarketBars bars) >>= fun _ =>
                (pure bars : StoreProg (List (MarketBar F)))).run last).1 = .ok bars ↔
              readCsv F file.2.bytes = .ok bars ∧ validateMarketBars bars = .ok () := by
          rw [Prog.run_ofExcept_bind_eq_ok]
          constructor
          · rintro ⟨found, reads, rest⟩
            obtain ⟨valid, returned⟩ := Prog.run_check_bind_eq_ok.mp rest
            obtain rfl := Except.ok.inj returned
            exact ⟨reads, valid⟩
          · rintro ⟨reads, valid⟩
            exact ⟨bars, reads, Prog.run_check_bind_eq_ok.mpr ⟨valid, rfl⟩⟩
        simp only [fileBars, Honors, ← trusts]
        rw [Prog.run_bind_eq_ok]
        constructor
        · rintro ⟨_, last, trusted, rest⟩
          obtain ⟨reads, valid⟩ := (read last).mp rest
          exact ⟨reads, valid, by rw [trusted]⟩
        · rintro ⟨reads, valid, trusted⟩
          exact ⟨(), _, Prod.ext trusted rfl, (read _).mpr ⟨reads, valid⟩⟩
    | parquet =>
        simp only [fileBars, Honors]
        rw [Prog.run_ofExcept_bind_eq_ok]
        constructor
        · rintro ⟨found, reads, rest⟩
          obtain ⟨valid, rest⟩ := Prog.run_check_bind_eq_ok.mp rest
          obtain ⟨actual, digested, returned⟩ := Prog.run_ofExcept_bind_eq_ok.mp rest
          split at returned
          · rename_i same
            obtain rfl := Except.ok.inj returned
            exact ⟨reads, valid, by rw [digested, same]⟩
          · cases returned
        · rintro ⟨reads, valid, digested⟩
          refine ⟨bars, reads, Prog.run_check_bind_eq_ok.mpr ⟨valid,
            Prog.run_ofExcept_bind_eq_ok.mpr ⟨_, digested, ?_⟩⟩⟩
          rw [if_pos rfl]
          rfl
  · have other : format = otherFormat (raw.dataFormat.getD store.dataFormat) := by
      cases format <;> cases found : raw.dataFormat.getD store.dataFormat <;> simp_all [otherFormat]
    rw [if_pos other]
    simp [own]

theorem readAll_quiet (quiet : state.Quiescent) :
    ((readAll F store).run state).1 = ((readAllLocked F store).run state).1 := by
  obtain ⟨-, _, _, ran, rfl⟩ := recoverSeries_quiet state quiet.1 quiet.2 .seriesLock
  rw [readAll, Prog.run_bind_ok ran]

/-- A read can only make the generation describe what it validated. -/
theorem OnDisk.readAllLocked_honors (disk : OnDisk state raw format file)
    (honors : Honors state.generation raw format file bars) :
    Prog.Keeps (fun crash => OnlyRead state crash ∧ Honors crash.generation raw format file bars)
      (fun _ after => OnlyRead state after ∧ Honors after.generation raw format file bars)
      (readAllLocked F store) state := by
  have start : OnlyRead state state ∧ Honors state.generation raw format file bars := ⟨rfl, honors⟩
  refine .read start ?_
  rw [disk.named]
  dsimp only
  refine .ofExcept start fun _ _ => ?_
  split
  · exact .fail start
  · split
    · exact .done start start
    · rename_i bytes _ present isCsv
      rw [isCsv, SeriesState.data, disk.files, oneFile] at present
      split at present
      · rename_i own
        cases own
        obtain rfl := Option.some.inj present
        have checked : Prog.Keeps
            (fun crash => OnlyRead state crash ∧ Honors crash.generation raw .csv file bars)
            (fun _ after => OnlyRead state after ∧ Honors after.generation raw .csv file bars)
            (validateOrTrustCsvGeneration F raw file.2.bytes) state := by
          refine .read start ?_
          split
          · exact .done start start
          · refine .ofExcept start fun _ valid => .read start (.ofExcept start fun payload _ => ?_)
            exact .step start (.done ⟨rfl, .inr valid⟩ ⟨rfl, .inr valid⟩)
        refine .bind checked fun _ after kept => ?_
        exact .ofExcept kept fun _ _ => .ofExcept kept fun _ _ => .done kept kept
      · cases present
    · refine .ofExcept start fun _ _ => .ofExcept start fun _ _ => .ofExcept start fun _ _ => ?_
      split
      · exact .done start start
      · exact .fail start

/-- A series that a whole read accepts.
An earlier crash can have left a backup, in the format that the manifest names or defaults to. -/
structure Readable (store : SegmentStore) (state : SeriesState) (raw : RawManifest)
    (format : SegmentFormat) (file : Nat × StoredFile) (bars : List (MarketBar F)) : Prop extends
    OnDisk state raw format file where
  backups : ∀ other, raw.toManifest.dataFormat ≠ other → state.file (.backup other) = none
  reads : ((readAll F store).run state).1 = .ok bars

theorem Readable.checked (readable : Readable store state raw format file bars) :
    validateManifestContract raw = .ok () ∧ raw.dataFormat.getD store.dataFormat = format ∧
      fileBars F store.pyarrow format file.2.bytes = .ok bars ∧ validateMarketBars bars = .ok () ∧
      Honors state.generation raw format file bars := by
  have reads := readable.reads
  rw [readAll_quiet readable.quiet] at reads
  exact readable.toOnDisk.readAllLocked_iff.mp reads

/-- A series with the same bytes under an honored manifest of the same contract is read alike. -/
theorem Readable.reads_again {other : SeriesState} {manifest : RawManifest} {found : Nat × StoredFile}
    (readable : Readable store state raw format file bars) (disk : OnDisk other manifest format found)
    (contract : manifest.runtimeContractVersion = raw.runtimeContractVersion)
    (named : manifest.dataFormat = some format ∨ manifest.dataFormat = raw.dataFormat)
    (bytes : found.2.bytes = file.2.bytes) :
    ((readAll F store).run other).1 = .ok bars ↔ Honors other.generation manifest format found bars := by
  obtain ⟨accepted, formatted, content, valid, -⟩ := readable.checked
  rw [readAll_quiet disk.quiet, disk.readAllLocked_iff, bytes]
  have same : validateManifestContract manifest = .ok () := by
    rw [validateManifestContract, contract]
    exact accepted
  have own : manifest.dataFormat.getD store.dataFormat = format := by
    rcases named with default | kept
    · rw [default]
      rfl
    · rw [kept, formatted]
  simp only [same, own, content, valid, true_and]

end Reading

/-- Each crash before the publication ends in a series that is read as it was before. -/
def RollbackReadable (store : SegmentStore) (state : SeriesState) (program : StoreProg SegmentManifest)
    (published : SegmentManifest) (bars : List (MarketBar F)) : Prop :=
  ∀ crash ∈ program.visits state, crash.manifest ≠ some published.asdict →
    Prog.Recovers recoverSeries (fun after => ((readAll F store).run after).1 = .ok bars) crash

section Append

variable {store : SegmentStore} {state : SeriesState} {raw : RawManifest} {format : SegmentFormat}
  {file : Nat × StoredFile} {bars incoming : List (MarketBar F)} {key : SeriesKey}
  {journal : AppendJournal} {payload : List UInt8}

/-- The rolled back file of an append is never trusted for its generation alone. -/
theorem AppendCommit.RolledBackAt.reads_iff {commit : AppendCommit} {stamp : Nat} {after : SeriesState}
    (readable : Readable store commit.origin commit.raw .csv file bars)
    (csv : commit.raw.toManifest.dataFormat = .csv) (rolled : commit.RolledBackAt stamp after) :
    ∃ number, ((readAll F store).run after).1 = .ok bars ↔
      Honors commit.origin.generation commit.raw.toManifest.asdict .csv
        (number, ⟨file.2.bytes, stamp⟩) bars := by
  obtain ⟨back, number, found⟩ := rolled
  have bytes : commit.bytes = file.2.bytes := by
    have present := commit.present
    rw [SeriesState.data, readable.files, oneFile_self, Option.map_some, Option.some.injEq] at present
    exact present.symm
  rw [bytes] at found
  have disk : OnDisk after commit.raw.toManifest.asdict .csv (number, ⟨file.2.bytes, stamp⟩) := by
    refine ⟨back.quiet, by rw [back.manifest, commit.reading], fun other => ?_⟩
    cases other with
    | csv => rw [found, oneFile_self]
    | parquet => exact back.alone _ (readable.files .parquet)
  refine ⟨number, ?_⟩
  rw [readable.reads_again disk rfl (.inl (congrArg some csv)) rfl, back.generation]

omit [PyText] [PyFloat F] [Sha256] [Parquet] in
/-- The index refuses a manifest with rows and without a time. -/
theorem writeManifestAndIndex_fails {manifest : SegmentManifest} (broken : ¬ manifest.Insertable)
    (downloadedAt : Int) (state : SeriesState) :
    Prog.Returns (fun _ _ => False) (writeManifestAndIndex manifest downloadedAt) state :=
  .modify trivial (.ofExcept trivial fun _ written => absurd (insertable_of_indexRows written) broken)

omit [Parquet] in
/-- The journal of an append names the manifest on disk as its reader sees it, and another one. -/
theorem appendPlan_spec (named : state.manifest = some raw)
    (reached : appendPlan state key incoming = .ok (.commit journal payload)) :
    ∃ bytes, state.data (.bars .csv) = some bytes ∧
      JournalSpec raw.toManifest bytes payload journal ∧
      (state.journaled journal).manifest ≠ some journal.newManifest.asdict := by
  obtain ⟨_, found, bytes, manifest, _, same, _, present, current, plan⟩ := appendPlan_commit reached
  rw [named, Option.some.injEq] at same
  subst same
  obtain ⟨span, modern⟩ := currentManifest_span current
  have spec := plan.spec span modern
  refine ⟨bytes, present, spec, fun published => ?_⟩
  have equal := Option.some.inj (named.symm.trans published)
  have reading := spec.oldManifest
  rw [equal, toManifest_asdict] at reading
  exact spec.advances reading.symm

omit [Parquet] in
/-- A journal whose old manifest has no index row cannot be rolled back. -/
theorem journaled_not_recovered (quiet : state.Quiescent) (named : state.manifest = some raw)
    (reached : appendPlan state key incoming = .ok (.commit journal payload))
    (broken : ¬ raw.toManifest.Insertable) :
    Prog.Returns (fun _ _ => False) (recoverSeries .seriesLock) (state.journaled journal) := by
  obtain ⟨bytes, present, spec, unpublished⟩ := appendPlan_spec named reached
  have uncommitted : appendCommitted (state.journaled journal) journal bytes.length = false := by
    simp [appendCommitted, unpublished]
  have large : ¬ bytes.length < journal.dataSizeBefore := by
    rw [spec.sizeBefore]
    omega
  have single : (state.journaled journal).replaceJournal = none := quiet.2
  refine .bind (recoverPendingReplacement_looks single).1 ?_
  rintro _ _ rfl
  refine .read trivial ?_
  rw [if_pos (by rfl)]
  have data : (state.journaled journal).data (.bars .csv) = some bytes := present
  refine .read trivial ?_
  simp only [show (state.journaled journal).appendJournal = some journal from rfl, data, large,
    uncommitted, if_false, Bool.false_eq_true]
  refine .modify trivial (.read trivial (.bind (writeManifestAndIndex_fails ?_ _ _)
    fun _ _ => False.elim))
  rwa [spec.oldManifest]

variable (readable : Readable store state raw format file bars)
  (reached : appendPlan state key incoming = .ok (.commit journal payload))
include readable reached

/-- An append finds a CSV file under a CSV manifest. -/
theorem Readable.append_csv : format = .csv ∧ raw.toManifest.dataFormat = .csv := by
  obtain ⟨_, found, bytes, _, _, same, csv, present, _⟩ := appendPlan_commit reached
  rw [readable.named, Option.some.injEq] at same
  subst same
  refine ⟨?_, csv⟩
  rw [SeriesState.data, readable.files, oneFile] at present
  split at present
  · rename_i own
    exact Option.some.inj own
  · cases present

theorem Readable.append_of_valid (insertable : raw.toManifest.Insertable)
    (valid : validateCsvChecksum F file.2.bytes raw.toManifest.asdict = .ok ()) :
    RollbackReadable store state (appendStrictlyNewer store incoming key) journal.newManifest bars := by
  obtain ⟨rfl, csv⟩ := readable.append_csv reached
  obtain ⟨commit, rfl, rfl, rfl, rfl⟩ :=
    appendPlan_appendCommit readable.quiet readable.named insertable reached
  intro crash visited unpublished
  rcases (commit.appendStrictlyNewer store reached).1 crash visited with back | forward
  · refine (Prog.Recovers.of_guarded
      (fun entry other (holds : commit.RollsBack other) => holds.recoverSeries entry) back).weaken ?_
    rintro after (rfl | rolled)
    · exact readable.reads
    · obtain ⟨number, stamp, found, -⟩ := rolled.file
      obtain ⟨_, reads⟩ := AppendCommit.RolledBackAt.reads_iff readable csv ⟨rolled, number, found⟩
      exact reads.mpr (.inr valid)
  · exact absurd forward.manifest unpublished

theorem Readable.valid_of_append
    (kept : RollbackReadable store state (appendStrictlyNewer store incoming key) journal.newManifest
      bars) :
    raw.toManifest.Insertable ∧
      validateCsvChecksum F file.2.bytes raw.toManifest.asdict = .ok () := by
  have visited := journaled_visited store readable.quiet reached
  by_cases insertable : raw.toManifest.Insertable
  · refine ⟨insertable, ?_⟩
    obtain ⟨rfl, csv⟩ := readable.append_csv reached
    obtain ⟨commit, rfl, rfl, rfl, rfl⟩ :=
      appendPlan_appendCommit readable.quiet readable.named insertable reached
    have pending : commit.Pending (commit.origin.journaled commit.journal) := commit.journaled.pending
    have recovers := kept _ visited (AppendCommit.unpublished pending.manifest)
    by_contra invalid
    -- Two rollbacks stamp the file at two times, and one generation cannot describe both.
    have trusted {later : SeriesState} (holds : commit.Pending later)
        (crashes : Prog.Crashes recoverSeries (commit.origin.journaled commit.journal) later) :
        ∃ payload, commit.origin.generation = some payload ∧ payload.mtime = later.clock := by
      obtain ⟨after, ran, reads⟩ := recovers later crashes .seriesLock
      obtain ⟨-, _, last, same, rolled⟩ := holds.recoverSeries .seriesLock
      rw [ran] at same
      cases same
      obtain ⟨number, reads_iff⟩ := rolled.reads_iff readable csv
      rcases reads_iff.mp reads with current | valid
      · obtain ⟨payload, published, describes⟩ := (Option.any_eq_true _ _).mp current
        simp only [IntegrityGeneration.describes, Bool.and_eq_true, decide_eq_true_eq] at describes
        exact ⟨payload, published, describes.1.1.1.2⟩
      · exact absurd valid invalid
    have again : Prog.Crashes recoverSeries (commit.origin.journaled commit.journal)
        ((commit.origin.journaled commit.journal).rewriteData (.bars .csv)
          (·.take commit.journal.dataSizeBefore)) := by
      refine .single ⟨.seriesLock, ?_⟩
      have looked := (recoverPendingReplacement_looks pending.replaceJournal).2
      refine Prog.visits_bind_right looked (Prog.visits_read_bind ?_)
      rw [if_pos (show (commit.origin.journaled commit.journal).appendJournal.isSome = true from rfl)]
      exact pending.truncate_visited
    obtain ⟨first, published, early⟩ := trusted pending .refl
    obtain ⟨second, same, late⟩ := trusted pending.truncate.1 again
    rw [published, Option.some.injEq] at same
    subst same
    rw [early] at late
    exact absurd late (Nat.ne_of_lt (Nat.lt_succ_self _))
  · exfalso
    obtain ⟨_, _, _, unpublished⟩ := appendPlan_spec readable.named reached
    obtain ⟨after, ran, -⟩ := kept _ visited unpublished _ .refl .seriesLock
    exact (journaled_not_recovered readable.quiet readable.named reached insertable).2 _ _ ran

end Append

section Replace

variable {store : SegmentStore} {state : SeriesState} {raw : RawManifest} {format : SegmentFormat}
  {file : Nat × StoredFile} {bars : List (MarketBar F)} {key : SeriesKey} {plan : ReplacePlan}
  {op : ReplaceOp F}

omit [PyText] [PyFloat F] [Sha256] [Parquet] in
theorem OnDisk.onlyRead {after : SeriesState} (disk : OnDisk state raw format file)
    (read : OnlyRead state after) : OnDisk after raw format file := by
  rw [read]
  exact ⟨disk.quiet, disk.named, disk.files⟩

/-- What the reading phase leaves is honored like the series itself. -/
theorem Readable.reading (readable : Readable store state raw format file bars) (op : ReplaceOp F) :
    Prog.Keeps (fun crash => OnlyRead state crash ∧ Honors crash.generation raw format file bars)
      (fun _ after => OnlyRead state after ∧ Honors after.generation raw format file bars)
      (op.reading store) state := by
  obtain ⟨-, -, -, -, honors⟩ := readable.checked
  cases op with
  | compact dataFormat => exact readable.toOnDisk.readAllLocked_honors honors
  | replaceAll bars dataFormat => exact .done ⟨rfl, honors⟩ ⟨rfl, honors⟩
  | replaceAllStream bars => exact .done ⟨rfl, honors⟩ ⟨rfl, honors⟩

theorem Readable.source (readable : Readable store state raw format file bars) (op : ReplaceOp F) :
    OnlyRead state (op.source store state) ∧
      Honors (op.source store state).generation raw format file bars :=
  (readable.reading op).1 _ (Prog.final_mem_visits _ _)

theorem Readable.recovers_read {crash : SeriesState}
    (readable : Readable store state raw format file bars) (disk : OnDisk crash raw format file)
    (honors : Honors crash.generation raw format file bars) :
    Prog.Recovers recoverSeries (fun after => ((readAll F store).run after).1 = .ok bars) crash := by
  exact Prog.Recovers.of_stays (recoverSeries_quiet _ disk.quiet.1 disk.quiet.2)
    ((readable.reads_again disk rfl (.inr rfl) rfl).mpr honors)

/-- The state in which a replacement starts its commit, and the file that it keeps. -/
def ReplaceOp.kept (op : ReplaceOp F) (store : SegmentStore) (state : SeriesState)
    (file : Nat × StoredFile) : Nat × StoredFile :=
  store.backupOf (op.source store state) file

omit [PyText] [Sha256] [Parquet] in
theorem generationPayload_describes {manifest : SegmentManifest} {payload : IntegrityGeneration}
    (stamped : generationPayload state manifest = .ok payload) :
    ∃ found, state.file (.bars .csv) = some found ∧ payload.describes found manifest.asdict = true := by
  unfold generationPayload at stamped
  split at stamped
  · cases stamped
  · rename_i inode file present
    cases stamped
    exact ⟨_, present, by simp [IntegrityGeneration.describes, SegmentManifest.asdict]⟩

section Commit

variable {commit : ReplaceCommit} {after : SeriesState}

omit [PyFloat F] [Sha256] [Parquet] in
/-- The series that a rollback restores, as a reader finds it. -/
theorem ReplaceCommit.RolledBack.onDisk (named : commit.raw = some raw) (rolled : commit.RolledBack after) :
    OnDisk after raw.toManifest.asdict raw.toManifest.dataFormat commit.kept := by
  refine ⟨rolled.quiet, ?_, fun other => ?_⟩
  · rw [rolled.manifest, ReplaceCommit.old, named]
    rfl
  · rw [rolled.bars, ReplaceCommit.oldFormat, ReplaceCommit.old, named]
    rfl

/-- A roll forward with the old bytes is honored by the generation that it published. -/
theorem Readable.reads_completed (readable : Readable store state raw format file bars)
    (own : raw.toManifest.dataFormat = format) (named : commit.raw = some raw)
    (bytes : commit.oldBytes = file.2.bytes) (same : commit.old = some commit.new)
    (completed : commit.Completed commit.oldBytes after)
    (digest : format = .parquet →
      Honors state.generation raw.toManifest.asdict format file bars) :
    ((readAll F store).run after).1 = .ok bars := by
  have reading : raw.toManifest = commit.new := by
    rw [ReplaceCommit.old, named] at same
    exact Option.some.inj same
  have data := congrArg SeriesImage.data completed.image
  have live : after.data (.bars format) = some file.2.bytes := by
    refine (congrFun data format).trans ?_
    rw [← bytes, ← own, reading]
    exact oneFile_self _ _
  obtain ⟨found, present, content⟩ := SeriesState.exists_file live
  have disk : OnDisk after raw.toManifest.asdict format found := by
    refine ⟨completed.quiet, ?_, fun other => ?_⟩
    · rw [reading]
      exact congrArg SeriesImage.manifest completed.image
    · by_cases equal : format = other
      · rw [← equal, present, oneFile_self]
      · rw [oneFile, if_neg (by simpa using equal)]
        refine SeriesState.data_eq_none_iff.mp ((congrFun data other).trans ?_)
        simp only [ReplaceCommit.after, oneFile, ← reading, own]
        exact if_neg (by simpa using equal)
  refine (readable.reads_again disk rfl (.inl (congrArg some own)) content).mpr ?_
  cases format with
  | csv =>
      obtain ⟨payload, stamped, published⟩ := completed.generation (by rw [← reading]; exact own)
      obtain ⟨other, again, describes⟩ := generationPayload_describes stamped
      rw [present, Option.some.injEq] at again
      subst again
      refine .inl ?_
      rw [published, reading]
      exact describes
  | parquet => exact digest rfl

end Commit

/-- What lets a crashed replacement restore a series that is read as before. -/
def ReplaceOp.Restores (op : ReplaceOp F) (store : SegmentStore) (state : SeriesState)
    (raw : RawManifest) (format : SegmentFormat) (file : Nat × StoredFile)
    (bars : List (MarketBar F)) : Prop :=
  raw.toManifest.dataFormat = format ∧ raw.toManifest.Insertable ∧
    Honors (op.source store state).generation raw.toManifest.asdict format (op.kept store state file) bars

theorem Readable.replaceable (readable : Readable store state raw format file bars)
    (own : raw.toManifest.dataFormat = format) (insertable : raw.toManifest.Insertable) :
    Replaceable state (some raw) file where
  quiet := readable.quiet
  clean other foreign := readable.backups other fun same => foreign (congrArg some same)
  manifest := readable.named
  bars other := by rw [readable.files, Option.map_some, own]
  insertable := by
    rintro _ ⟨⟩
    exact insertable

/-- Every crash before the publication is undone to a series that is read as before. -/
theorem Readable.replace_of_restores (readable : Readable store state raw format file bars)
    (planned : op.plan store key state = .ok plan)
    (restores : raw ≠ plan.manifest.asdict → op.Restores store state raw format file bars) :
    RollbackReadable store state (op.program store key) plan.manifest bars := by
  have sane : raw.toManifest.dataFormat = format ∧ raw.toManifest.Insertable := by
    by_cases same : raw = plan.manifest.asdict
    · obtain ⟨-, formatted, -⟩ := readable.checked
      rw [same] at formatted ⊢
      exact ⟨formatted, (ReplaceOp.plan_spec planned).insertable⟩
    · obtain ⟨own, insertable, -⟩ := restores same
      exact ⟨own, insertable⟩
  obtain ⟨rfl, insertable⟩ := sane
  obtain ⟨read, honored⟩ := readable.source op
  intro crash visited unpublished
  rcases (op.keeps store key (readable.replaceable rfl insertable)).1 crash visited with
    reading | ⟨untouched, generation⟩ | ⟨other, made, commit, of, decided⟩
  · obtain ⟨only, honors⟩ := (readable.reading op).1 crash reading
    exact readable.recovers_read (readable.toOnDisk.onlyRead only) honors
  · have disk := readable.toOnDisk.onlyRead read
    refine readable.recovers_read ⟨⟨untouched.appendJournal, untouched.replaceJournal⟩,
      untouched.manifest.trans disk.named, fun other => (untouched.bars other).trans (disk.files other)⟩ ?_
    rw [generation]
    exact honored
  · rw [planned, Except.ok.injEq] at made
    subst made
    rcases decided with ⟨unwritten, pending, -⟩ | ⟨newBytes, -, rolls⟩
    · have different : raw ≠ plan.manifest.asdict := by
        intro same
        rw [of.raw, of.new, same] at unwritten
        exact unwritten rfl
      obtain ⟨-, -, honors⟩ := restores different
      have bytes : commit.oldBytes = file.2.bytes := by rw [ReplaceCommit.oldBytes, of.live]
      refine (Prog.Recovers.of_guarded
        (fun entry other (back : commit.RollsBack other) => back.recoverSeries unwritten entry)
        (pending.rollsBack unwritten)).weaken ?_
      rintro after (rolled | ⟨same, completed⟩)
      · refine (readable.reads_again (rolled.onDisk of.raw) rfl (.inl rfl)
          (commit.kept_bytes.trans bytes)).mpr ?_
        rw [rolled.generation, of.origin, ReplaceCommit.kept, of.store, of.origin, of.live]
        exact honors
      · refine readable.reads_completed rfl of.raw bytes same completed fun parquet => ?_
        rw [parquet] at honors ⊢
        exact honors
    · refine absurd ?_ unpublished
      rw [← of.new]
      rcases rolls with live | completed
      · exact live.manifest
      · exact congrArg SeriesImage.manifest completed.image

section Journal

variable {after : SeriesState} {old : SegmentManifest} {new : SegmentManifest}

/-- The journal of a replacement is published and nothing else but the backup has changed. -/
structure Journals (state : SeriesState) (old new : SegmentManifest) (after : SeriesState) : Prop where
  manifest : after.manifest = state.manifest
  appendJournal : after.appendJournal = state.appendJournal
  files : ∀ other, after.file (.bars other) = state.file (.bars other)
  journal : ∃ journal, after.replaceJournal = some journal ∧ journal.oldManifest = some old ∧
    journal.newManifest = new ∧ journal.oldDataName = some old.dataFormat ∧
    journal.backupName = backupFormat state (some old)

omit [Sha256] [Parquet] in
theorem beginReplacement_journals (store : SegmentStore) (quiet : state.replaceJournal = none)
    (identity : validateManifestIdentity (some old) new = .ok ())
    (path : validateJournalPath state.directory new = .ok ()) (downloadedAt : Int) :
    Prog.Guarded (fun _ => True) (fun _ => Journals state old new)
      (beginReplacement store (some old) new downloadedAt) state := by
  have looked : Prog.Guarded (fun _ => True) (fun _ => (· = state)) recoverPendingReplacement state :=
    recoverPendingReplacement_guarded trivial (fun _ => rfl) fun pending => by simp [quiet] at pending
  refine .read trivial (.ofExcept identity (.ofExcept path (.bind looked ?_)))
  rintro _ state rfl
  refine .read trivial ?_
  dsimp only
  have backed (name : Option SegmentFormat) :
      Prog.Guarded (fun _ => True) (fun _ (last : SeriesState) => last.manifest = state.manifest ∧
        last.appendJournal = state.appendJournal ∧
        ∀ other, last.file (.bars other) = state.file (.bars other)) (backUpOptional store name) state := by
    cases name with
    | none => exact .done trivial ⟨rfl, rfl, fun _ => rfl⟩
    | some format =>
        have kept (other : SegmentFormat) : (state.unlinkData (.backup format)).file (.bars other) =
            state.file (.bars other) := SeriesState.file_unlinkData_of_ne _ (by simp)
        refine .modify trivial ?_
        split
        · refine .step trivial (.done trivial ⟨rfl, rfl, fun other => ?_⟩)
          rw [SeriesState.file_linkData_of_ne _ _ (by simp), kept]
        · refine .step trivial (.done trivial ?_)
          split
          · exact ⟨rfl, rfl, kept⟩
          · refine ⟨rfl, rfl, fun other => ?_⟩
            rw [SeriesState.file_createData_of_ne _ _ (by simp), kept]
  refine .bind (backed _) fun _ last reached => .read trivial (.step trivial (.done trivial ?_))
  exact ⟨reached.1, reached.2.1, reached.2.2, _, rfl, rfl, rfl, rfl, rfl⟩

omit [Sha256] [Parquet] in
/-- Without an index row or a file for the old manifest, recovery fails. -/
theorem Journals.not_recovered (journals : Journals state old new after)
    (unpublished : state.manifest ≠ some new.asdict)
    (broken : ¬ old.Insertable ∨ state.file (.bars old.dataFormat) = none) :
    Prog.Returns (fun _ _ => False) (recoverSeries .seriesLock) after := by
  obtain ⟨journal, present, oldManifest, newManifest, oldDataName, backupName⟩ := journals.journal
  have uncommitted : replacementCommitted after journal = false := by
    simp [replacementCommitted, journals.manifest, newManifest, unpublished]
  have restored : Prog.Returns (fun _ _ => False) (restoreOldGeneration journal old) after := by
    rcases broken with broken | absent
    · refine .bind (.any _ _) fun _ _ _ => .read trivial ?_
      split
      · exact .fail trivial
      · exact .bind (.any _ _) fun _ _ _ => writeManifestAndIndex_fails broken _ _
    · have gone : after.data (.bars old.dataFormat) = none :=
        SeriesState.data_eq_none_iff.mpr ((journals.files _).trans absent)
      have noBackup : journal.backupName = none := by
        rw [backupName, backupFormat, Option.map_some, Option.filter_some,
          SeriesState.data_eq_none_iff.mpr absent]
        rfl
      have looked : Prog.Returns (fun _ => (· = after)) (restoreBackup journal) after := by
        refine .read trivial ?_
        rw [noBackup]
        exact .done trivial rfl
      refine .bind looked ?_
      rintro _ _ rfl
      refine .read trivial ?_
      rw [oldDataName, Option.bind_some, gone, if_pos rfl]
      exact .fail trivial
  refine .bind (.read trivial ?_) fun _ _ => False.elim
  rw [if_pos (by rw [present]; rfl)]
  refine .read trivial (.ofExcept trivial fun found validated => ?_)
  obtain rfl := Option.some.inj (present.symm.trans (validatedJournal_named validated))
  rw [uncommitted]
  refine .bind ?_ fun _ _ => False.elim
  rw [restoreGeneration, oldManifest]
  exact restored

end Journal

/-- The commit of an operation begins after its reading phase. -/
theorem ReplaceOp.visits_commit {crash : SeriesState} (quiet : state.Quiescent)
    (planned : op.plan store key state = .ok plan)
    (visited : crash ∈ (commitReplacement store plan.manifest plan.content plan.downloadedAt).visits
      (op.source store state)) : crash ∈ (op.program store key).visits state := by
  obtain ⟨-, _, _, ran, rfl⟩ := recoverSeries_quiet state quiet.1 quiet.2 .seriesLock
  cases op with
  | replaceAll bars dataFormat =>
      exact Prog.visits_bind_right ran (Prog.visits_ofExcept_bind planned visited)
  | replaceAllStream bars =>
      exact Prog.visits_bind_right ran (Prog.visits_ofExcept_bind planned visited)
  | compact dataFormat =>
      obtain ⟨bars, read, planned⟩ := bind_eq_ok.mp planned
      exact Prog.visits_bind_right ran
        (Prog.visits_bind_right (Prod.ext read rfl) (Prog.visits_ofExcept_bind planned visited))

theorem Readable.restores_of_replace (readable : Readable store state raw format file bars)
    (planned : op.plan store key state = .ok plan)
    (identity : validateManifestIdentity (some raw.toManifest) plan.manifest = .ok ())
    (path : validateJournalPath state.directory plan.manifest = .ok ())
    (kept : RollbackReadable store state (op.program store key) plan.manifest bars)
    (different : raw ≠ plan.manifest.asdict) : op.Restores store state raw format file bars := by
  obtain ⟨read, -⟩ := readable.source op
  have disk := readable.toOnDisk.onlyRead read
  have unpublished : (op.source store state).manifest ≠ some plan.manifest.asdict := by
    rw [disk.named]
    exact fun same => different (Option.some.inj same)
  have samePath : validateJournalPath (op.source store state).directory plan.manifest = .ok () := by
    rw [read]
    exact path
  have commits {crash : SeriesState} (visited : crash ∈ (MarketdataProvider.beginReplacement store
      (some raw.toManifest) plan.manifest plan.downloadedAt).visits (op.source store state)) :
      crash ∈ (op.program store key).visits state := by
    refine ReplaceOp.visits_commit readable.quiet planned (Prog.visits_read_bind ?_)
    rw [disk.named]
    exact Prog.visits_bind_left visited
  -- A journal that recovery cannot undo breaks the property at once.
  obtain ⟨-, _, begun, began, journals⟩ :=
    beginReplacement_journals store disk.quiet.2 identity samePath plan.downloadedAt
  have begunVisited := Prog.final_mem_visits (MarketdataProvider.beginReplacement store
    (some raw.toManifest) plan.manifest plan.downloadedAt) (op.source store state)
  rw [began] at begunVisited
  have recovers := kept begun (commits begunVisited) (by rw [journals.manifest]; exact unpublished)
  have sane : raw.toManifest.dataFormat = format ∧ raw.toManifest.Insertable := by
    by_contra broken
    obtain ⟨_, ran, -⟩ := recovers _ .refl .seriesLock
    refine (journals.not_recovered unpublished ?_).2 _ _ ran
    by_cases own : raw.toManifest.dataFormat = format
    · exact .inl fun insertable => broken ⟨own, insertable⟩
    · refine .inr ?_
      rw [disk.files, oneFile, if_neg fun same => own (Option.some.inj same).symm]
  obtain ⟨rfl, insertable⟩ := sane
  refine ⟨rfl, insertable, ?_⟩
  obtain ⟨rows, written⟩ := (ReplaceOp.plan_spec planned).insertable.indexRows plan.downloadedAt
  let commit := ((readable.replaceable rfl insertable).onlyRead read).commit store identity samePath written
  obtain ⟨-, _, journaled, ran, pending, -⟩ := commit.beginReplacement plan.content
  have visited := Prog.final_mem_visits (MarketdataProvider.beginReplacement store
    (some raw.toManifest) plan.manifest plan.downloadedAt) (op.source store state)
  have same : begun = journaled := congrArg Prod.snd (began.symm.trans ran)
  subst same
  have unwritten : commit.raw ≠ some commit.new.asdict := fun same => different (Option.some.inj same)
  obtain ⟨-, _, after, restored, rolled⟩ := pending.pending.recoverSeries unwritten
    (by rw [pending.manifest]; exact unwritten) .seriesLock
  obtain ⟨last, again, reads⟩ := recovers _ .refl .seriesLock
  obtain rfl : last = after := congrArg Prod.snd (again.symm.trans restored)
  have honors := (readable.reads_again (rolled.onDisk rfl) rfl (.inl rfl) commit.kept_bytes).mp reads
  rw [rolled.generation] at honors
  exact honors

end Replace

section Rollback

variable {store : SegmentStore} {state : SeriesState} {raw : RawManifest} {format : SegmentFormat}
  {file : Nat × StoredFile} {bars : List (MarketBar F)}

/-- The operations that journal a rollback image; an append without a bar is the migration. -/
inductive JournaledOp (F : Type) where
  | appendStrictlyNewer (bars : List (MarketBar F))
  | replace (op : ReplaceOp F)

def JournaledOp.program (store : SegmentStore) (key : SeriesKey) :
    JournaledOp F → StoreProg SegmentManifest
  | appendStrictlyNewer bars => MarketdataProvider.appendStrictlyNewer store bars key
  | replace op => op.program store key

/-- The operation passes its checks and journals this new manifest. -/
def JournaledOp.Reaches (store : SegmentStore) (key : SeriesKey) (state : SeriesState)
    (raw : RawManifest) (new : SegmentManifest) : JournaledOp F → Prop
  | appendStrictlyNewer bars => ∃ journal payload,
      appendPlan state key bars = .ok (.commit journal payload) ∧ journal.newManifest = new
  | replace op => ∃ plan, op.plan store key state = .ok plan ∧
      validateManifestIdentity (some raw.toManifest) plan.manifest = .ok () ∧
      validateJournalPath state.directory plan.manifest = .ok () ∧ plan.manifest = new

/-- The manifest with its defaults still describes the file that a rollback leaves. -/
def JournaledOp.Restores (store : SegmentStore) (state : SeriesState) (raw : RawManifest)
    (format : SegmentFormat) (file : Nat × StoredFile) (bars : List (MarketBar F))
    (new : SegmentManifest) : JournaledOp F → Prop
  | appendStrictlyNewer _ => raw.toManifest.Insertable ∧
      validateCsvChecksum F file.2.bytes raw.toManifest.asdict = .ok ()
  | replace op => raw ≠ new.asdict → op.Restores store state raw format file bars

/-- A crash before the publication leaves the bars readable exactly when the manifest still
describes them after its absent fields were filled with the defaults. -/
theorem rollback_readable_iff (store : SegmentStore) (key : SeriesKey) (state : SeriesState)
    (raw : RawManifest) (format : SegmentFormat) (file : Nat × StoredFile) (bars : List (MarketBar F))
    (readable : Readable store state raw format file bars) (op : JournaledOp F) (new : SegmentManifest)
    (reached : op.Reaches store key state raw new) :
    RollbackReadable store state (op.program store key) new bars ↔
      op.Restores store state raw format file bars new := by
  cases op with
  | appendStrictlyNewer incoming =>
      obtain ⟨journal, payload, planned, rfl⟩ := reached
      constructor
      · exact readable.valid_of_append planned
      · rintro ⟨insertable, valid⟩
        exact readable.append_of_valid planned insertable valid
  | replace op =>
      obtain ⟨plan, planned, identity, path, rfl⟩ := reached
      constructor
      · exact readable.restores_of_replace planned identity path
      · exact readable.replace_of_restores planned

end Rollback

end Recovery

section Legacy

open scoped Reference
open Reference

namespace Reference

/-- A series of one candle is readable under every manifest that has its digest. -/
theorem storedCandle_readable {raw : RawManifest} (store : SegmentStore)
    (contract : raw.runtimeContractVersion = runtimeContractVersion)
    (csv : raw.dataFormat = some .csv) (agrees : ChecksumAgrees raw [candle 0]) :
    ∃ file, file.2.bytes = csvFile [candle 0] ∧
      Readable store (storedCandle raw) raw .csv file [candle 0] := by
  have disk : OnDisk (storedCandle raw) raw .csv (0, ⟨csvFile [candle 0], 0⟩) := by
    refine ⟨⟨rfl, rfl⟩, rfl, fun other => ?_⟩
    cases other
    · rfl
    · rfl
  refine ⟨_, rfl, disk, fun other _ => rfl, ?_⟩
  rw [readAll_quiet disk.quiet, disk.readAllLocked_iff]
  refine ⟨if_pos contract, by rw [csv]; rfl, readCsv_of_storable candle_normal candles_storable, ?_, ?_⟩
  · exact eq_ok_of_toOption (by decide +kernel)
  · exact .inr ((validateCsvChecksum_csvFile_iff _ candle_normal candles_storable).mpr agrees)

end Reference

theorem rollback_readable_iff_oneCandle : ∃ journal payload,
    appendPlan oneCandle series [candle 60000] = .ok (.commit journal payload) ∧
      RollbackReadable ⟨.csv, true, false⟩ oneCandle
        (appendStrictlyNewer ⟨.csv, true, false⟩ [candle 60000] series) journal.newManifest [candle 0] := by
  obtain ⟨journal, payload, reached⟩ := appendPlan_oneCandle
  obtain ⟨file, bytes, readable⟩ := storedCandle_readable ⟨.csv, true, false⟩ rfl rfl oneCandle_agrees
  refine ⟨journal, payload, reached, ?_⟩
  refine (rollback_readable_iff ⟨.csv, true, false⟩ series oneCandle manifest.asdict .csv file [candle 0]
    readable (.appendStrictlyNewer [candle 60000]) journal.newManifest
    ⟨journal, payload, reached, rfl⟩).mpr ⟨insertable_generationManifest _ _ _ _, ?_⟩
  rw [bytes, toManifest_asdict]
  exact (validateCsvChecksum_csvFile_iff _ candle_normal candles_storable).mpr oneCandle_agrees

/-- The migration of a legacy series crashes before its publication: recovery writes a manifest
under which the series cannot be read. -/
theorem legacy_rollback_unreadable : ∃ (file : Nat × StoredFile) (new : SegmentManifest),
    Readable ⟨.csv, true, false⟩ legacySeries legacyManifest .csv file [candle 0] ∧
      (JournaledOp.appendStrictlyNewer ([] : List (MarketBar Whole))).Reaches ⟨.csv, true, false⟩ series
        legacySeries legacyManifest new ∧
      ¬ RollbackReadable ⟨.csv, true, false⟩ legacySeries
        (appendStrictlyNewer ⟨.csv, true, false⟩ ([] : List (MarketBar Whole)) series) new
          [candle 0] := by
  obtain ⟨file, bytes, readable⟩ := storedCandle_readable ⟨.csv, true, false⟩ rfl rfl legacy_agrees
  obtain ⟨journal, reached⟩ := legacy_migration
  refine ⟨file, journal.newManifest, readable, ⟨journal, [], reached, rfl⟩, fun kept => ?_⟩
  obtain ⟨-, valid⟩ := readable.valid_of_append reached kept
  rw [bytes] at valid
  exact legacy_defaults_disagree valid

end Legacy

end MarketdataProvider
