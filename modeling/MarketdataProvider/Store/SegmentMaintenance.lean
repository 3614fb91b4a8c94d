import MarketdataProvider.Store.TidySeries

namespace MarketdataProvider

open Foundation Foundation.Crash

/-- A data file that the search of `vacuum_segments` has found. The writer lock of its directory is
taken without a recovery, and only the visible manifest is asked. -/
def vacuumFile (format : SegmentFormat) : StoreProg Nat := do
  let state ← Prog.read
  match state.manifest with
  | none => return 0
  | some manifest =>
      if format ≠ manifest.toManifest.dataFormat ∧ (state.file (.bars format)).isSome then do
        Prog.modify (·.unlinkData (.bars format))
        return 1
      else return 0

/-- A temporary file of an abandoned write; no recovery and no read looks for one. -/
structure TemporaryFile where
  path : List String
  mtime : Int
  deriving DecidableEq

def TemporaryFile.stale (now : Int) (file : TemporaryFile) : Bool := file.mtime < now - 3600

/-- `vacuum_segments`: the data files in the order of the search, then the temporary files.
The `VACUUM` of the index keeps its rows. -/
def SegmentTree.vacuumFiles (tree : SegmentTree) :
    List (List String × SegmentFormat) → SegmentTree × Nat
  | [] => (tree, 0)
  | (place, format) :: rest =>
      match (vacuumFile format).run (tree.view place) with
      | (.ok removed, state) =>
          let (last, later) := (tree.put place state).vacuumFiles rest
          (last, removed + later)
      | (.error _, state) => (tree.put place state, 0)

def SegmentTree.vacuumSegments (tree : SegmentTree) (now : Int)
    (found : List (List String × SegmentFormat)) (temporary : List TemporaryFile) :
    SegmentTree × List TemporaryFile × Nat :=
  let (last, removed) := tree.vacuumFiles found
  (last, temporary.filter (!·.stale now), removed + temporary.countP (·.stale now))

section Unlinked

variable [PyText] {name : DataName} {left right state : SeriesState} {place : List String}

/-- The one state has a data file less. -/
def Unlinked (name : DataName) (left right : SeriesState) : Prop := right = left.unlinkData name

omit [PyText] in
theorem SeriesState.unlinkData_comm (state : SeriesState) (first second : DataName) :
    (state.unlinkData first).unlinkData second = (state.unlinkData second).unlinkData first := by
  simp only [unlinkData, Directory.unlink_comm state.files first second]

omit [PyText] in
theorem SeriesState.unlinkData_unlinkData (state : SeriesState) (name : DataName) :
    (state.unlinkData name).unlinkData name = state.unlinkData name := by
  simp only [unlinkData, Directory.unlink_unlink_self]

omit [PyText] in
theorem SeriesState.unlinkData_of_absent {state : SeriesState} {name : DataName}
    (absent : state.file name = none) : state.unlinkData name = state := by
  simp only [unlinkData, Directory.unlink_of_absent absent]

omit [PyText] in
theorem Unlinked.unlinkOptional (unlinked : Unlinked name left right) {other : Option DataName}
    {format : SegmentFormat} (present : left.HasBars format) (kept : other ≠ some (.bars format)) :
    Prog.Together (fun after twin => Unlinked name after twin ∧ after.HasBars format)
      (unlinkOptional other) left right := by
  cases other with
  | none => exact .done ⟨unlinked, present⟩
  | some other =>
      refine .modify (.done ⟨?_, present.unlinkData fun same => kept (congrArg some same)⟩)
      rw [unlinked]
      exact SeriesState.unlinkData_comm left name other

omit [PyText] in
theorem Unlinked.replaceIndexManifest (unlinked : Unlinked name left right)
    {manifest : SegmentManifest} (insertable : manifest.Insertable) (downloadedAt : Int) :
    Prog.Together (fun after other => Unlinked name after other ∧ ∃ index, after = { left with index })
      (replaceIndexManifest manifest downloadedAt) left right := by
  obtain ⟨rows, written⟩ := insertable.indexRows downloadedAt
  rw [MarketdataProvider.replaceIndexManifest, written]
  refine .modify (.done ⟨?_, _, rfl⟩)
  rw [unlinked]
  rfl

omit [PyText] in
/-- The published generation describes the new file. -/
theorem Unlinked.publishReplacement {journal : ReplaceJournal}
    (unlinked : Unlinked (.bars (otherFormat journal.newDataName)) left right)
    (present : left.HasBars journal.newDataName) :
    Prog.Together (Unlinked (.bars (otherFormat journal.newDataName))) (publishReplacement journal)
      left right := by
  unfold MarketdataProvider.publishReplacement
  split
  · rename_i csv
    have payload : generationPayload right journal.newManifest =
        generationPayload left journal.newManifest := by
      rw [generationPayload, generationPayload, unlinked,
        left.file_unlinkData_of_ne (by rw [csv]; decide)]
    rw [csv] at present
    obtain ⟨file, found⟩ := Option.ne_none_iff_exists'.mp present
    obtain ⟨stamp, stamped⟩ :=
      generationPayload_ok journal.newManifest (SeriesState.data_eq_some found)
    refine .read (by rw [payload]) ?_
    rw [stamped]
    refine .modify (.done ?_)
    rw [unlinked]
    rfl
  · exact .done unlinked

/-- The end of a replacement removes the other data file by itself. -/
theorem Unlinked.finishReplacement {journal : ReplaceJournal}
    (unlinked : Unlinked (.bars (otherFormat journal.newDataName)) left right)
    (valid : validatedJournal left = .ok journal) (present : left.HasBars journal.newDataName) :
    Prog.Agrees (· = ·) finishReplacement left right := by
  have same : validatedJournal right = validatedJournal left := by
    rw [unlinked]
    rfl
  refine .read (by rw [same]) (.ofExcept_ok valid ?_)
  have superseded : Prog.Together
      (fun after other => Unlinked (.bars (otherFormat journal.newDataName)) after other ∧
        after.HasBars journal.newDataName) (unlinkSuperseded journal) left right := by
    unfold unlinkSuperseded
    split
    · exact .done ⟨unlinked, present⟩
    · rename_i differs
      refine unlinked.unlinkOptional present fun equal => differs ?_
      obtain ⟨old, found, same⟩ := Option.map_eq_some_iff.mp equal
      cases same
      exact found
  refine superseded.agrees_bind ?_
  rintro _ after other ⟨cleared, still⟩
  refine (cleared.publishReplacement still).agrees_bind ?_
  intro _ current twin published
  refine .modify ?_
  rw [published, SeriesState.unlinkData_unlinkData]
  exact .refl _ _

omit [PyText] in
/-- A rollback removes the new data file by itself, and never the old one. -/
theorem Unlinked.restoreOldGeneration {journal : ReplaceJournal} {old : SegmentManifest}
    (unlinked : Unlinked (.bars journal.newDataName) left right)
    (oldName : journal.oldDataName = some old.dataFormat)
    (differs : journal.newDataName ≠ old.dataFormat) (present : left.HasBars old.dataFormat) :
    Prog.Agrees (· = ·) (restoreOldGeneration journal old) left right := by
  have backups (format : SegmentFormat) : right.data (.backup format) = left.data (.backup format) := by
    rw [unlinked]
    exact left.data_unlinkData_of_ne (by simp)
  have restores : Prog.Together (fun after other => Unlinked (.bars journal.newDataName) after other ∧
      after.HasBars old.dataFormat) (restoreBackup journal) left right := by
    refine .read (by simp only [backups]) ?_
    split
    · rename_i backup oldData _ named
      obtain rfl := Option.some.inj (named.symm.trans oldName)
      split
      · rename_i copied
        obtain ⟨bytes, data⟩ := Option.isSome_iff_exists.mp copied
        obtain ⟨found, file, -⟩ := SeriesState.exists_file data
        refine .modify (.done ⟨?_, ?_⟩)
        · rw [unlinked]
          simp only [Unlinked, SeriesState.renameData, SeriesState.unlinkData]
          rw [Directory.rename_unlink_of_ne _ (by simp) (by simpa using differs.symm)]
        · rw [SeriesState.HasBars, left.file_renameData_target file]
          simp
      · exact .done ⟨unlinked, present⟩
    · exact .done ⟨unlinked, present⟩
  refine restores.agrees_bind ?_
  rintro _ after other ⟨restored, still⟩
  have same : other.data (.bars old.dataFormat) = after.data (.bars old.dataFormat) := by
    rw [restored]
    exact after.data_unlinkData_of_ne (by simpa using differs.symm)
  have found : (journal.oldDataName.bind fun name => after.data (.bars name)) ≠ none := by
    rw [oldName]
    exact fun absent => still (SeriesState.data_eq_none_iff.mp absent)
  refine .read (by rw [oldName]; simp only [Option.bind_some, same]) ?_
  rw [if_neg found]
  have unlinks : Prog.Together (· = ·) (unlinkReplacing journal) after other := by
    have replacing : ¬ some journal.newDataName = journal.oldDataName := by
      rw [oldName, Option.some.injEq]
      exact differs
    rw [unlinkReplacing, if_neg replacing]
    refine .modify (.done ?_)
    rw [restored, SeriesState.unlinkData_unlinkData]
  refine unlinks.agrees_bind ?_
  rintro _ last _ rfl
  exact .refl _ _

end Unlinked

section Vacuum

variable [PyText] {state swept : SeriesState} {place : List String} {shown format : SegmentFormat}

/-- A data file that the visible manifest does not name is removed by the recovery, unread. -/
theorem recoverReplacementJournal_unlinked (tidy : Tidy place state) {journal : ReplaceJournal}
    (pending : state.replaceJournal = some journal) (visible : state.visibleFormat = some shown)
    (stale : format ≠ shown) (present : state.HasBars format) :
    Prog.Agrees (· = ·) recoverReplacementJournal state (state.unlinkData (.bars format)) := by
  obtain ⟨valid, insertable, framed, named⟩ := tidy.replacing journal pending
  obtain ⟨newName, oldName⟩ := validatedJournal_names valid
  have same : validatedJournal (state.unlinkData (.bars format)) = validatedJournal state := rfl
  have backed := tidy.backed shown visible
  by_cases published : state.manifest = some journal.newManifest.asdict
  · -- The new generation is visible: the file belongs to the old one.
    have new : journal.newDataName = shown := by
      rw [SeriesState.visibleFormat, published, Option.map_some, toManifest_asdict] at visible
      exact newName.trans (Option.some.inj visible)
    have other : format = otherFormat journal.newDataName := by
      rw [new]
      by_contra differs
      exact stale (eq_of_ne_otherFormat differs)
    have unlinked : Unlinked (.bars (otherFormat journal.newDataName)) state
        (state.unlinkData (.bars format)) := by
      rw [other]
      rfl
    have committed (current : SeriesState) (manifest : current.manifest = state.manifest)
        (file : current.HasBars shown) : replacementCommitted current journal = true := by
      obtain ⟨found, file⟩ := Option.ne_none_iff_exists'.mp file
      rw [replacementCommitted, manifest, published, new, SeriesState.data_eq_some file]
      simp
    have left := committed state rfl backed
    have right := committed (state.unlinkData (.bars format)) rfl
      (backed.unlinkData fun equal => stale (DataName.bars.inj equal))
    refine .read ?_ (.ofExcept_ok valid ?_)
    · rw [same, valid]
      change (if replacementCommitted (state.unlinkData (.bars format)) journal = true then _ else _) =
        if replacementCommitted state journal = true then _ else _
      rw [left, right]
    rw [if_pos left]
    refine (unlinked.replaceIndexManifest insertable journal.newDownloadedAt).agrees_bind ?_
    rintro _ after other ⟨indexed, index, rfl⟩
    exact indexed.finishReplacement valid (new.symm ▸ backed)
  · -- The old generation is visible: the file belongs to the new one.
    have old := named.resolve_left published
    rw [visible] at old
    obtain ⟨stored, first, named⟩ := Option.map_eq_some_iff.mp old.symm
    subst named
    have new : format = journal.newDataName := by
      rw [newName]
      refine (framed format present).elim Option.some.inj fun own => absurd ?_ stale
      rw [← old] at own
      exact Option.some.inj own
    have uncommitted (current : SeriesState) (manifest : current.manifest = state.manifest) :
        replacementCommitted current journal = false := by
      rw [replacementCommitted, manifest, decide_eq_false published]
      rfl
    have left := uncommitted state rfl
    have right := uncommitted (state.unlinkData (.bars format)) rfl
    refine .read ?_ (.ofExcept_ok valid ?_)
    · rw [same, valid]
      change (if replacementCommitted (state.unlinkData (.bars format)) journal = true then _ else _) =
        if replacementCommitted state journal = true then _ else _
      rw [left, right]
    rw [left, if_neg (by decide), restoreGeneration, first]
    have unlinked : Unlinked (.bars journal.newDataName) state (state.unlinkData (.bars format)) := by
      rw [new]
      rfl
    refine .bind (unlinked.restoreOldGeneration (oldName.trans old.symm) (new ▸ stale) backed) ?_
    rintro _ after _ _ rfl
    exact .refl _ _

/-- Recovery cannot tell whether a stale data file was vacuumed before. -/
theorem recoverSeries_unlinked (tidy : Tidy place state) (visible : state.visibleFormat = some shown)
    (stale : format ≠ shown) (entry : RecoveryEntry) :
    (recoverSeries entry).run (state.unlinkData (.bars format)) = (recoverSeries entry).run state := by
  by_cases present : state.HasBars format
  · cases pending : state.replaceJournal with
    | none =>
        have same := tidy.settled pending format present
        rw [visible] at same
        exact absurd (Option.some.inj same).symm stale
    | some journal =>
        have append : state.appendJournal = none := by
          cases found : state.appendJournal with
          | none => rfl
          | some other =>
              have quiet := (tidy.appending other found).1
              rw [pending] at quiet
              cases quiet
        have replacement : Prog.Agrees (· = ·) recoverPendingReplacement state
            (state.unlinkData (.bars format)) := by
          refine .read rfl ?_
          rw [pending]
          exact recoverReplacementJournal_unlinked tidy pending visible stale present
        have agrees : Prog.Agrees (· = ·) (recoverSeries entry) state
            (state.unlinkData (.bars format)) := by
          cases entry with
          | constructor =>
              have looks : Prog.Together (fun left right => left = state ∧
                  right = state.unlinkData (.bars format)) recoverPendingAppend state
                  (state.unlinkData (.bars format)) := by
                refine .read rfl ?_
                rw [append]
                exact .done ⟨rfl, rfl⟩
              refine looks.agrees_bind ?_
              rintro _ _ _ ⟨rfl, rfl⟩
              exact replacement
          | seriesLock =>
              refine .bind replacement ?_
              rintro _ after _ _ rfl
              exact .refl _ _
        exact (Prod.ext agrees.1 agrees.2).symm
  · rw [SeriesState.unlinkData_of_absent (not_not.mp present)]

/-- A vacuum leaves a series alone, or it removes the data file that the manifest does not name. -/
def Swept (state swept : SeriesState) : Prop :=
  swept = state ∨ ∃ shown format, state.visibleFormat = some shown ∧ format ≠ shown ∧
    swept = state.unlinkData (.bars format)

/-- Whatever starts with a recovery runs as it would have run without the vacuum. -/
theorem Swept.run_recovering {Value : Type} (sweeps : Swept state swept) (tidy : Tidy place state)
    (entry : RecoveryEntry) (rest : Unit → StoreProg Value) :
    (recoverSeries entry >>= rest).run swept = (recoverSeries entry >>= rest).run state := by
  have same : (recoverSeries entry).run swept = (recoverSeries entry).run state := by
    rcases sweeps with rfl | ⟨shown, format, visible, stale, rfl⟩
    · rfl
    · exact recoverSeries_unlinked tidy visible stale entry
  rw [Prog.run_bind, Prog.run_bind, same]

omit [PyText] in
theorem Swept.visibleFormat (sweeps : Swept state swept) :
    swept.visibleFormat = state.visibleFormat := by
  rcases sweeps with rfl | ⟨_, _, _, _, rfl⟩
  · rfl
  · rfl

omit [PyText] in
theorem Swept.withIndex (sweeps : Swept state swept) (index : List IndexRow) :
    Swept { state with index } { swept with index } := by
  rcases sweeps with rfl | ⟨shown, format, visible, stale, rfl⟩
  · exact .inl rfl
  · exact .inr ⟨shown, format, visible, stale, rfl⟩

omit [PyText] in
theorem Swept.index (sweeps : Swept state swept) : swept.index = state.index := by
  rcases sweeps with rfl | ⟨_, _, _, _, rfl⟩
  · rfl
  · rfl

omit [PyText] in
/-- A second visit finds nothing more to remove. -/
theorem Swept.unlinkData (sweeps : Swept state swept) (visible : state.visibleFormat = some shown)
    (stale : format ≠ shown) : Swept state (swept.unlinkData (.bars format)) := by
  rcases sweeps with rfl | ⟨other, gone, named, elsewhere, rfl⟩
  · exact .inr ⟨shown, format, visible, stale, rfl⟩
  · rw [visible, Option.some.injEq] at named
    subst named
    have same : gone = format := by
      cases shown <;> cases gone <;> cases format <;> simp_all
    rw [same, SeriesState.unlinkData_unlinkData]
    exact .inr ⟨shown, format, visible, stale, rfl⟩

omit [PyText] in
/-- A visited file is removed only when the visible manifest names the other format. -/
theorem vacuumFile_keeps (invariant : SeriesState → Prop) (state : SeriesState) (format : SegmentFormat)
    (holds : invariant state)
    (unlinks : ∀ shown, state.visibleFormat = some shown → format ≠ shown →
      invariant (state.unlinkData (.bars format))) :
    Prog.Guarded invariant (fun _ => invariant) (vacuumFile format) state := by
  refine .read holds ?_
  split
  · exact .done holds holds
  · rename_i manifest named
    split
    · rename_i decided
      have after : invariant (state.unlinkData (.bars format)) :=
        unlinks manifest.toManifest.dataFormat (by rw [SeriesState.visibleFormat, named]; rfl) decided.1
      exact .step holds (.done after after)
    · exact .done holds holds

theorem Tidy.vacuumFile (tidy : Tidy place state) (format : SegmentFormat) :
    Prog.Guarded (Tidy place) (fun _ => Tidy place) (vacuumFile format) state := by
  apply vacuumFile_keeps _ state format tidy
  intro shown visible stale
  refine tidy.unlinkData fun other named equal => stale ?_
  rw [visible] at named
  exact (DataName.bars.inj equal).trans (Option.some.inj named).symm

omit [PyText] in
theorem Swept.vacuumFile (sweeps : Swept state swept) (format : SegmentFormat) :
    Prog.Guarded (Swept state) (fun _ => Swept state) (vacuumFile format) swept := by
  apply vacuumFile_keeps _ swept format sweeps
  intro shown visible stale
  exact sweeps.unlinkData (sweeps.visibleFormat.symm.trans visible) stale

end Vacuum

namespace SegmentTree

variable [PyText] {F : Type} [PyFloat F] [Sha256] [Parquet] {tree swept : SegmentTree}

/-- What can be asked of a store: an operation, a read or a recovery of one series. -/
inductive Request (F : Type) where
  | operate (op : StoreOp F)
  | read (key : SeriesKey) (pending : Nat → Bool) (start stop : Option Int)
  | recover (key : SeriesKey) (entry : RecoveryEntry)

omit [PyText] [PyFloat F] [Sha256] [Parquet] in
def Request.key : Request F → SeriesKey
  | operate op => op.series
  | read key _ _ _ => key
  | recover key _ => key

/-- Only a read answers with bars. -/
def Request.program (store : SegmentStore) : Request F → StoreProg (List (MarketBar F))
  | operate op => do
      op.program store
      return []
  | read _ pending start stop => readRange F pending store start stop
  | recover _ entry => do
      recoverSeries entry
      return []

/-- A request that fails leaves what it has done so far. -/
def serve (store : SegmentStore) (tree : SegmentTree) (request : Request F) : SegmentTree :=
  match seriesDirectory request.key with
  | .error _ => tree
  | .ok place => tree.put place ((request.program store).run (tree.view place)).2

def serveAll (store : SegmentStore) (tree : SegmentTree) (requests : List (Request F)) : SegmentTree :=
  requests.foldl (serve store) tree

/-- A step of a store that is also vacuumed, under any configuration: each step can stop anywhere. -/
inductive MaintainedStep (F : Type) [PyFloat F] : SegmentTree → SegmentTree → Prop where
  | keyed {tree after : SegmentTree} (store : SegmentStore) (key : SeriesKey)
      (step : Step F store key tree after) : MaintainedStep F tree after
  | vacuums {tree : SegmentTree} {place : List String} {state : SeriesState} (format : SegmentFormat)
      (visited : state ∈ (vacuumFile format).visits (tree.view place)) :
      MaintainedStep F tree (tree.put place state)

/-- The trees that operations, recoveries and vacuums can make of an empty root. -/
def Maintained (F : Type) [PyFloat F] (tree : SegmentTree) : Prop :=
  Relation.ReflTransGen (MaintainedStep F) empty tree

/-- Every series of the tree is tidy. -/
def AllTidy (tree : SegmentTree) : Prop := ∀ place, Tidy place (tree.view place)

omit [PyFloat F] [Sha256] [Parquet] in
theorem AllTidy.put (tidy : tree.AllTidy) {place : List String} {state : SeriesState}
    (inside : Tidy place state) : (tree.put place state).AllTidy := by
  intro current
  by_cases same : current = place
  · subst same
    rw [view_put_self inside.directory]
    exact inside
  · rw [view_put_of_ne same]
    exact (tidy current).withIndex state.index

theorem Request.stays_tidy {place : List String} {state : SeriesState} (tidy : Tidy place state)
    (store : SegmentStore) (request : Request F) :
    StaysTidy place SeriesState.Quiescent (request.program store) state := by
  cases request with
  | operate op => exact .bind (tidy.program store op) fun _ _ last => .done last.1 last
  | read key pending start stop => exact tidy.readRange pending store start stop
  | recover key entry => exact .bind (tidy.recoverSeries entry) fun _ _ last => .done last.1 last

theorem AllTidy.serve (tidy : tree.AllTidy) (store : SegmentStore) (request : Request F) :
    (tree.serve store request).AllTidy := by
  unfold SegmentTree.serve
  split
  · exact tidy
  · rename_i place _
    exact tidy.put ((request.stays_tidy (tidy place) store).1 _ (Prog.final_mem_visits _ _))

theorem MaintainedStep.allTidy {after : SegmentTree} (step : MaintainedStep F tree after)
    (tidy : tree.AllTidy) : after.AllTidy := by
  cases step with
  | keyed store key step =>
      cases step with
      | operates op addressed placed visited =>
          exact tidy.put (((tidy _).program store op).1 _ visited)
      | reads pending start stop placed visited =>
          exact tidy.put (((tidy _).readRange pending store start stop).1 _ visited)
      | recovers entry placed visited => exact tidy.put (((tidy _).recoverSeries entry).1 _ visited)
  | vacuums format visited => exact tidy.put (((tidy _).vacuumFile format).1 _ visited)

theorem Maintained.allTidy (reachable : Maintained F tree) : tree.AllTidy := by
  induction reachable with
  | refl => exact tidy_empty
  | tail _ step ih => exact step.allTidy ih

/-- The second tree is the first one after some vacuuming. -/
def Sweeps (tree swept : SegmentTree) : Prop := ∀ place, Swept (tree.view place) (swept.view place)

omit [PyText] [PyFloat F] [Sha256] [Parquet] in
theorem Sweeps.put (sweeps : Sweeps tree swept) {place : List String} {state other : SeriesState}
    (here : state.directory = place) (there : other.directory = place)
    (same : Swept state other) : Sweeps (tree.put place state) (swept.put place other) := by
  intro current
  by_cases equal : current = place
  · subst equal
    rw [view_put_self here, view_put_self there]
    exact same
  · rw [view_put_of_ne equal, view_put_of_ne equal, same.index]
    exact (sweeps current).withIndex state.index

/-- A request is answered as without the vacuum, and it leaves its series as without it. -/
theorem Request.run_swept {place : List String} {state after : SeriesState} (tidy : Tidy place state)
    (sweeps : Swept state after) (store : SegmentStore) (request : Request F) :
    (request.program store).run after = (request.program store).run state := by
  cases request with
  | operate op =>
      have same : (op.program store).run after = (op.program store).run state := by
        cases op with
        | replaceAll | replaceAllStream | appendStrictlyNewer | upsertClosed | commitClosed | compact =>
            rw [StoreOp.program, Prog.run_bind, Prog.run_bind]
            congr 1
            exact sweeps.run_recovering tidy .seriesLock _
      rw [Request.program, Prog.run_bind, Prog.run_bind, same]
  | read key pending start stop => exact sweeps.run_recovering tidy .seriesLock _
  | recover key entry => exact sweeps.run_recovering tidy entry _

theorem Sweeps.serve (sweeps : Sweeps tree swept) (tidy : tree.AllTidy) (store : SegmentStore)
    (request : Request F) : Sweeps (tree.serve store request) (swept.serve store request) := by
  unfold SegmentTree.serve
  split
  · exact sweeps
  · rename_i place _
    have stays := (request.stays_tidy (tidy place) store).1 _ (Prog.final_mem_visits _ _)
    rw [request.run_swept (tidy place) (sweeps place) store]
    exact sweeps.put stays.directory stays.directory (.inl rfl)

theorem Sweeps.serveAll (sweeps : Sweeps tree swept) (tidy : tree.AllTidy) (store : SegmentStore)
    (requests : List (Request F)) :
    Sweeps (tree.serveAll store requests) (swept.serveAll store requests) ∧
      (tree.serveAll store requests).AllTidy := by
  induction requests generalizing tree swept with
  | nil => exact ⟨sweeps, tidy⟩
  | cons request rest ih => exact ih (sweeps.serve tidy store request) (tidy.serve store request)

omit [PyFloat F] [Sha256] [Parquet] in
theorem Sweeps.vacuumFiles (sweeps : Sweeps tree swept) (tidy : tree.AllTidy)
    (found : List (List String × SegmentFormat)) : Sweeps tree (swept.vacuumFiles found).1 := by
  induction found generalizing swept with
  | nil => exact sweeps
  | cons file rest ih =>
      obtain ⟨place, format⟩ := file
      obtain ⟨-, removed, after, ran, reached⟩ := (sweeps place).vacuumFile format
      have there : after.directory = place := by
        rcases reached with rfl | ⟨_, _, _, _, rfl⟩
        · exact (tidy place).directory
        · exact (tidy place).directory
      have next : Sweeps tree (swept.put place after) := by
        intro current
        by_cases equal : current = place
        · subst equal
          rw [view_put_self there]
          exact reached
        · have indexes : swept.index = tree.index := (sweeps current).index
          have unchanged : { swept.view current with index := tree.index } = swept.view current := by
            rw [← indexes]
            rfl
          rw [view_put_of_ne equal, reached.index]
          exact unchanged.symm ▸ sweeps current
      rw [SegmentTree.vacuumFiles, ran]
      exact ih next

end SegmentTree

/-- A vacuum costs no data: from every tree that operations, recoveries and vacuums can leave behind,
wherever they stopped, each later request gives the same outcome, and it leaves the bars, the manifest
and the index rows of its series as without the vacuum. -/
theorem vacuum_keeps_series [PyText] {F : Type} [PyFloat F] [Sha256] [Parquet] (store : SegmentStore)
    (tree : SegmentTree) (reachable : SegmentTree.Maintained F tree) (now : Int)
    (found : List (List String × SegmentFormat)) (temporary : List TemporaryFile)
    (requests : List (SegmentTree.Request F)) (request : SegmentTree.Request F) (place : List String) :
    (request.program store).run
        (((tree.vacuumSegments now found temporary).1.serveAll store requests).view place) =
      (request.program store).run ((tree.serveAll store requests).view place) := by
  have tidy := reachable.allTidy
  have start : SegmentTree.Sweeps tree tree := fun _ => .inl rfl
  obtain ⟨sweeps, still⟩ := (start.vacuumFiles tidy found).serveAll tidy store requests
  exact request.run_swept (still place) (sweeps place) store

namespace Reference.Tables

/-- A Parquet package that can write the table without rows. -/
scoped instance (priority := high) emptyTables : Parquet where
  writeTable rows := if rows = [] then some [] else none
  readTable bytes := if bytes = [] then some [] else none
  read_write rows bytes written := by
    split at written
    · rename_i empty
      cases written
      rw [if_pos rfl, empty]
    · cases written

end Reference.Tables

section Example

open scoped Reference Reference.Tables
open Reference

def spotPlace : List String :=
  ["v1", "exchange=binance", "market=spot", "symbol=BTCUSDT", "source=trade_kline", "timeframe=1m"]

/-- A change to Parquet that stops once the new data file is there. -/
def halfChanged (state : SeriesState) : Bool :=
  state.replaceJournal.isSome && (state.file (.bars .parquet)).isSome &&
    decide (state.visibleFormat = some .csv)

/-- One candle, written as CSV. -/
def firstWritten : SeriesState :=
  (((StoreOp.replaceAll series [candle 0] none).program ⟨.csv, true, true⟩).run (.empty spotPlace)).2

/-- Its replacement by an empty Parquet file is interrupted. -/
theorem halfChanged_visited :
    ∃ crash ∈ ((StoreOp.replaceAll series ([] : List (MarketBar Whole)) (some .parquet)).program
        ⟨.csv, true, true⟩).visits firstWritten, halfChanged crash = true :=
  List.any_eq_true.mp (by decide +kernel)

/-- The vacuum removes the new data file while its journal is pending. -/
theorem vacuumFile_halfChanged {state : SeriesState} (changed : halfChanged state = true) :
    (vacuumFile .parquet).run state = (.ok 1, state.unlinkData (.bars .parquet)) := by
  simp only [halfChanged, Bool.and_eq_true, decide_eq_true_eq] at changed
  obtain ⟨⟨_, present⟩, visible⟩ := changed
  obtain ⟨raw, named, csv⟩ := Option.map_eq_some_iff.mp visible
  change (Prog.run (match state.manifest with
    | none => _
    | some manifest => _) state) = _
  rw [named]
  dsimp only
  rw [if_pos ⟨by rw [csv]; decide, present⟩]
  rfl

theorem vacuum_keeps_series_halfChanged : ∃ tree : SegmentTree, halfChanged (tree.view spotPlace) = true ∧
    (tree.vacuumSegments 0 [(spotPlace, .parquet)] []).2.2 = 1 ∧
      (readRange Whole (fun _ => false) ⟨.csv, true, true⟩ none none).run
          ((tree.vacuumSegments 0 [(spotPlace, .parquet)] []).1.view spotPlace) =
        (readRange Whole (fun _ => false) ⟨.csv, true, true⟩ none none).run (tree.view spotPlace) := by
  obtain ⟨crash, visited, changed⟩ := halfChanged_visited
  have placed : seriesDirectory series = .ok spotPlace := eq_ok_of_toOption (by decide +kernel)
  have written : Tidy spotPlace firstWritten :=
    ((tidy_empty spotPlace).program ⟨.csv, true, true⟩ (.replaceAll series [candle 0] none)).1 _
      (Prog.final_mem_visits _ _)
  have stopped := (written.program ⟨.csv, true, true⟩
    (.replaceAll series ([] : List (MarketBar Whole)) (some .parquet))).1 crash visited
  have first : SegmentTree.MaintainedStep Whole .empty
      (SegmentTree.empty.put spotPlace firstWritten) :=
    .keyed ⟨.csv, true, true⟩ series (.operates (.replaceAll series [candle 0] none) rfl placed
      (Prog.final_mem_visits _ _))
  have second : SegmentTree.MaintainedStep Whole (SegmentTree.empty.put spotPlace firstWritten)
      ((SegmentTree.empty.put spotPlace firstWritten).put spotPlace crash) := by
    refine .keyed ⟨.csv, true, true⟩ series (.operates
      (.replaceAll series ([] : List (MarketBar Whole)) (some .parquet)) rfl placed ?_)
    rw [SegmentTree.view_put_self written.directory]
    exact visited
  have view := @SegmentTree.view_put_self (SegmentTree.empty.put spotPlace firstWritten)
    spotPlace crash stopped.directory
  refine ⟨(SegmentTree.empty.put spotPlace firstWritten).put spotPlace crash, by rw [view]; exact changed,
    ?_, vacuum_keeps_series ⟨.csv, true, true⟩ _ ((Relation.ReflTransGen.single first).tail second) 0
      [(spotPlace, .parquet)] [] [] (.read series (fun _ => false) none none) spotPlace⟩
  rw [SegmentTree.vacuumSegments, SegmentTree.vacuumFiles, view, vacuumFile_halfChanged changed]
  rfl

end Example

end MarketdataProvider
