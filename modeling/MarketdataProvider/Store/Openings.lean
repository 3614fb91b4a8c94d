import MarketdataProvider.Foundation.Mirrors
import MarketdataProvider.Store.ReadersWriters
import MarketdataProvider.Store.SeriesIsolation

namespace MarketdataProvider

open Foundation Foundation.Crash

section Beside

variable [PyText] {place : List String} {left right : SeriesState}

/-- The programs that pass the same states whatever the index rows from elsewhere are. -/
abbrev Mirrored {Value : Type} (place : List String) (program : StoreProg Value)
    (left right : SeriesState) : Prop :=
  Prog.Mirrors (SameSeries place) program left right

theorem mirrored_replaceIndexManifest (same : SameSeries place left right)
    (manifest : SegmentManifest) (downloadedAt : Int) :
    Mirrored place (replaceIndexManifest manifest downloadedAt) left right :=
  .ofExcept same fun rows _ => .modify same (.done (same.replaceIndex manifest.key rows))

theorem mirrored_publish (same : SameSeries place left right) (manifest : SegmentManifest) :
    Mirrored place (publishIntegrityGeneration manifest) left right := by
  have files := same.files
  obtain ⟨index, rfl, rows⟩ := same
  have same : SameSeries place left { left with index } := ⟨index, rfl, rows⟩
  refine .read same rfl (.ofExcept same fun payload _ => .modify same (.done ?_))
  exact files left.files (some payload) left.clock

theorem mirrored_unlink (same : SameSeries place left right) (name : Option DataName) :
    Mirrored place (unlinkOptional name) left right := by
  have files := same.files
  obtain ⟨index, rfl, rows⟩ := same
  have same : SameSeries place left { left with index } := ⟨index, rfl, rows⟩
  cases name with
  | none => exact same
  | some name => exact .modify same (.done (files (left.files.unlink name) left.generation left.clock))

theorem SameSeries.dropJournals (same : SameSeries place left right) (append : Option AppendJournal)
    (replace : Option ReplaceJournal) :
    SameSeries place { left with appendJournal := append, replaceJournal := replace }
      { right with appendJournal := append, replaceJournal := replace } := by
  obtain ⟨index, rfl, rows⟩ := same
  exact ⟨index, rfl, rows⟩

theorem mirrored_dropReplaceJournal (same : SameSeries place left right) :
    Mirrored place (Prog.modify fun state : SeriesState => { state with replaceJournal := none })
      left right := by
  have dropped := same.dropJournals left.appendJournal none
  obtain ⟨index, rfl, rows⟩ := same
  exact .modify ⟨index, rfl, rows⟩ (.done dropped)

theorem mirrored_dropAppendJournal (same : SameSeries place left right) :
    Mirrored place (Prog.modify fun state : SeriesState => { state with appendJournal := none })
      left right := by
  have dropped := same.dropJournals none left.replaceJournal
  obtain ⟨index, rfl, rows⟩ := same
  exact .modify ⟨index, rfl, rows⟩ (.done dropped)

theorem mirrored_finishReplacement (same : SameSeries place left right) :
    Mirrored place finishReplacement left right := by
  have equal : validatedJournal right = validatedJournal left := by
    obtain ⟨index, rfl, rows⟩ := same
    rfl
  refine .read same (by rw [equal]) (.ofExcept same fun journal _ => ?_)
  have superseded : Mirrored place (unlinkSuperseded journal) left right := by
    unfold unlinkSuperseded
    split
    · exact .done same
    · exact mirrored_unlink same _
  refine .bind superseded fun _ next last _ unlinked => ?_
  have published : Mirrored place (publishReplacement journal) next last := by
    unfold publishReplacement
    split
    · exact mirrored_publish unlinked _
    · exact unlinked
  refine .bind published fun _ current twin _ alike => ?_
  have cleared : Mirrored place (unlinkOptional (some (.bars (otherFormat journal.newDataName))))
      current twin := mirrored_unlink alike _
  refine .modify alike ?_
  exact .bind (mirrored_unlink cleared.agrees.2 _) fun _ _ _ _ last => mirrored_dropReplaceJournal last

theorem mirrored_restoreBackup (same : SameSeries place left right) (journal : ReplaceJournal) :
    Mirrored place (restoreBackup journal) left right := by
  have files := same.files
  obtain ⟨index, rfl, rows⟩ := same
  have same : SameSeries place left { left with index } := ⟨index, rfl, rows⟩
  refine .read same rfl ?_
  split
  · rename_i backup oldData _ _
    split
    · exact .modify same (.done (files (left.files.rename (.backup backup) (.bars oldData))
        left.generation left.clock))
    · exact .done same
  · exact .done same

theorem mirrored_restoreOldGeneration (same : SameSeries place left right)
    (journal : ReplaceJournal) (old : SegmentManifest) :
    Mirrored place (restoreOldGeneration journal old) left right := by
  refine .bind (mirrored_restoreBackup same journal) fun _ after other _ restored => ?_
  have unlinks : Mirrored place (unlinkReplacing journal) after other := by
    unfold unlinkReplacing
    split
    · exact restored
    · exact mirrored_unlink restored (some _)
  have data (format : SegmentFormat) : other.data (.bars format) = after.data (.bars format) := by
    obtain ⟨index, rfl, rows⟩ := restored
    rfl
  refine .read restored (by simp only [data]) ?_
  split
  · exact restored
  · refine .bind unlinks fun _ next last _ alike => .modify alike ?_
    exact mirrored_replaceIndexManifest (alike.writeManifest _) old journal.oldDownloadedAt

theorem mirrored_restoreGeneration (same : SameSeries place left right)
    (journal : ReplaceJournal) : Mirrored place (restoreGeneration journal) left right := by
  unfold restoreGeneration
  split
  · have unlinked : Mirrored place (unlinkOptional (some (.bars journal.newDataName))) left right :=
      mirrored_unlink same _
    have bare := unlinked.agrees.2.writeManifest none
    refine .modify same (.modify unlinked.agrees.2 (.modify bare (.done ?_)))
    exact bare.replaceIndex journal.newManifest.key []
  · exact mirrored_restoreOldGeneration same journal _

theorem mirrored_recoverPendingReplacement (same : SameSeries place left right) :
    Mirrored place recoverPendingReplacement left right := by
  have equal : validatedJournal right = validatedJournal left ∧
      right.replaceJournal = left.replaceJournal ∧
        ∀ journal, replacementCommitted right journal = replacementCommitted left journal := by
    obtain ⟨index, rfl, rows⟩ := same
    exact ⟨rfl, rfl, fun _ => rfl⟩
  obtain ⟨journals, pending, committed⟩ := equal
  refine .read same (by rw [pending]) ?_
  split
  · refine .read same (by simp only [journals, committed]) (.ofExcept same fun journal _ => ?_)
    split
    · exact .bind (mirrored_replaceIndexManifest same _ _) fun _ _ _ _ indexed =>
        mirrored_finishReplacement indexed
    · refine .bind (mirrored_restoreGeneration same journal) fun _ _ _ _ restored => ?_
      exact .bind (mirrored_unlink restored _) fun _ _ _ _ last => mirrored_dropReplaceJournal last
  · exact .done same

/-- The rollback of an append asks the index for the rows of its own series. -/
theorem mirrored_recoverPendingAppend (same : SameSeries place left right)
    (placed : ∀ journal, left.appendJournal = some journal →
      seriesDirectory journal.oldManifest.key = .ok place) :
    Mirrored place recoverPendingAppend left right := by
  obtain ⟨index, rfl, rows⟩ := same
  have same : SameSeries place left { left with index } := ⟨index, rfl, rows⟩
  refine .read same rfl ?_
  split
  · refine .read same rfl ?_
    split
    · exact .fail same
    · exact .fail same
    · rename_i journal bytes named present
      split
      · exact .fail same
      · split
        · exact .bind (mirrored_replaceIndexManifest same _ _) fun _ _ _ _ alike =>
            mirrored_dropAppendJournal alike
        · have cut := same.files (left.rewriteData (.bars .csv) (·.take journal.dataSizeBefore)).files
            left.generation (left.clock + 1)
          have found : indexedDownloadedAt
              (({ left with index } : SeriesState).rewriteData (.bars .csv) (·.take journal.dataSizeBefore))
              journal.oldManifest =
              indexedDownloadedAt (left.rewriteData (.bars .csv) (·.take journal.dataSizeBefore))
                journal.oldManifest :=
            congrArg latestDownloadedAt (rows journal.oldManifest.key (placed journal named))
          refine .modify same (.read cut (by rw [found]) ?_)
          have wrote := cut.writeManifest (some journal.oldManifest.asdict)
          exact .bind (.modify cut (mirrored_replaceIndexManifest wrote _ _)) fun _ _ _ _ alike =>
            mirrored_dropAppendJournal alike
  · exact .done same

/-- What a state holds is enough to say that it stays in its directory. -/
theorem Contained.again {origin state : SeriesState} (contained : Contained origin state) :
    Contained state state := by
  have here := contained.directory
  exact ⟨rfl, fun raw named => here ▸ contained.manifest raw named,
    fun journal named => here ▸ contained.append journal named,
    fun journal named => here ▸ contained.replace journal named, fun _ _ => rfl⟩

theorem mirrored_recoverSeries (same : SameSeries place left right)
    (contained : Contained left left) (here : left.directory = place) (entry : RecoveryEntry) :
    Mirrored place (recoverSeries entry) left right := by
  have placed (after : SeriesState) (kept : Contained left after) (journal : AppendJournal)
      (named : after.appendJournal = some journal) :
      seriesDirectory journal.oldManifest.key = .ok place := by
    rw [← here]
    exact (kept.append journal named).1
  cases entry with
  | constructor =>
      exact .bind (mirrored_recoverPendingAppend same (placed left contained))
        fun _ _ _ _ alike => mirrored_recoverPendingReplacement alike
  | seriesLock =>
      refine .bind (mirrored_recoverPendingReplacement same) fun _ after _ ran alike => ?_
      exact mirrored_recoverPendingAppend alike
        (placed after (contained.recoverPendingReplacement.2 _ _ ran))

end Beside

section Places

variable [PyText] {F : Type} [PyFloat F] [Sha256] [Parquet] {place : List String}
  {found : Option RawManifest} {normal : SeriesKey} {value : Option (List (MarketBar F))}
  {left right : SeriesState}

theorem Sound.sameSeries (sound : Sound F found normal left) (same : SameSeries place left right)
    (home : seriesDirectory normal = .ok place) : Sound F found normal right := by
  obtain ⟨index, rfl, rows⟩ := same
  refine ⟨sound.quiet, sound.backups, fun none => ?_, fun raw named => ?_⟩
  · obtain ⟨files, empty⟩ := sound.absent none
    exact ⟨files, (rows normal home).trans empty⟩
  · obtain ⟨kept, ⟨downloadedAt, written⟩, bars, bytes, generation, files⟩ := sound.present raw named
    refine ⟨kept, ⟨downloadedAt, ?_⟩, bars, bytes, generation, files⟩
    have keyed : raw.toManifest.key = normal := generation.key
    rw [rows _ (keyed ▸ home)]
    exact written

theorem SoundAt.sameSeries (sound : SoundAt found normal value left) (same : SameSeries place left right)
    (home : seriesDirectory normal = .ok place) : SoundAt found normal value right := by
  refine ⟨sound.sound.sameSeries same home, ?_, ?_⟩
  · obtain ⟨index, rfl, rows⟩ := same
    exact sound.legible
  · have shows := sound.shows
    obtain ⟨index, rfl, rows⟩ := same
    cases value with
    | none => exact shows
    | some bars => exact shows

/-- A series is recovered whatever the index rows of the other ones have become. -/
theorem Committed.sameSeries (committed : Committed found normal value left)
    (same : SameSeries place left right) (home : seriesDirectory normal = .ok place)
    (contained : Contained left left) (here : left.directory = place) :
    Committed found normal value right := by
  have mirrors (entry : RecoveryEntry) (state twin : SeriesState)
      (inside : Contained state state ∧ state.directory = place) (paired : SameSeries place state twin) :
      Mirrored place (recoverSeries entry) state twin :=
    mirrored_recoverSeries paired inside.1 inside.2 entry
  apply Prog.Recovers.mirrored mirrors _ _ committed ⟨contained, here⟩ same
  · intro entry state inside crash visited
    have kept := (inside.1.recoverSeries entry).1 crash visited
    exact ⟨kept.again, kept.directory.trans inside.2⟩
  · intro state twin sound paired
    exact sound.sameSeries paired home

/-- With an append journal the constructor's first recovery returns, and the journal is gone. -/
theorem Committed.recoverAppendJournal (committed : Committed found normal value left)
    (pending : left.appendJournal.isSome = true) :
    ∃ after, recoverAppendJournal.run left = (.ok (), after) ∧ after.appendJournal = none ∧
      Committed found normal value after := by
  obtain ⟨last, ran, -⟩ := committed left .refl .constructor
  have first : recoverPendingAppend.run left = MarketdataProvider.recoverAppendJournal.run left := by
    change Prog.run (if left.appendJournal.isSome then _ else _) left = _
    rw [pending]
    rfl
  cases recovered : MarketdataProvider.recoverAppendJournal.run left with
  | mk outcome after =>
      rw [recovered] at first
      cases outcome with
      | error error =>
          have failed : (recoverSeries .constructor).run left = (.error error, after) :=
            Prog.run_bind_error first
          rw [failed] at ran
          cases ran
      | ok done =>
          have gone : Prog.Keeps (fun _ => True) (fun _ state => state.appendJournal = none)
              MarketdataProvider.recoverAppendJournal left := by
            have any {Value : Type} (program : StoreProg Value) (state : SeriesState) :
                Prog.Keeps (fun _ => True) (fun _ _ => True) program state :=
              ⟨fun _ _ => trivial, fun _ _ _ => trivial⟩
            refine .read trivial ?_
            split
            · exact .fail trivial
            · exact .fail trivial
            · split
              · exact .fail trivial
              · have drops (state : SeriesState) : Prog.Keeps (fun _ => True)
                    (fun _ state => state.appendJournal = none)
                    (Prog.modify (fun state => { state with appendJournal := none }) : StoreProg Unit) state :=
                  .step trivial (.done trivial rfl)
                dsimp only
                split
                · exact .bind (any _ _) fun _ last _ => drops last
                · exact .modify trivial (.read trivial (.bind (any _ _) fun _ last _ => drops last))
          have visited := Prog.final_mem_visits recoverPendingAppend left
          rw [first] at visited
          exact ⟨after, rfl, gone.2 _ _ recovered,
            committed.visited .constructor (Prog.visits_bind_left visited)⟩

/-- Once no append is pending the recovery of a replacement leaves a sound series. -/
theorem Committed.recoverReplacementJournal (committed : Committed found normal value left)
    (appended : left.appendJournal = none) (pending : left.replaceJournal.isSome = true) :
    ∃ after, recoverReplacementJournal.run left = (.ok (), after) ∧ SoundAt found normal value after := by
  obtain ⟨last, ran, sound⟩ := committed left .refl .constructor
  have skipped : recoverPendingAppend.run left = (.ok (), left) := by
    change Prog.run (if left.appendJournal.isSome then _ else _) left = _
    rw [appended]
    rfl
  have second : (recoverSeries .constructor).run left = MarketdataProvider.recoverReplacementJournal.run left := by
    rw [recoverSeries, Prog.run_bind_ok skipped]
    change Prog.run (if left.replaceJournal.isSome then _ else _) left = _
    rw [pending]
    rfl
  exact ⟨last, second.symm.trans ran, sound⟩

end Places

namespace SegmentTree

section Sweeps

/-- The journals that a glob finds, in the order in which it finds them. -/
def Finds (pending : SeriesState → Bool) (tree : SegmentTree) (places : List (List String)) : Prop :=
  places.Nodup ∧ ∀ place, place ∈ places ↔ pending (tree.view place) = true

def appending (state : SeriesState) : Bool := state.appendJournal.isSome

def replacing (state : SeriesState) : Bool := state.replaceJournal.isSome

/-- The loop over the journals that were found. -/
def sweep (recovery : StoreProg Unit) : List (List String) → SegmentTree → Except PyError Unit × SegmentTree
  | [], tree => (.ok (), tree)
  | place :: rest, tree =>
      match recovery.run (tree.view place) with
      | (.ok _, state) => sweep recovery rest (tree.put place state)
      | (.error error, state) => (.error error, tree.put place state)

/-- The trees in which the loop can die. -/
def sweepVisits (recovery : StoreProg Unit) : List (List String) → SegmentTree → List SegmentTree
  | [], tree => [tree]
  | place :: rest, tree =>
      (recovery.visits (tree.view place)).map (tree.put place) ++
        match recovery.run (tree.view place) with
        | (.ok _, state) => sweepVisits recovery rest (tree.put place state)
        | (.error _, _) => []

variable [PyText]

/-- The constructor of a store: first all append journals, then all replacement journals. It ends, or
fails at a journal, or dies on its way. -/
inductive Opens : SegmentTree → Option (Except PyError Unit) → SegmentTree → Prop where
  | appendDies {tree after : SegmentTree} {places : List (List String)}
      (found : Finds appending tree places)
      (visited : after ∈ sweepVisits recoverAppendJournal places tree) : Opens tree none after
  | appendFails {tree after : SegmentTree} {places : List (List String)} {error : PyError}
      (found : Finds appending tree places)
      (failed : sweep recoverAppendJournal places tree = (.error error, after)) :
      Opens tree (some (.error error)) after
  | replaceDies {tree next after : SegmentTree} {places others : List (List String)}
      (found : Finds appending tree places)
      (swept : sweep recoverAppendJournal places tree = (.ok (), next)) (again : Finds replacing next others)
      (visited : after ∈ sweepVisits recoverReplacementJournal others next) : Opens tree none after
  | ends {tree next after : SegmentTree} {places others : List (List String)}
      {outcome : Except PyError Unit} (found : Finds appending tree places)
      (swept : sweep recoverAppendJournal places tree = (.ok (), next)) (again : Finds replacing next others)
      (ended : sweep recoverReplacementJournal others next = (outcome, after)) :
      Opens tree (some outcome) after

variable {tree : SegmentTree} {places : List (List String)}

/-- The recovery of one journal returns to a good tree, and where it dies the tree is not lost. -/
def JournalRecovers (recovery : StoreProg Unit) (pending : SeriesState → Bool)
    (good crashed : SegmentTree → Prop) : Prop :=
  ∀ tree place, good tree → pending (tree.view place) = true →
    (∀ crash ∈ recovery.visits (tree.view place), crashed (tree.put place crash)) ∧
      ∃ state, recovery.run (tree.view place) = (.ok (), state) ∧ state.directory = place ∧
        pending state = false ∧ good (tree.put place state)

omit [PyText] in
/-- When every recovery of the loop returns, so does the loop, and no journal of its kind is left. -/
theorem JournalRecovers.sweep {recovery : StoreProg Unit} {pending : SeriesState → Bool}
    {good crashed : SegmentTree → Prop} (recovers : JournalRecovers recovery pending good crashed)
    (blind : ∀ state index, pending { state with index } = pending state)
    (weak : ∀ tree, good tree → crashed tree) (holds : good tree) (distinct : places.Nodup)
    (found : ∀ place ∈ places, pending (tree.view place) = true) :
    (∀ crash ∈ sweepVisits recovery places tree, crashed crash) ∧
      ∃ after, sweep recovery places tree = (.ok (), after) ∧ good after ∧
        ∀ place, pending (after.view place) = true →
          pending (tree.view place) = true ∧ place ∉ places := by
  induction places generalizing tree with
  | nil =>
      refine ⟨fun crash visited => ?_, tree, rfl, holds, fun place left => ⟨left, List.not_mem_nil⟩⟩
      rw [List.mem_singleton.mp visited]
      exact weak tree holds
  | cons place rest ih =>
      obtain ⟨apart, distinct⟩ := List.nodup_cons.mp distinct
      obtain ⟨crashes, state, ran, here, cleared, still⟩ :=
        recovers tree place holds (found place List.mem_cons_self)
      have others (other : List String) (away : other ≠ place) :
          pending ((tree.put place state).view other) = pending (tree.view other) := by
        rw [view_put_of_ne away, blind]
      have later (other : List String) (member : other ∈ rest) :
          pending ((tree.put place state).view other) = true := by
        have away : other ≠ place := fun same => apart (same ▸ member)
        rw [others other away]
        exact found other (List.mem_cons_of_mem _ member)
      obtain ⟨visits, after, swept, last, remaining⟩ := ih still distinct later
      refine ⟨fun crash visited => ?_, after, ?_, last, fun other left => ?_⟩
      · rw [sweepVisits, ran] at visited
        rcases List.mem_append.mp visited with first | second
        · obtain ⟨state, member, rfl⟩ := List.mem_map.mp first
          exact crashes state member
        · exact visits crash second
      · rw [sweep, ran]
        exact swept
      · obtain ⟨before, outside⟩ := remaining other left
        have away : other ≠ place := by
          rintro rfl
          rw [view_put_self here, cleared] at before
          cases before
        rw [others other away] at before
        refine ⟨before, fun member => ?_⟩
        rcases List.mem_cons.mp member with same | inside
        · exact away same
        · exact outside inside

end Sweeps

section Lives

variable [PyText] {F : Type} [PyFloat F] [Sha256] [Parquet] {found : List String → Option RawManifest}
  {normal : List String → SeriesKey} {values : List String → Option (List (MarketBar F))}
  {tree after : SegmentTree} {place : List String}

/-- Every series of the tree is committed to its bars, however its directory was left. -/
structure AllCommitted (found : List String → Option RawManifest) (normal : List String → SeriesKey)
    (values : List String → Option (List (MarketBar F))) (tree : SegmentTree) : Prop where
  owned : tree.Owned
  committed : ∀ place, seriesDirectory (normal place) = .ok place →
    Committed (found place) (normal place) (values place) (tree.view place)

/-- What happens in one directory leaves the bars of the other ones alone. -/
theorem AllCommitted.put {state : SeriesState} {value : Option (List (MarketBar F))}
    (stands : AllCommitted found normal values tree) (contained : Contained (tree.view place) state)
    (committed : Committed (found place) (normal place) value state) :
    AllCommitted found normal (Function.update values place value) (tree.put place state) := by
  refine ⟨stands.owned.put contained, fun other home => ?_⟩
  by_cases same : other = place
  · subst same
    have here : state.directory = other := contained.directory
    rw [view_put_self here, Function.update_self]
    exact committed
  · rw [Function.update_of_ne same]
    refine (stands.committed other home).sameSeries ?_ home (stands.owned other) rfl
    rw [view_put_of_ne same]
    refine ⟨state.index, rfl, fun key lives => contained.foreign key fun inside => same ?_⟩
    exact Except.ok.inj (lives.symm.trans inside)

theorem AllCommitted.kept {state : SeriesState} (stands : AllCommitted found normal values tree)
    (contained : Contained (tree.view place) state)
    (committed : Committed (found place) (normal place) (values place) state) :
    AllCommitted found normal values (tree.put place state) := by
  have still := stands.put contained committed
  rwa [Function.update_eq_self] at still

/-- `normal` names one identity for each directory of a series. -/
def Names (normal : List String → SeriesKey) : Prop :=
  ∀ key place, seriesDirectory key = .ok place → seriesDirectory (normal place) = .ok place

theorem AllCommitted.home_of_appending (stands : AllCommitted found normal values tree) (names : Names normal)
    (pending : appending (tree.view place) = true) : seriesDirectory (normal place) = .ok place := by
  obtain ⟨journal, named⟩ := Option.isSome_iff_exists.mp pending
  exact names _ _ ((stands.owned place).append journal named).1

theorem AllCommitted.home_of_replacing (stands : AllCommitted found normal values tree) (names : Names normal)
    (pending : replacing (tree.view place) = true) : seriesDirectory (normal place) = .ok place := by
  obtain ⟨journal, named⟩ := Option.isSome_iff_exists.mp pending
  exact names _ _ ((stands.owned place).replace journal named).2

theorem AllCommitted.appendsRecover (names : Names normal) :
    JournalRecovers recoverAppendJournal appending (AllCommitted found normal values)
      (AllCommitted found normal values) := by
  intro tree place stands pending
  have home := stands.home_of_appending names pending
  have contained := (stands.owned place).recoverAppendJournal
  have committed := stands.committed place home
  obtain ⟨state, ran, gone, recovered⟩ := committed.recoverAppendJournal pending
  refine ⟨fun crash visited => ?_, state, ran, (contained.2 _ _ ran).directory, ?_, ?_⟩
  · apply stands.kept (contained.1 crash visited)
    rcases visits_recoverAppendJournal visited with rfl | inside
    · exact committed
    · exact committed.visited _ inside
  · rw [appending, gone]
    rfl
  · exact stands.kept (contained.2 _ _ ran) recovered

/-- The first loop of an opening returns and leaves no append journal. -/
theorem AllCommitted.sweepAppends (stands : AllCommitted found normal values tree) (names : Names normal)
    {places : List (List String)} (finds : Finds appending tree places) :
    (∀ crash ∈ sweepVisits recoverAppendJournal places tree, AllCommitted found normal values crash) ∧
      ∃ next, sweep recoverAppendJournal places tree = (.ok (), next) ∧
        AllCommitted found normal values next ∧ ∀ place, (next.view place).appendJournal = none := by
  have recovers : JournalRecovers _ _ _ (AllCommitted found normal values) := AllCommitted.appendsRecover names
  obtain ⟨visits, next, swept, still, remaining⟩ := recovers.sweep (fun _ _ => rfl)
    (fun _ stands => stands) stands finds.1 fun place member => (finds.2 place).mp member
  refine ⟨visits, next, swept, still, fun place => ?_⟩
  cases left : (next.view place).appendJournal with
  | none => rfl
  | some journal =>
      obtain ⟨before, outside⟩ := remaining place (by rw [appending, left]; rfl)
      exact absurd ((finds.2 place).mpr before) outside

/-- Every series stands, and no append is pending. -/
def Appended (found : List String → Option RawManifest) (normal : List String → SeriesKey)
    (values : List String → Option (List (MarketBar F))) (tree : SegmentTree) : Prop :=
  AllCommitted found normal values tree ∧ ∀ place, (tree.view place).appendJournal = none

theorem AllCommitted.replacementsRecover (names : Names normal) :
    JournalRecovers recoverReplacementJournal replacing (Appended found normal values)
      (AllCommitted found normal values) := by
  rintro tree place ⟨stands, appended⟩ pending
  have home := stands.home_of_replacing names pending
  have contained := (stands.owned place).recoverReplacementJournal
  have committed := stands.committed place home
  obtain ⟨state, ran, sound⟩ := committed.recoverReplacementJournal (appended place) pending
  have here : state.directory = place := (contained.2 _ _ ran).directory
  refine ⟨fun crash visited => ?_, state, ran, here, ?_, ?_, fun other => ?_⟩
  · apply stands.kept (contained.1 crash visited)
    rcases visits_recoverReplacementJournal visited with rfl | inside
    · exact committed
    · exact committed.visited _ inside
  · rw [replacing, sound.sound.quiet.2]
    rfl
  · exact stands.kept (contained.2 _ _ ran) sound.committed
  · by_cases same : other = place
    · rw [same, view_put_self here]
      exact sound.sound.quiet.1
    · rw [view_put_of_ne same]
      exact appended other

/-- The second loop returns as well and leaves no journal at all. -/
theorem AllCommitted.sweepReplacements (stands : AllCommitted found normal values tree) (names : Names normal)
    (appended : ∀ place, (tree.view place).appendJournal = none)
    {places : List (List String)} (finds : Finds replacing tree places) :
    (∀ crash ∈ sweepVisits recoverReplacementJournal places tree, AllCommitted found normal values crash) ∧
      ∃ opened, sweep recoverReplacementJournal places tree = (.ok (), opened) ∧
        AllCommitted found normal values opened ∧ ∀ place, (opened.view place).Quiescent := by
  have recovers : JournalRecovers _ _ (Appended found normal values) _ := AllCommitted.replacementsRecover names
  obtain ⟨visits, opened, swept, ⟨still, last⟩, remaining⟩ := recovers.sweep (fun _ _ => rfl)
    (fun _ good => good.1) ⟨stands, appended⟩ finds.1 fun place member => (finds.2 place).mp member
  refine ⟨visits, opened, swept, still, fun place => ⟨last place, ?_⟩⟩
  cases left : (opened.view place).replaceJournal with
  | none => rfl
  | some journal =>
      obtain ⟨before, outside⟩ := remaining place (by rw [replacing, left]; rfl)
      exact absurd ((finds.2 place).mpr before) outside

/-- An opening that dies loses nothing, and one that ends has recovered every series. -/
theorem AllCommitted.opens (stands : AllCommitted found normal values tree) (names : Names normal)
    {outcome : Option (Except PyError Unit)} (opens : Opens tree outcome after) :
    AllCommitted found normal values after ∧
      ∀ ended, outcome = some ended → ended = .ok () ∧ ∀ place, (after.view place).Quiescent := by
  cases opens with
  | appendDies finds visited =>
      exact ⟨(stands.sweepAppends names finds).1 _ visited, fun _ ended => by cases ended⟩
  | appendFails finds failed =>
      obtain ⟨-, next, swept, -⟩ := stands.sweepAppends names finds
      rw [failed] at swept
      cases swept
  | replaceDies finds swept again visited =>
      obtain ⟨-, next, returned, still, appended⟩ := stands.sweepAppends names finds
      rw [swept] at returned
      cases returned
      exact ⟨(still.sweepReplacements names appended again).1 _ visited, fun _ ended => by cases ended⟩
  | ends finds swept again ended =>
      obtain ⟨-, next, returned, still, appended⟩ := stands.sweepAppends names finds
      rw [swept] at returned
      cases returned
      obtain ⟨-, opened, returned, last, quiet⟩ := still.sweepReplacements names appended again
      rw [ended] at returned
      cases returned
      refine ⟨last, ?_⟩
      rintro _ ⟨⟩
      exact ⟨rfl, quiet⟩

/-- What happens to a store: an exclusive task on one of its series, or an opening. -/
inductive StoreTask (F : Type) [PyFloat F] (normal : List String → SeriesKey) where
  | series (place : List String) (home : seriesDirectory (normal place) = .ok place)
      (task : SeriesTask F (normal place)) (exclusive : (seriesTasks F (normal place)).access task = .exclusive)
  | opening

/-- A task on a series acts on the bars of its directory alone, and an opening changes nothing and
never fails. -/
def storeEffect (found : List String → Option RawManifest) (normal : List String → SeriesKey) :
    Effect (StoreTask F normal) PyError (SeriesAnswer F) (List String → Option (List (MarketBar F)))
  | .series place _ task _, values, outcome, after =>
      ∃ value, seriesEffect (found place) (normal place) task (values place) outcome value ∧
        after = Function.update values place value
  | .opening, values, outcome, after => after = values ∧ ∀ error, outcome ≠ some (.error error)

/-- Tasks and openings follow one another. Each of them ends or dies anywhere, and whoever comes next finds
what it left. -/
inductive Lives (first : SegmentTree) :
    List (Event (StoreTask F normal) PyError (SeriesAnswer F)) → SegmentTree → Prop where
  | start : Lives first [] first
  | dies {events : List (Event (StoreTask F normal) PyError (SeriesAnswer F))} {tree : SegmentTree}
      {state : SeriesState} {place : List String} (before : Lives first events tree)
      (home : seriesDirectory (normal place) = .ok place) (task : SeriesTask F (normal place))
      (exclusive : (seriesTasks F (normal place)).access task = .exclusive)
      (visited : state ∈ ((seriesTasks F (normal place)).program task).visits (tree.view place)) :
      Lives first (events ++ [⟨.series place home task exclusive, none⟩]) (tree.put place state)
  | ends {events : List (Event (StoreTask F normal) PyError (SeriesAnswer F))} {tree : SegmentTree}
      {place : List String} (before : Lives first events tree)
      (home : seriesDirectory (normal place) = .ok place) (task : SeriesTask F (normal place))
      (exclusive : (seriesTasks F (normal place)).access task = .exclusive) :
      Lives first (events ++ [⟨.series place home task exclusive,
          some (((seriesTasks F (normal place)).program task).run (tree.view place)).1⟩])
        (tree.put place (((seriesTasks F (normal place)).program task).run (tree.view place)).2)
  | opens {events : List (Event (StoreTask F normal) PyError (SeriesAnswer F))} {tree after : SegmentTree}
      {outcome : Option (Except PyError Unit)} (before : Lives first events tree)
      (opened : Opens tree outcome after) :
      Lives first (events ++ [⟨.opening, outcome.map fun ended => ended.map fun _ => .completed⟩]) after

theorem contained_task {origin state : SeriesState} {key : SeriesKey} (contained : Contained origin state)
    {task : SeriesTask F key} (exclusive : (seriesTasks F key).access task = .exclusive) :
    StaysIn origin ((seriesTasks F key).program task) state := by
  cases task with
  | write store op keyed lasting =>
      exact .bind (contained.program store op) fun _ _ kept => .done kept kept
  | recover => exact .bind (contained.recoverSeries _) fun _ _ kept => .done kept kept
  | openAppend => exact .bind contained.recoverAppendJournal fun _ _ kept => .done kept kept
  | openReplace => exact .bind contained.recoverReplacementJournal fun _ _ kept => .done kept kept
  | read store read => cases exclusive

/-- The bars after a life are those that its tasks make one after the other, each of them on its own
series, completely or not at all. -/
theorem Lives.stands {first last : SegmentTree}
    {events : List (Event (StoreTask F normal) PyError (SeriesAnswer F))}
    (lives : Lives first events last) (names : Names normal) (stands : AllCommitted found normal values first) :
    ∃ after, Atomic (storeEffect found normal) values events after ∧ AllCommitted found normal after last := by
  induction lives with
  | start => exact ⟨values, .start, stands⟩
  | dies before home task exclusive visited ih =>
      obtain ⟨current, atomic, standing⟩ := ih
      obtain ⟨value, effect, committed⟩ := (standing.committed _ home).stopped exclusive visited
      have contained := (contained_task (standing.owned _) exclusive).1 _ visited
      exact ⟨_, .acts atomic ⟨value, effect, rfl⟩, standing.put contained committed⟩
  | @ends events tree place before home task exclusive ih =>
      obtain ⟨current, atomic, standing⟩ := ih
      obtain ⟨value, effect, committed⟩ := (standing.committed _ home).ended exclusive
      have contained := (contained_task (standing.owned place) exclusive).1 _ (Prog.final_mem_visits _ _)
      exact ⟨_, .acts atomic ⟨value, effect, rfl⟩, standing.put contained committed⟩
  | opens before opened ih =>
      obtain ⟨current, atomic, standing⟩ := ih
      obtain ⟨still, returned⟩ := standing.opens names opened
      refine ⟨current, .acts atomic ⟨rfl, fun error failed => ?_⟩, still⟩
      obtain ⟨ended, found, mapped⟩ := Option.map_eq_some_iff.mp failed
      obtain ⟨rfl, -⟩ := returned ended found
      cases mapped

end Lives

end SegmentTree

section Store

open SegmentTree (AllCommitted Names Lives StoreTask storeEffect Finds appending replacing sweep)

variable [PyText] {F : Type} [PyFloat F] [Sha256] [Parquet] {found : List String → Option RawManifest}
  {normal : List String → SeriesKey} {values : List String → Option (List (MarketBar F))}

/-- Writers and openings of a whole store, one after the other and dying anywhere: each writer changes its own
series, completely or not at all, and an opening of what they leave returns, in whatever order it finds
the journals, with every series sound at the bars that were written. -/
theorem openings_recover_store (names : Names normal) {first last : SegmentTree}
    {events : List (Event (StoreTask F normal) PyError (SeriesAnswer F))}
    (stands : AllCommitted found normal values first) (lives : Lives first events last) :
    ∃ after, Atomic (storeEffect found normal) values events after ∧
      ∀ places, Finds appending last places →
        ∃ next, sweep recoverAppendJournal places last = (.ok (), next) ∧
          ∀ others, Finds replacing next others →
            ∃ opened, sweep recoverReplacementJournal others next = (.ok (), opened) ∧
              ∀ place, seriesDirectory (normal place) = .ok place →
                SoundAt (found place) (normal place) (after place) (opened.view place) := by
  obtain ⟨after, atomic, standing⟩ := lives.stands names stands
  refine ⟨after, atomic, fun places finds => ?_⟩
  obtain ⟨-, next, swept, still, appended⟩ := standing.sweepAppends names finds
  refine ⟨next, swept, fun others again => ?_⟩
  obtain ⟨-, opened, ended, recovered, quiet⟩ := still.sweepReplacements names appended again
  refine ⟨opened, ended, fun place home => ?_⟩
  exact (recovered.committed place home).sound (quiet place).1 (quiet place).2

end Store

section Witness

open scoped Reference
open Reference
open SegmentTree (AllCommitted Names Lives StoreTask storeEffect Finds appending replacing sweep
  view_put_self view_put_of_ne)

namespace Reference

def candlePlace : List String :=
  ["v1", "exchange=binance", "market=spot", "symbol=BTCUSDT", "source=trade_kline", "timeframe=1m"]

theorem series_placed : seriesDirectory series = .ok candlePlace := eq_ok_of_toOption (by decide +kernel)

/-- Every directory can be given one of its identities, and this one its own. -/
theorem exists_names : ∃ normal : List String → SeriesKey, Names normal ∧ normal candlePlace = series := by
  have each : ∀ place, ∃ key, ∀ other, seriesDirectory other = .ok place → seriesDirectory key = .ok place := by
    intro place
    by_cases placed : ∃ key, seriesDirectory key = .ok place
    · obtain ⟨key, home⟩ := placed
      exact ⟨key, fun _ _ => home⟩
    · exact ⟨series, fun other home => absurd ⟨other, home⟩ placed⟩
  choose named home using each
  refine ⟨fun place => if place = candlePlace then series else named place, ?_, if_pos rfl⟩
  intro key place placed
  dsimp only
  by_cases same : place = candlePlace
  · rw [if_pos same, same]
    exact series_placed
  · rw [if_neg same]
    exact home place key placed

variable {normal : List String → SeriesKey}

theorem candlePlace_home (same : normal candlePlace = series) :
    seriesDirectory (normal candlePlace) = .ok candlePlace := by
  rw [same]
  exact series_placed

theorem candlePlace_keyed (same : normal candlePlace = series) :
    normalizedKey (StoreOp.replaceAll series [candle 0] none).series = .ok (normal candlePlace) := by
  rw [same]
  exact normalizedKey_series

/-- A process writes the candle. -/
def writing (same : normal candlePlace = series) : SeriesTask Whole (normal candlePlace) :=
  .write ⟨.csv, true, false⟩ (.replaceAll series [candle 0] none) (candlePlace_keyed same) given_lasting

theorem writing_exclusive (same : normal candlePlace = series) :
    (seriesTasks Whole (normal candlePlace)).access (writing same) = .exclusive := rfl

/-- An empty store stands for no bars. -/
theorem empty_stands : AllCommitted (F := Whole) (fun _ => none) normal (fun _ => none) .empty := by
  refine ⟨SegmentTree.empty_owned, fun place home => ?_⟩
  have sound : Sound Whole none (normal place) (SegmentTree.empty.view place) :=
    ⟨⟨rfl, rfl⟩, fun _ _ => rfl, fun _ => ⟨fun _ => rfl, rfl⟩, fun _ named => by cases named⟩
  have whole : SoundAt (F := Whole) none (normal place) none (SegmentTree.empty.view place) :=
    ⟨sound, fun _ _ named => (by cases named), rfl⟩
  exact whole.committed

end Reference

/-- A writer dies before it has written, the store is opened, and the next writer ends. -/
theorem openings_recover_store_oneCandle : ∃ normal outcome last after,
    ∃ same : normal candlePlace = series,
      Lives .empty
        [⟨.series candlePlace (candlePlace_home same) (writing same) (writing_exclusive same), none⟩,
          ⟨.opening, some (.ok .completed)⟩,
          ⟨.series candlePlace (candlePlace_home same) (writing same) (writing_exclusive same), some outcome⟩]
        last ∧
      Atomic (storeEffect (fun _ => none) normal) (fun _ => none)
        [⟨.series candlePlace (candlePlace_home same) (writing same) (writing_exclusive same), none⟩,
          ⟨.opening, some (.ok .completed)⟩,
          ⟨.series candlePlace (candlePlace_home same) (writing same) (writing_exclusive same), some outcome⟩]
        after ∧
      ∀ places, Finds appending last places →
        ∃ next, sweep recoverAppendJournal places last = (.ok (), next) ∧
          ∀ others, Finds replacing next others →
            ∃ opened, sweep recoverReplacementJournal others next = (.ok (), opened) ∧
              SoundAt none series (after candlePlace) (opened.view candlePlace) := by
  obtain ⟨normal, names, same⟩ := exists_names
  have died : Lives .empty [⟨.series candlePlace (candlePlace_home same) (writing same)
      (writing_exclusive same), none⟩]
      (SegmentTree.empty.put candlePlace (SegmentTree.empty.view candlePlace)) :=
    .dies .start (candlePlace_home same) (writing same) (writing_exclusive same) (Prog.start_mem_visits _ _)
  have unchanged (place : List String) :
      (SegmentTree.empty.put candlePlace (SegmentTree.empty.view candlePlace)).view place =
        SegmentTree.empty.view place := by
    by_cases here : place = candlePlace
    · rw [here]
      exact view_put_self rfl
    · rw [view_put_of_ne here]
      rfl
  have none_found (pending : SeriesState → Bool)
      (clear : ∀ place, pending (SegmentTree.empty.view place) = false) :
      Finds pending (SegmentTree.empty.put candlePlace (SegmentTree.empty.view candlePlace)) [] := by
    refine ⟨.nil, fun place => ?_⟩
    simp [unchanged, clear]
  have opened := died.opens (.ends (none_found appending fun _ => rfl) rfl (none_found replacing fun _ => rfl) rfl)
  have ended := opened.ends (candlePlace_home same) (writing same) (writing_exclusive same)
  obtain ⟨after, atomic, recovers⟩ := openings_recover_store names empty_stands ended
  refine ⟨normal, _, _, after, same, ended, atomic, fun places finds => ?_⟩
  obtain ⟨next, swept, again⟩ := recovers places finds
  refine ⟨next, swept, fun others found => ?_⟩
  obtain ⟨last, returned, sound⟩ := again others found
  have here := sound candlePlace (candlePlace_home same)
  rw [same] at here
  exact ⟨last, returned, here⟩

end Witness

end MarketdataProvider
