import MarketdataProvider.Store.SeriesIsolation

namespace MarketdataProvider

open Foundation Foundation.Crash

/-- The data format that the manifest on disk names. -/
def SeriesState.visibleFormat (state : SeriesState) : Option SegmentFormat :=
  state.manifest.map fun raw => raw.toManifest.dataFormat

def SeriesState.HasBars (state : SeriesState) (format : SegmentFormat) : Prop :=
  state.file (.bars format) ≠ none

theorem SeriesState.hasBars_of_unlinkData {state : SeriesState} {name : DataName}
    {format : SegmentFormat} (present : (state.unlinkData name).HasBars format) :
    state.HasBars format ∧ name ≠ .bars format := by
  by_cases same : DataName.bars format = name
  · subst same
    exact absurd (state.file_unlinkData_self _) present
  · rw [HasBars, state.file_unlinkData_of_ne same] at present
    exact ⟨present, fun equal => same equal.symm⟩

theorem SeriesState.HasBars.unlinkData {state : SeriesState} {name : DataName} {format : SegmentFormat}
    (present : state.HasBars format) (other : name ≠ .bars format) :
    (state.unlinkData name).HasBars format := by
  rw [HasBars, state.file_unlinkData_of_ne other.symm]
  exact present

theorem SeriesState.hasBars_rewriteData {state : SeriesState} (name : DataName)
    (change : List UInt8 → List UInt8) (format : SegmentFormat) :
    (state.rewriteData name change).HasBars format ↔ state.HasBars format := by
  simp only [HasBars, file, rewriteData, Directory.lookup, Directory.entry_rewrite, ne_eq,
    Option.map_eq_none_iff]

section Tidy

variable [PyText] {place : List String} {state after : SeriesState}

/-- While a replacement is pending, a data file belongs to the old or to the new generation, and the
manifest on disk is that of the new one or names the format of the old one. -/
structure Replacing (state : SeriesState) (journal : ReplaceJournal) : Prop where
  valid : validatedJournal state = .ok journal
  insertable : journal.newManifest.Insertable
  framed : ∀ format, state.HasBars format →
    some format = some journal.newManifest.dataFormat ∨
      some format = journal.oldManifest.map SegmentManifest.dataFormat
  visible : state.manifest = some journal.newManifest.asdict ∨
    state.visibleFormat = journal.oldManifest.map SegmentManifest.dataFormat

/-- What every crash leaves behind: the manifest on disk has its data file, a further data file is
there only while a replacement is pending, and two journals are never pending together. -/
structure Tidy (place : List String) (state : SeriesState) : Prop where
  directory : state.directory = place
  backed : ∀ format, state.visibleFormat = some format → state.HasBars format
  settled : state.replaceJournal = none →
    ∀ format, state.HasBars format → state.visibleFormat = some format
  appending : ∀ journal, state.appendJournal = some journal →
    state.replaceJournal = none ∧ state.visibleFormat = some .csv ∧
      journal.oldManifest.dataFormat = .csv ∧ journal.newManifest.dataFormat = .csv
  replacing : ∀ journal, state.replaceJournal = some journal → Replacing state journal

/-- The programs that leave a tidy series at each of their crash points. -/
abbrev StaysTidy {Value : Type} (place : List String) (final : SeriesState → Prop)
    (program : StoreProg Value) (state : SeriesState) : Prop :=
  Prog.Keeps (Tidy place) (fun _ after => Tidy place after ∧ final after) program state

theorem tidy_empty (place : List String) : Tidy place (.empty place) := by
  refine ⟨rfl, ?_, ?_, ?_, ?_⟩
  · intro _ named
    cases named
  · intro _ format present
    exact absurd rfl present
  · intro _ named
    cases named
  · intro _ named
    cases named

/-- Only the presence of the data files, the manifest and the journals matter. -/
theorem Tidy.congr (tidy : Tidy place state) (directory : after.directory = state.directory)
    (manifest : after.manifest = state.manifest) (append : after.appendJournal = state.appendJournal)
    (replace : after.replaceJournal = state.replaceJournal)
    (bars : ∀ format, after.HasBars format ↔ state.HasBars format) : Tidy place after := by
  have visible : after.visibleFormat = state.visibleFormat := by
    rw [SeriesState.visibleFormat, manifest]
    rfl
  have valid : validatedJournal after = validatedJournal state := by
    rw [validatedJournal, replace, directory]
    rfl
  refine ⟨directory.trans tidy.directory, ?_, ?_, ?_, ?_⟩
  · intro format named
    exact (bars format).mpr (tidy.backed format (visible ▸ named))
  · intro quiet format present
    rw [visible]
    exact tidy.settled (replace ▸ quiet) format ((bars format).mp present)
  · intro journal named
    rw [replace, visible]
    exact tidy.appending journal (append ▸ named)
  · intro journal named
    obtain ⟨accepted, insertable, framed, shown⟩ := tidy.replacing journal (replace ▸ named)
    refine ⟨valid.trans accepted, insertable, ?_, ?_⟩
    · intro format present
      exact framed format ((bars format).mp present)
    · rw [manifest, visible]
      exact shown

theorem Tidy.withIndex (tidy : Tidy place state) (index : List IndexRow) :
    Tidy place { state with index } :=
  tidy.congr rfl rfl rfl rfl fun _ => Iff.rfl

theorem Tidy.withGeneration (tidy : Tidy place state) (generation : Option IntegrityGeneration) :
    Tidy place { state with generation } :=
  tidy.congr rfl rfl rfl rfl fun _ => Iff.rfl

theorem Tidy.onlyRead (tidy : Tidy place state) (read : OnlyRead state after) : Tidy place after := by
  rw [read]
  exact tidy.withGeneration after.generation

theorem Tidy.rewriteData (tidy : Tidy place state) (name : DataName)
    (change : List UInt8 → List UInt8) : Tidy place (state.rewriteData name change) :=
  tidy.congr rfl rfl rfl rfl fun format => SeriesState.hasBars_rewriteData name change format

/-- Every file but the one of the visible manifest can go. -/
theorem Tidy.unlinkData (tidy : Tidy place state) {name : DataName}
    (other : ∀ format, state.visibleFormat = some format → name ≠ .bars format) :
    Tidy place (state.unlinkData name) := by
  have same : (state.unlinkData name).visibleFormat = state.visibleFormat := rfl
  refine ⟨tidy.directory, ?_, ?_, ?_, ?_⟩
  · intro format named
    exact (tidy.backed format named).unlinkData (other format named)
  · intro quiet format present
    exact tidy.settled quiet format (SeriesState.hasBars_of_unlinkData present).1
  · intro journal named
    exact tidy.appending journal named
  · intro journal named
    obtain ⟨valid, insertable, framed, visible⟩ := tidy.replacing journal named
    refine ⟨valid, insertable, ?_, visible⟩
    intro format present
    exact framed format (SeriesState.hasBars_of_unlinkData present).1

/-- Files that are no data files come and go. -/
theorem Tidy.withBackups (tidy : Tidy place state) (files : Directory DataName StoredFile) (clock : Nat)
    (bars : ∀ format, files.lookup (.bars format) = state.files.lookup (.bars format)) :
    Tidy place { state with files, clock } := by
  refine tidy.congr rfl rfl rfl rfl fun format => ?_
  rw [SeriesState.HasBars, SeriesState.HasBars, SeriesState.file, SeriesState.file, bars format]

theorem Tidy.withoutAppendJournal (tidy : Tidy place state) :
    Tidy place { state with appendJournal := none } :=
  ⟨tidy.directory, tidy.backed, tidy.settled, fun _ named => (by cases named), fun journal named =>
    ⟨(tidy.replacing journal named).valid, (tidy.replacing journal named).insertable,
      (tidy.replacing journal named).framed, (tidy.replacing journal named).visible⟩⟩

/-- A pending replacement shows either manifest, as soon as its data file is there. -/
theorem Tidy.showManifest (tidy : Tidy place state) {journal : ReplaceJournal}
    (pending : state.replaceJournal = some journal) (manifest : Option RawManifest)
    (shown : manifest = some journal.newManifest.asdict ∨
      (manifest.map fun raw => raw.toManifest.dataFormat) =
        journal.oldManifest.map SegmentManifest.dataFormat)
    (backed : ∀ raw, manifest = some raw → state.HasBars raw.toManifest.dataFormat) :
    Tidy place { state with manifest } := by
  refine ⟨tidy.directory, ?_, ?_, ?_, ?_⟩
  · intro format named
    obtain ⟨raw, found, rfl⟩ := Option.map_eq_some_iff.mp named
    exact backed raw found
  · intro quiet
    rw [show state.replaceJournal = none from quiet] at pending
    cases pending
  · intro other named
    have quiet := (tidy.appending other named).1
    rw [pending] at quiet
    cases quiet
  · intro other named
    obtain rfl := Option.some.inj (pending.symm.trans named)
    obtain ⟨valid, insertable, framed, -⟩ := tidy.replacing journal pending
    exact ⟨valid, insertable, framed, shown⟩

/-- An append keeps the format. -/
theorem Tidy.extendManifest (tidy : Tidy place state) {journal : AppendJournal}
    (pending : state.appendJournal = some journal) {manifest : SegmentManifest}
    (csv : manifest.dataFormat = .csv) :
    Tidy place { state with manifest := some manifest.asdict } := by
  obtain ⟨quiet, visible, -⟩ := tidy.appending journal pending
  have same : ({ state with manifest := some manifest.asdict } : SeriesState).visibleFormat =
      state.visibleFormat := by
    rw [visible, SeriesState.visibleFormat, Option.map_some, toManifest_asdict, csv]
  refine ⟨tidy.directory, ?_, ?_, ?_, ?_⟩
  · rw [same]
    exact tidy.backed
  · rw [same]
    exact tidy.settled
  · rw [same]
    exact tidy.appending
  · intro other named
    rw [show state.replaceJournal = some other from named] at quiet
    cases quiet

/-- A step of a replacement: manifest and journals stay, and no data file comes. -/
structure Steady (state after : SeriesState) : Prop where
  manifest : after.manifest = state.manifest
  replaceJournal : after.replaceJournal = state.replaceJournal
  appendJournal : after.appendJournal = state.appendJournal
  bars : ∀ format, after.HasBars format → state.HasBars format

omit [PyText] in
theorem Steady.refl (state : SeriesState) : Steady state state := ⟨rfl, rfl, rfl, fun _ => id⟩

omit [PyText] in
theorem Steady.trans {last : SeriesState} (first : Steady state after) (second : Steady after last) :
    Steady state last :=
  ⟨second.manifest.trans first.manifest, second.replaceJournal.trans first.replaceJournal,
    second.appendJournal.trans first.appendJournal,
    fun format present => first.bars format (second.bars format present)⟩

omit [PyText] in
theorem Steady.visibleFormat (steady : Steady state after) :
    after.visibleFormat = state.visibleFormat := by
  rw [SeriesState.visibleFormat, steady.manifest]
  rfl

omit [PyText] in
theorem steady_unlinkData (state : SeriesState) (name : DataName) :
    Steady state (state.unlinkData name) :=
  ⟨rfl, rfl, rfl, fun _ present => (SeriesState.hasBars_of_unlinkData present).1⟩

theorem Tidy.unlinkOptional (tidy : Tidy place state) (name : Option DataName)
    (other : ∀ format, state.visibleFormat = some format → name ≠ some (.bars format)) :
    StaysTidy place (Steady state) (unlinkOptional name) state := by
  cases name with
  | none => exact .done tidy ⟨tidy, .refl state⟩
  | some name =>
      have after : Tidy place (state.unlinkData name) :=
        tidy.unlinkData fun format named same => other format named (congrArg some same)
      exact .step tidy (.done after ⟨after, steady_unlinkData state name⟩)

theorem Tidy.replaceIndexManifest (tidy : Tidy place state) (manifest : SegmentManifest)
    (downloadedAt : Int) :
    StaysTidy place (Steady state) (replaceIndexManifest manifest downloadedAt) state := by
  refine .ofExcept tidy fun rows _ => .step tidy ?_
  have after := tidy.withIndex (state.replaceIndex manifest.key rows).index
  exact .done after ⟨after, rfl, rfl, rfl, fun _ => id⟩

theorem Tidy.publishIntegrityGeneration (tidy : Tidy place state) (manifest : SegmentManifest) :
    StaysTidy place (Steady state) (publishIntegrityGeneration manifest) state := by
  refine .read tidy (.ofExcept tidy fun payload _ => .step tidy ?_)
  have after := tidy.withGeneration (some payload)
  exact .done after ⟨after, rfl, rfl, rfl, fun _ => id⟩

/-- Without the journal a series is tidy when only the visible data file is left. -/
theorem Tidy.withoutReplaceJournal (tidy : Tidy place state)
    (single : ∀ format, state.HasBars format → state.visibleFormat = some format) :
    Tidy place { state with replaceJournal := none } := by
  refine ⟨tidy.directory, tidy.backed, fun _ => single, ?_, fun _ named => (by cases named)⟩
  intro journal named
  exact ⟨rfl, (tidy.appending journal named).2⟩

/-- The end of a replacement: the journal goes, and no other one has come. -/
def Settled (state after : SeriesState) : Prop :=
  after.replaceJournal = none ∧ after.appendJournal = state.appendJournal

theorem Tidy.dropReplaceJournal (tidy : Tidy place after)
    (append : after.appendJournal = state.appendJournal)
    (single : ∀ format, after.HasBars format → after.visibleFormat = some format) :
    StaysTidy place (Settled state)
      (Prog.modify fun state : SeriesState => { state with replaceJournal := none }) after := by
  have last := tidy.withoutReplaceJournal single
  exact .step tidy (.done last ⟨last, rfl, append⟩)

/-- A published generation is finished by removing every other data file. -/
theorem Tidy.finishReplacement (tidy : Tidy place state) {journal : ReplaceJournal}
    (pending : state.replaceJournal = some journal)
    (shown : state.manifest = some journal.newManifest.asdict) :
    StaysTidy place (Settled state) finishReplacement state := by
  obtain ⟨valid, -, framed, -⟩ := tidy.replacing journal pending
  obtain ⟨newName, oldName⟩ := validatedJournal_names valid
  have visible : state.visibleFormat = some journal.newManifest.dataFormat := by
    rw [SeriesState.visibleFormat, shown, Option.map_some, toManifest_asdict]
  refine .read tidy (.ofExcept tidy fun found same => ?_)
  obtain rfl := Except.ok.inj (valid.symm.trans same)
  have superseded : StaysTidy place (Steady state) (unlinkSuperseded journal) state := by
    unfold unlinkSuperseded
    split
    · exact .done tidy ⟨tidy, .refl state⟩
    · rename_i differs
      refine tidy.unlinkOptional _ fun format named equal => differs ?_
      rw [visible] at named
      obtain ⟨old, found, same⟩ := Option.map_eq_some_iff.mp equal
      cases same
      rw [found, newName, named]
  refine .bind superseded ?_
  rintro _ unlinked ⟨tidied, first⟩
  have published : StaysTidy place (Steady unlinked) (publishReplacement journal) unlinked := by
    unfold publishReplacement
    split
    · exact tidied.publishIntegrityGeneration _
    · exact .done tidied ⟨tidied, .refl unlinked⟩
  refine .bind published ?_
  rintro _ current ⟨again, second⟩
  have steady := first.trans second
  have shows : current.visibleFormat = some journal.newManifest.dataFormat :=
    steady.visibleFormat.trans visible
  have cleared : Tidy place (current.unlinkData (.bars (otherFormat journal.newDataName))) := by
    apply again.unlinkData
    intro format named equal
    rw [shows, Option.some.injEq] at named
    rw [newName, ← named, DataName.bars.injEq] at equal
    exact otherFormat_ne _ equal.symm
  refine .modify again (.bind (cleared.unlinkOptional _ ?_) ?_)
  · intro format _ equal
    obtain ⟨_, _, same⟩ := Option.map_eq_some_iff.mp equal
    cases same
  · rintro _ last ⟨final, third⟩
    refine final.dropReplaceJournal (third.appendJournal.trans steady.appendJournal) ?_
    intro format present
    obtain ⟨_, kept⟩ := SeriesState.hasBars_of_unlinkData (third.bars format present)
    rw [third.visibleFormat]
    refine shows.trans (congrArg some ?_)
    rw [← newName]
    exact (eq_of_ne_otherFormat fun same => kept (congrArg _ same.symm)).symm

/-- The end of a rollback: the old manifest names the only data file that is left. -/
structure Restored (journal : ReplaceJournal) (state after : SeriesState) : Prop where
  replaceJournal : after.replaceJournal = some journal
  appendJournal : after.appendJournal = state.appendJournal
  visible : after.visibleFormat = journal.oldManifest.map SegmentManifest.dataFormat
  single : ∀ format, after.HasBars format →
    journal.oldManifest.map SegmentManifest.dataFormat = some format

/-- The old data file is never given up before the new one, so that the backup brings nothing new. -/
theorem Tidy.restoreBackup (tidy : Tidy place state) {journal : ReplaceJournal} {old : SegmentManifest}
    (names : journal.oldDataName = some old.dataFormat) (present : state.HasBars old.dataFormat) :
    StaysTidy place (Steady state) (restoreBackup journal) state := by
  refine .read tidy ?_
  split
  · rename_i backup oldData _ named
    obtain rfl := Option.some.inj (named.symm.trans names)
    split
    · rename_i copied
      have bars (format : SegmentFormat) :
          (state.renameData (.backup backup) (.bars old.dataFormat)).HasBars format ↔
            state.HasBars format := by
        by_cases same : format = old.dataFormat
        · subst same
          refine ⟨fun _ => present, fun _ => ?_⟩
          obtain ⟨found, file⟩ := Option.isSome_iff_exists.mp
            (by simpa [SeriesState.data] using copied :
              (state.file (.backup backup)).isSome = true)
          rw [SeriesState.HasBars, state.file_renameData_target file]
          simp
        · rw [SeriesState.HasBars, state.file_renameData_of_ne (by simp) (by simpa using same)]
          rfl
      have after : Tidy place (state.renameData (.backup backup) (.bars old.dataFormat)) :=
        tidy.congr rfl rfl rfl rfl bars
      exact .step tidy (.done after ⟨after, rfl, rfl, rfl, fun format => (bars format).mp⟩)
    · exact .done tidy ⟨tidy, .refl state⟩
  · exact .done tidy ⟨tidy, .refl state⟩

theorem Tidy.restoreGeneration (tidy : Tidy place state) {journal : ReplaceJournal}
    (pending : state.replaceJournal = some journal)
    (hidden : state.visibleFormat = journal.oldManifest.map SegmentManifest.dataFormat) :
    StaysTidy place (Restored journal state) (restoreGeneration journal) state := by
  obtain ⟨valid, -, framed, -⟩ := tidy.replacing journal pending
  obtain ⟨newName, oldName⟩ := validatedJournal_names valid
  rw [MarketdataProvider.restoreGeneration]
  cases first : journal.oldManifest with
  | none =>
      rw [first] at hidden framed oldName
      have unlinked : Tidy place (state.unlinkData (.bars journal.newDataName)) :=
        tidy.unlinkData fun format named => (by rw [hidden] at named; cases named)
      have bare := unlinked.showManifest pending none (.inr (by rw [first]; rfl))
        fun _ named => (by cases named)
      have last := bare.withIndex
        (SeriesState.replaceIndex { state.unlinkData (.bars journal.newDataName) with manifest := none }
          journal.newManifest.key []).index
      refine .modify tidy (.modify unlinked (.step bare (.done last ⟨last, pending, rfl, ?_, ?_⟩)))
      · rw [first]
        rfl
      · intro format present
        obtain ⟨before, other⟩ := SeriesState.hasBars_of_unlinkData present
        rcases framed format before with new | old
        · refine absurd ?_ other
          rw [newName, Option.some.inj new]
        · cases old
  | some old =>
      rw [first, Option.map_some] at hidden oldName
      simp only [first, Option.map_some] at framed
      have present := tidy.backed old.dataFormat hidden
      refine .bind (tidy.restoreBackup oldName present) ?_
      rintro _ backed ⟨inside, restored⟩
      have still : backed.visibleFormat = some old.dataFormat :=
        restored.visibleFormat.trans hidden
      refine .read inside ?_
      split
      · exact .fail inside
      · have unlinks : StaysTidy place (fun after => Steady backed after ∧
            ∀ format, after.HasBars format → format = old.dataFormat)
            (unlinkReplacing journal) backed := by
          unfold unlinkReplacing
          split
          · rename_i same
            refine .done inside ⟨inside, .refl backed, fun format found => ?_⟩
            rw [newName, oldName, Option.some.injEq] at same
            rcases framed format (restored.bars format found) with new | own
            · rw [Option.some.inj new, same]
            · exact Option.some.inj own
          · rename_i differs
            have after : Tidy place (backed.unlinkData (.bars journal.newDataName)) := by
              apply inside.unlinkData
              intro format named equal
              rw [still] at named
              rw [oldName, DataName.bars.inj equal, named] at differs
              exact differs rfl
            refine .step inside (.done after ⟨after, steady_unlinkData _ _, fun format found => ?_⟩)
            obtain ⟨before, other⟩ := SeriesState.hasBars_of_unlinkData found
            rcases framed format (restored.bars format before) with new | own
            · refine absurd ?_ other
              rw [newName, Option.some.inj new]
            · exact Option.some.inj own
        refine .bind unlinks ?_
        rintro _ unlinked ⟨tidied, steady, single⟩
        have both := restored.trans steady
        have written : Tidy place { unlinked with manifest := some old.asdict } := by
          refine tidied.showManifest (both.replaceJournal.trans pending) _ (.inr ?_) ?_
          · rw [first]
            rfl
          · rintro raw ⟨⟩
            exact tidied.backed _ (both.visibleFormat.trans hidden)
        refine .modify tidied ((written.replaceIndexManifest old _).weaken (fun _ => id) ?_)
        rintro _ last ⟨final, indexed⟩
        refine ⟨final, indexed.replaceJournal.trans (both.replaceJournal.trans pending),
          indexed.appendJournal.trans both.appendJournal, ?_, fun format found => ?_⟩
        · rw [indexed.visibleFormat, first]
          rfl
        · rw [first, single format (indexed.bars format found)]
          rfl

/-- A pending journal shows the new manifest with its data, or else the format of the old one. -/
theorem Tidy.recoverReplacementJournal (tidy : Tidy place state) {journal : ReplaceJournal}
    (pending : state.replaceJournal = some journal) :
    StaysTidy place (Settled state) recoverReplacementJournal state := by
  obtain ⟨valid, -, -, visible⟩ := tidy.replacing journal pending
  obtain ⟨newName, -⟩ := validatedJournal_names valid
  refine .read tidy (.ofExcept tidy fun found same => ?_)
  obtain rfl := Except.ok.inj (valid.symm.trans same)
  split
  · rename_i committed
    refine .bind (tidy.replaceIndexManifest journal.newManifest _) ?_
    rintro _ indexed ⟨inside, steady⟩
    have shown : state.manifest = some journal.newManifest.asdict := by
      simp only [replacementCommitted, Bool.and_eq_true, decide_eq_true_eq] at committed
      exact committed.1
    refine (inside.finishReplacement (steady.replaceJournal.trans pending)
      (steady.manifest.trans shown)).weaken (fun _ => id) ?_
    rintro _ last ⟨final, settled⟩
    exact ⟨final, settled.1, settled.2.trans steady.appendJournal⟩
  · rename_i uncommitted
    have hidden : state.visibleFormat = journal.oldManifest.map SegmentManifest.dataFormat := by
      refine visible.resolve_left fun shown => uncommitted ?_
      have named : state.visibleFormat = some journal.newManifest.dataFormat := by
        rw [SeriesState.visibleFormat, shown, Option.map_some, toManifest_asdict]
      obtain ⟨file, found⟩ := Option.ne_none_iff_exists'.mp (tidy.backed _ named)
      simp [replacementCommitted, shown, newName, SeriesState.data, found]
    refine .bind (tidy.restoreGeneration pending hidden) ?_
    rintro _ restored ⟨inside, done⟩
    refine .bind (inside.unlinkOptional _ ?_) ?_
    · intro format _ equal
      obtain ⟨_, _, same⟩ := Option.map_eq_some_iff.mp equal
      cases same
    · rintro _ last ⟨final, steady⟩
      refine final.dropReplaceJournal (steady.appendJournal.trans done.appendJournal) ?_
      intro format present
      rw [steady.visibleFormat, done.visible]
      exact done.single format (steady.bars format present)

theorem Tidy.recoverPendingReplacement (tidy : Tidy place state) :
    StaysTidy place (Settled state) recoverPendingReplacement state := by
  refine .read tidy ?_
  cases pending : state.replaceJournal with
  | none => exact .done tidy ⟨tidy, pending, rfl⟩
  | some journal => exact tidy.recoverReplacementJournal pending

/-- Recovering an append cuts the file or keeps it, and names the same format. -/
theorem Tidy.recoverPendingAppend (tidy : Tidy place state) :
    StaysTidy place (fun after => after.appendJournal = none ∧
      after.replaceJournal = state.replaceJournal) recoverPendingAppend state := by
  have drops (last : SeriesState) (final : Tidy place last)
      (replace : last.replaceJournal = state.replaceJournal) :
      StaysTidy place (fun after => after.appendJournal = none ∧
        after.replaceJournal = state.replaceJournal)
        (Prog.modify fun state : SeriesState => { state with appendJournal := none }) last :=
    .step final (.done final.withoutAppendJournal ⟨final.withoutAppendJournal, rfl, replace⟩)
  refine .read tidy ?_
  cases pending : state.appendJournal with
  | none => exact .done tidy ⟨tidy, pending, rfl⟩
  | some journal =>
      refine .read tidy ?_
      split
      · exact .fail tidy
      · exact .fail tidy
      · rename_i found bytes named _
        obtain rfl := Option.some.inj (pending.symm.trans named)
        obtain ⟨_, _, old, _⟩ := tidy.appending journal pending
        split
        · exact .fail tidy
        · split
          · refine .bind (tidy.replaceIndexManifest _ _) ?_
            rintro _ last ⟨final, steady⟩
            exact drops last final steady.replaceJournal
          · have cut := tidy.rewriteData (.bars .csv) (·.take journal.dataSizeBefore)
            refine .modify tidy (.read cut ?_)
            have written := cut.extendManifest pending old
            refine .bind (.modify cut (written.replaceIndexManifest _ _)) ?_
            rintro _ last ⟨final, steady⟩
            exact drops last final steady.replaceJournal

theorem Tidy.recoverSeries (tidy : Tidy place state) (entry : RecoveryEntry) :
    StaysTidy place SeriesState.Quiescent (recoverSeries entry) state := by
  cases entry with
  | constructor =>
      refine .bind tidy.recoverPendingAppend ?_
      rintro _ middle ⟨inside, append, -⟩
      refine inside.recoverPendingReplacement.weaken (fun _ => id) ?_
      rintro _ last ⟨final, replace, same⟩
      exact ⟨final, same.trans append, replace⟩
  | seriesLock =>
      refine .bind tidy.recoverPendingReplacement ?_
      rintro _ middle ⟨inside, replace, -⟩
      refine inside.recoverPendingAppend.weaken (fun _ => id) ?_
      rintro _ last ⟨final, append, same⟩
      exact ⟨final, append, same.trans replace⟩

/-- A backup is no data file. -/
theorem Tidy.backUpOptional (tidy : Tidy place state) (store : SegmentStore)
    (backupName : Option SegmentFormat) :
    StaysTidy place (Steady state) (backUpOptional store backupName) state := by
  cases backupName with
  | none => exact .done tidy ⟨tidy, .refl state⟩
  | some format =>
      have keeps (files : Directory DataName StoredFile) (clock : Nat)
          (bars : ∀ format, files.lookup (.bars format) = state.files.lookup (.bars format)) :
          Tidy place { state with files, clock } ∧ Steady state { state with files, clock } :=
        ⟨tidy.withBackups files clock bars, rfl, rfl, rfl, fun format present => by
          rw [SeriesState.HasBars, SeriesState.file, bars format] at present
          exact present⟩
      have cleared (other : SegmentFormat) : (state.files.unlink (.backup format)).lookup (.bars other) =
          state.files.lookup (.bars other) := Directory.lookup_unlink_of_ne _ (by simp)
      refine .modify tidy ?_
      split
      · have linked := keeps ((state.files.unlink (.backup format)).link (.bars format) (.backup format))
          state.clock fun other => (Directory.lookup_link_of_ne _ _ (by simp)).trans (cleared other)
        exact .step (keeps _ state.clock cleared).1 (.done linked.1 linked)
      · refine .step (keeps _ state.clock cleared).1 ?_
        split
        · have unlinked := keeps _ state.clock cleared
          exact .done unlinked.1 unlinked
        · rename_i bytes _
          have copied := keeps ((state.files.unlink (.backup format)).create (.backup format)
            ⟨bytes, state.clock⟩) (state.clock + 1)
            fun other => (Directory.lookup_create_of_ne _ _ (by simp)).trans (cleared other)
          exact .done copied.1 copied

omit [PyText] in
theorem backupFormat_eq_some {old : Option SegmentManifest} {format : SegmentFormat}
    (backup : backupFormat state old = some format) :
    old.map SegmentManifest.dataFormat = some format := by
  simp only [backupFormat, Option.filter_eq_some_iff] at backup
  exact backup.1

/-- The journal that `begin_replacement` has checked is valid. -/
theorem validatedJournal_replaceJournalOf {old : Option SegmentManifest} {new : SegmentManifest}
    {origin : SeriesState} {downloadedAt : Int}
    (identity : validateManifestIdentity old new = .ok ())
    (path : validateJournalPath after.directory new = .ok ())
    (named : after.replaceJournal =
      some (replaceJournalOf state old new (backupFormat origin old) downloadedAt)) :
    validatedJournal after =
      .ok (replaceJournalOf state old new (backupFormat origin old) downloadedAt) := by
  have backup : ¬((backupFormat origin old).isSome = true ∧
      backupFormat origin old ≠ old.map SegmentManifest.dataFormat) := by
    rintro ⟨present, differs⟩
    obtain ⟨format, found⟩ := Option.isSome_iff_exists.mp present
    exact differs (found.trans (backupFormat_eq_some found).symm)
  simp only [validatedJournal, named, replaceJournalOf, identity, path, ok_bind, ne_eq,
    not_true_eq_false, if_false]
  exact if_neg backup

theorem Tidy.beginReplacement (tidy : Tidy place state) (quiet : state.Quiescent) (store : SegmentStore)
    {new : SegmentManifest} (insertable : new.Insertable) (downloadedAt : Int) :
    StaysTidy place (fun after => after.appendJournal = none ∧
        ∃ journal, after.replaceJournal = some journal ∧ journal.newManifest = new)
      (beginReplacement store (state.manifest.map RawManifest.toManifest) new downloadedAt) state := by
  refine .read tidy (.ofExcept tidy fun _ identity => .ofExcept tidy fun _ path => ?_)
  have looked : StaysTidy place (· = state) MarketdataProvider.recoverPendingReplacement state := by
    refine .read tidy ?_
    rw [quiet.2]
    exact .done tidy ⟨tidy, rfl⟩
  refine .bind looked ?_
  rintro _ recovered ⟨-, rfl⟩
  refine .read tidy (.bind (tidy.backUpOptional store _) ?_)
  rintro _ backed ⟨inside, steady⟩
  have formats : (recovered.manifest.map RawManifest.toManifest).map SegmentManifest.dataFormat =
      recovered.visibleFormat := by
    rw [Option.map_map]
    rfl
  refine .read inside (.step inside ?_)
  have after : Tidy place { backed with
      replaceJournal := some (replaceJournalOf backed (recovered.manifest.map RawManifest.toManifest)
        new (backupFormat recovered (recovered.manifest.map RawManifest.toManifest)) downloadedAt) } := by
    refine ⟨inside.directory, inside.backed, fun absent => (by cases absent), ?_, ?_⟩
    · intro journal named
      have absent : backed.appendJournal = none := steady.appendJournal.trans quiet.1
      rw [show backed.appendJournal = some journal from named] at absent
      cases absent
    · rintro journal ⟨⟩
      refine ⟨validatedJournal_replaceJournalOf identity ?_ rfl, insertable, ?_, .inr ?_⟩
      · have here : backed.directory = recovered.directory :=
          inside.directory.trans tidy.directory.symm
        exact here.symm ▸ path
      · intro format present
        refine .inr ?_
        rw [replaceJournalOf, formats]
        exact (tidy.settled quiet.2 format (steady.bars format present)).symm
      · exact steady.visibleFormat.trans formats.symm
  exact .done after ⟨after, steady.appendJournal.trans quiet.1, _, rfl, rfl⟩

omit [PyText] in
theorem SeriesState.hasBars_createData {state : SeriesState} {format other : SegmentFormat}
    {bytes : List UInt8} :
    (state.createData (.bars format) bytes).HasBars other ↔ other = format ∨ state.HasBars other := by
  by_cases same : other = format
  · subst same
    simp [HasBars]
  · rw [HasBars, state.file_createData_of_ne bytes (by simpa using same)]
    simp [HasBars, same]

theorem Tidy.commitReplacement (tidy : Tidy place state) (quiet : state.Quiescent)
    (store : SegmentStore) {new : SegmentManifest} (insertable : new.Insertable)
    (content : Except PyError (List UInt8)) (downloadedAt : Int) :
    StaysTidy place SeriesState.Quiescent (commitReplacement store new content downloadedAt) state := by
  refine .read tidy (.bind (tidy.beginReplacement quiet store insertable downloadedAt) ?_)
  rintro _ begun ⟨inside, append, journal, pending, rfl⟩
  refine .ofExcept inside fun bytes _ => .modify inside ?_
  have created : Tidy place (begun.createData (.bars journal.newManifest.dataFormat) bytes) := by
    obtain ⟨valid, _, framed, visible⟩ := inside.replacing journal pending
    refine ⟨inside.directory, ?_, ?_, ?_, ?_⟩
    · intro format named
      exact SeriesState.hasBars_createData.mpr (.inr (inside.backed format named))
    · intro absent
      rw [show begun.replaceJournal = none from absent] at pending
      cases pending
    · intro other named
      rw [show begun.appendJournal = some other from named] at append
      cases append
    · intro other named
      obtain rfl := Option.some.inj (pending.symm.trans named)
      refine ⟨valid, insertable, ?_, visible⟩
      intro format present
      rcases SeriesState.hasBars_createData.mp present with same | before
      · exact .inl (congrArg some same)
      · exact framed format before
  have written := created.showManifest pending (some journal.newManifest.asdict) (.inl rfl) <| by
    rintro _ ⟨⟩
    exact SeriesState.hasBars_createData.mpr (.inl rfl)
  refine .modify created (.bind (written.replaceIndexManifest _ _) ?_)
  rintro _ indexed ⟨kept, steady⟩
  refine .bind (kept.finishReplacement (steady.replaceJournal.trans pending) steady.manifest) ?_
  rintro _ last ⟨final, replace, same⟩
  exact .done final ⟨final, same.trans (steady.appendJournal.trans append), replace⟩

theorem Tidy.runPlan (tidy : Tidy place state) (quiet : state.Quiescent) (store : SegmentStore)
    {plan : Except PyError ReplacePlan} (insertable : ∀ made, plan = .ok made → made.manifest.Insertable) :
    StaysTidy place SeriesState.Quiescent (runPlan store plan) state :=
  .ofExcept tidy fun made planned =>
    tidy.commitReplacement quiet store (insertable made planned) made.content made.downloadedAt

theorem Tidy.appendBytes (tidy : Tidy place state) {journal : AppendJournal}
    (pending : state.appendJournal = some journal) (payload : List UInt8) :
    StaysTidy place (fun after => after.appendJournal = some journal) (appendBytes payload) state := by
  induction payload generalizing state with
  | nil => exact .done tidy ⟨tidy, pending⟩
  | cons byte rest ih => exact .modify tidy (ih (tidy.rewriteData _ _) pending)

theorem Tidy.commitAppend (tidy : Tidy place state) (quiet : state.Quiescent) {journal : AppendJournal}
    (visible : state.visibleFormat = some .csv) (old : journal.oldManifest.dataFormat = .csv)
    (new : journal.newManifest.dataFormat = .csv) (payload : List UInt8) :
    StaysTidy place SeriesState.Quiescent (commitAppend journal payload) state := by
  have begun : Tidy place { state with appendJournal := some journal } := by
    refine ⟨tidy.directory, tidy.backed, tidy.settled, ?_, ?_⟩
    · rintro _ ⟨⟩
      exact ⟨quiet.2, visible, old, new⟩
    · intro other named
      have absent := quiet.2
      rw [show state.replaceJournal = some other from named] at absent
      cases absent
  refine .modify tidy (.bind (begun.appendBytes rfl payload) ?_)
  rintro _ grown ⟨inside, pending⟩
  have written := inside.extendManifest pending new
  refine .modify inside (.bind (written.replaceIndexManifest _ _) ?_)
  rintro _ indexed ⟨kept, first⟩
  refine .bind (kept.publishIntegrityGeneration _) ?_
  rintro _ published ⟨final, second⟩
  have last := final.withoutAppendJournal
  have replace : published.replaceJournal = none :=
    (second.replaceJournal.trans first.replaceJournal).trans (inside.appending journal pending).1
  exact .modify final (.done last ⟨last, rfl, replace⟩)

section Operations

variable {F : Type} [PyFloat F] [Sha256] [Parquet]

omit [Parquet] in
/-- An append is planned for a CSV series, and both of its manifests are CSV ones. -/
theorem appendPlan_formats {key : SeriesKey} {bars : List (MarketBar F)} {journal : AppendJournal}
    {payload : List UInt8} (planned : appendPlan state key bars = .ok (.commit journal payload)) :
    state.visibleFormat = some .csv ∧ journal.oldManifest.dataFormat = .csv ∧
      journal.newManifest.dataFormat = .csv := by
  obtain ⟨incoming, raw, bytes, manifest, _, named, csv, _, current, plan⟩ := appendPlan_commit planned
  have same : manifest.dataFormat = .csv := by
    unfold currentManifest at current
    split at current
    · simp only [bind_eq_ok, pure_eq_ok] at current
      obtain ⟨_, _, _, _, rfl⟩ := current
      exact csv
    · cases current
      exact csv
  refine ⟨by rw [SeriesState.visibleFormat, named, Option.map_some, csv], ?_⟩
  cases plan with
  | migration => exact ⟨csv, same⟩
  | extension => exact ⟨csv, same⟩

theorem Tidy.appendStrictlyNewerLocked (tidy : Tidy place state) (quiet : state.Quiescent)
    (store : SegmentStore) (bars : List (MarketBar F)) (key : SeriesKey) :
    StaysTidy place SeriesState.Quiescent (appendStrictlyNewerLocked store bars key) state := by
  refine .read tidy (.ofExcept tidy fun plan planned => ?_)
  cases plan with
  | keep manifest => exact .done tidy ⟨tidy, quiet⟩
  | replaceAll incoming =>
      exact tidy.runPlan quiet store fun made planned => (replaceAllPlan_spec planned).insertable
  | commit journal payload =>
      obtain ⟨visible, old, new⟩ := appendPlan_formats planned
      exact tidy.commitAppend quiet visible old new payload

omit [Sha256] [Parquet] in
theorem Tidy.looking {Found : Type} (tidy : Tidy place state) (quiet : state.Quiescent)
    {look : StoreProg Found}
    (looks : Prog.Keeps (OnlyRead state) (fun _ => OnlyRead state) look state) :
    StaysTidy place SeriesState.Quiescent look state := by
  refine looks.weaken (fun _ read => tidy.onlyRead read) fun _ after read => ⟨tidy.onlyRead read, ?_⟩
  rw [read]
  exact quiet

theorem Tidy.readRange (tidy : Tidy place state) (pending : Nat → Bool) (store : SegmentStore)
    (start stop : Option Int) :
    StaysTidy place SeriesState.Quiescent (readRange F pending store start stop) state := by
  refine .bind (tidy.recoverSeries .seriesLock) ?_
  rintro _ recovered ⟨inside, quiet⟩
  exact inside.looking quiet (readRangeLocked_onlyRead pending store recovered start stop)

theorem Tidy.upsertClosedLocked (tidy : Tidy place state) (quiet : state.Quiescent)
    (store : SegmentStore) (bar : MarketBar F) :
    StaysTidy place SeriesState.Quiescent (upsertClosedLocked store bar) state := by
  refine .bind (tidy.looking quiet (readAllLocked_onlyRead store state)) ?_
  rintro _ read ⟨inside, still⟩
  exact .ofExcept inside fun _ _ =>
    inside.runPlan still store fun made planned => (replaceAllPlan_spec planned).insertable

/-- Every operation leaves a tidy series, wherever it stops. -/
theorem Tidy.program (tidy : Tidy place state) (store : SegmentStore) (op : StoreOp F) :
    StaysTidy place SeriesState.Quiescent (op.program store) state := by
  have recovers {Value : Type} {locked : StoreProg Value}
      (stays : ∀ after, Tidy place after → after.Quiescent →
        StaysTidy place SeriesState.Quiescent locked after) :
      StaysTidy place SeriesState.Quiescent
        ((MarketdataProvider.recoverSeries .seriesLock >>= fun _ => locked) >>= fun _ => pure ())
        state := by
    have both : StaysTidy place SeriesState.Quiescent
        (MarketdataProvider.recoverSeries .seriesLock >>= fun _ => locked) state :=
      .bind (tidy.recoverSeries .seriesLock) fun _ after reached => stays after reached.1 reached.2
    exact .bind both fun _ _ last => .done last.1 last
  cases op with
  | replaceAll key bars dataFormat =>
      exact recovers fun after inside quiet => inside.runPlan quiet store fun made planned =>
        (replaceAllPlan_spec planned).insertable
  | replaceAllStream key bars =>
      exact recovers fun after inside quiet => inside.runPlan quiet store fun made planned =>
        (replaceAllStreamPlan_spec planned).insertable
  | appendStrictlyNewer key bars =>
      exact recovers fun after inside quiet => inside.appendStrictlyNewerLocked quiet store bars key
  | upsertClosed bar =>
      exact recovers fun after inside quiet => inside.upsertClosedLocked quiet store bar
  | commitClosed pending bar =>
      refine recovers fun after inside quiet => .read inside ?_
      split
      · exact .bind (inside.appendStrictlyNewerLocked quiet store _ _) fun _ _ last =>
          .done last.1 last
      · have looks : StaysTidy place SeriesState.Quiescent (getLocked F pending store bar.time) after :=
          .bind (inside.looking quiet (readRangeLocked_onlyRead pending store after _ _))
            fun _ _ read => .done read.1 read
        refine .bind looks ?_
        rintro existing read ⟨kept, still⟩
        cases existing with
        | none =>
            exact .bind (kept.upsertClosedLocked still store bar) fun _ _ last => .done last.1 last
        | some existing =>
            dsimp only
            cases compareClosed existing bar with
            | ok status => exact .done kept ⟨kept, still⟩
            | error error => exact .fail kept
  | compact key dataFormat =>
      refine recovers fun after inside quiet => ?_
      refine .bind (inside.looking quiet (readAllLocked_onlyRead (F := F) store after)) ?_
      rintro _ read ⟨kept, still⟩
      exact kept.runPlan still store fun made planned => (replaceAllPlan_spec planned).insertable

end Operations

end Tidy

end MarketdataProvider
