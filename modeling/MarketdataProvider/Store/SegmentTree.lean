import MarketdataProvider.Store.Agreement

namespace MarketdataProvider

open Foundation Foundation.Crash

section Paths

variable [PyText]

/-- Two identities that the sanitizer does not tell apart. -/
structure SamePath (first second : SeriesKey) : Prop where
  exchange : safePathPart first.exchange = safePathPart second.exchange
  market : safePathPart first.market = safePathPart second.market
  symbol : safePathPart first.symbol = safePathPart second.symbol
  sourceKind : safePathPart first.sourceKind = safePathPart second.sourceKind
  timeframe : canonicalTimeframe first.timeframe = canonicalTimeframe second.timeframe

omit [PyText] in
theorem safe_collapseUnsafe (inRun : Bool) (text : List Char) :
    ∀ character ∈ collapseUnsafe inRun text, safeCharacter character = true := by
  induction text generalizing inRun with
  | nil => simp [collapseUnsafe]
  | cons first rest ih =>
      unfold collapseUnsafe
      split_ifs with safe repeated
      · intro character member
        rcases List.mem_cons.mp member with rfl | later
        · exact safe
        · exact ih false character later
      · exact ih true
      · intro character member
        rcases List.mem_cons.mp member with rfl | later
        · decide
        · exact ih true character later

/-- A path part has only the characters that the sanitizer keeps. -/
theorem safe_safePathPart (value : String) :
    ∀ character ∈ (safePathPart value).toList, safeCharacter character = true := by
  unfold safePathPart
  dsimp only
  split
  · have unknown : "UNKNOWN".toList.all safeCharacter = true := by decide
    simpa using unknown
  · intro character member
    rw [String.toList_ofList, List.mem_reverse] at member
    have inner := (List.dropWhile_suffix _).subset member
    rw [List.mem_reverse] at inner
    exact safe_collapseUnsafe _ _ character ((List.dropWhile_suffix _).subset inner)

omit [PyText] in
theorem ascii_of_safe {character : Char} (safe : safeCharacter character = true) :
    character.toNat < 128 := by
  simp only [safeCharacter, Bool.or_eq_true, Bool.and_eq_true, decide_eq_true_eq, Char.le_def,
    UInt32.le_iff_toNat_le] at safe
  rcases safe with (((upper | digit) | rfl) | rfl) | rfl
  · exact Nat.lt_of_le_of_lt upper.2 (by decide)
  · exact Nat.lt_of_le_of_lt digit.2 (by decide)
  · decide
  · decide
  · decide

omit [PyText] in
/-- The lower case of a kept character can be undone. -/
theorem toUpper_toLower_of_safe {character : Char} (safe : safeCharacter character = true) :
    character.toLower.toUpper = character := by
  have table : ∀ code < 128, safeCharacter (Char.ofNat code) = true →
      (Char.ofNat code).toLower.toUpper = Char.ofNat code := by decide +kernel
  have found := table character.toNat (ascii_of_safe safe)
  rw [Char.ofNat_toNat] at found
  exact found safe

/-- Lower case keeps two path parts apart. -/
theorem lower_safePathPart_inj {first second : String} :
    PyText.lower (safePathPart first) = PyText.lower (safePathPart second) ↔
      safePathPart first = safePathPart second := by
  refine ⟨fun same => ?_, fun same => congrArg _ same⟩
  have ascii (value : String) : (safePathPart value).toList.all (·.toNat < 128) = true := by
    rw [List.all_eq_true]
    intro character member
    exact decide_eq_true (ascii_of_safe (safe_safePathPart value character member))
  have undone (value : String) :
      ((safePathPart value).toList.map Char.toLower).map Char.toUpper = (safePathPart value).toList := by
    rw [List.map_map]
    conv_rhs => rw [← List.map_id (safePathPart value).toList]
    refine List.map_congr_left fun character member => ?_
    exact toUpper_toLower_of_safe (safe_safePathPart value character member)
  rw [PyText.lower_ascii _ (ascii first), PyText.lower_ascii _ (ascii second)] at same
  have texts := congrArg (List.map Char.toUpper) (String.ofList_inj.mp same)
  rw [undone, undone] at texts
  exact String.toList_inj.mp texts

/-- Two series share a directory exactly when the sanitizer does not tell their identities apart. -/
theorem seriesDirectory_eq_iff {first second : SeriesKey} {place other : List String}
    (placed : seriesDirectory first = .ok place) (elsewhere : seriesDirectory second = .ok other) :
    place = other ↔ SamePath first second := by
  simp only [seriesDirectory, bind_eq_ok, pure_eq_ok] at placed elsewhere
  obtain ⟨timeframe, accepted, rfl⟩ := placed
  obtain ⟨span, known, rfl⟩ := elsewhere
  simp only [List.cons.injEq, String.append_right_inj, lower_safePathPart_inj, true_and, and_true]
  constructor
  · rintro ⟨exchange, market, symbol, sourceKind, rfl⟩
    exact ⟨exchange, market, symbol, sourceKind, accepted.trans known.symm⟩
  · rintro ⟨exchange, market, symbol, sourceKind, same⟩
    rw [accepted, known] at same
    exact ⟨exchange, market, symbol, sourceKind, Except.ok.inj same⟩

end Paths

section Contained

variable [PyText] {origin state : SeriesState} {manifest : SegmentManifest} {downloadedAt : Int}

/-- A directory names only manifests of its own series, and the index rows of the other series stay
as they were at the origin. -/
structure Contained (origin state : SeriesState) : Prop where
  directory : state.directory = origin.directory
  manifest : ∀ raw, state.manifest = some raw →
    seriesDirectory raw.toManifest.key = .ok origin.directory
  append : ∀ journal, state.appendJournal = some journal →
    seriesDirectory journal.oldManifest.key = .ok origin.directory ∧
      seriesDirectory journal.newManifest.key = .ok origin.directory
  replace : ∀ journal, state.replaceJournal = some journal →
    (∀ old, journal.oldManifest = some old → seriesDirectory old.key = .ok origin.directory) ∧
      seriesDirectory journal.newManifest.key = .ok origin.directory
  foreign : ∀ key, seriesDirectory key ≠ .ok origin.directory →
    state.seriesRows key = origin.seriesRows key

/-- The programs that keep a directory to itself. -/
abbrev StaysIn {Value : Type} (origin : SeriesState) (program : StoreProg Value) (state : SeriesState) :
    Prop :=
  Prog.Keeps (Contained origin) (fun _ => Contained origin) program state

/-- Data files and integrity generations name no series. -/
theorem Contained.files (contained : Contained origin state)
    (files : Directory DataName StoredFile) (generation : Option IntegrityGeneration) (clock : Nat) :
    Contained origin { state with files, generation, clock } :=
  ⟨contained.directory, contained.manifest, contained.append, contained.replace, contained.foreign⟩

theorem Contained.withManifest (contained : Contained origin state)
    (placed : seriesDirectory manifest.key = .ok origin.directory) :
    Contained origin { state with manifest := some manifest.asdict } :=
  ⟨contained.directory, fun raw named => by cases named; exact placed, contained.append,
    contained.replace, contained.foreign⟩

theorem Contained.replaceIndex (contained : Contained origin state) {key : SeriesKey}
    {rows : List IndexRow} (placed : seriesDirectory key = .ok origin.directory)
    (owned : ∀ row ∈ rows, row.key = key) : Contained origin (state.replaceIndex key rows) := by
  refine ⟨contained.directory, contained.manifest, contained.append, contained.replace, ?_⟩
  intro other away
  have different : other ≠ key := by
    rintro rfl
    exact away placed
  rw [state.seriesRows_replaceIndex_of_ne owned different]
  exact contained.foreign other away

theorem Contained.replaceIndexManifest (contained : Contained origin state)
    (placed : seriesDirectory manifest.key = .ok origin.directory) :
    StaysIn origin (replaceIndexManifest manifest downloadedAt) state := by
  refine .ofExcept contained fun rows written => .step contained ?_
  have after := contained.replaceIndex placed (key_of_mem_indexRows written)
  exact .done after after

theorem Contained.writeManifestAndIndex (contained : Contained origin state)
    (placed : seriesDirectory manifest.key = .ok origin.directory) :
    StaysIn origin (writeManifestAndIndex manifest downloadedAt) state :=
  .modify contained ((contained.withManifest placed).replaceIndexManifest placed)

theorem Contained.publishIntegrityGeneration (contained : Contained origin state) :
    StaysIn origin (publishIntegrityGeneration manifest) state := by
  refine .read contained (.ofExcept contained fun payload _ => .step contained ?_)
  have after := contained.files state.files (some payload) state.clock
  exact .done after after

theorem Contained.unlinkOptional (contained : Contained origin state) (name : Option DataName) :
    StaysIn origin (unlinkOptional name) state := by
  cases name with
  | none => exact .done contained contained
  | some name =>
      have after := contained.files (state.files.unlink name) state.generation state.clock
      exact .step contained (.done after after)

theorem Contained.withoutReplaceJournal (contained : Contained origin state) :
    Contained origin { state with replaceJournal := none } :=
  ⟨contained.directory, contained.manifest, contained.append, fun _ named => (by cases named),
    contained.foreign⟩

theorem Contained.withoutAppendJournal (contained : Contained origin state) :
    Contained origin { state with appendJournal := none } :=
  ⟨contained.directory, contained.manifest, fun _ named => (by cases named), contained.replace,
    contained.foreign⟩

theorem Contained.finishReplacement (contained : Contained origin state) :
    StaysIn origin finishReplacement state := by
  refine .read contained (.ofExcept contained fun journal valid => ?_)
  have superseded : StaysIn origin (unlinkSuperseded journal) state := by
    unfold unlinkSuperseded
    split
    · exact .done contained contained
    · exact contained.unlinkOptional _
  refine .bind superseded fun _ unlinked inside => ?_
  have published : StaysIn origin (publishReplacement journal) unlinked := by
    unfold publishReplacement
    split
    · exact inside.publishIntegrityGeneration
    · exact .done inside inside
  refine .bind published fun _ current again => .modify again ?_
  have other := again.files (current.files.unlink (.bars (otherFormat journal.newDataName)))
    current.generation current.clock
  refine .bind (other.unlinkOptional _) fun _ last kept => .step kept ?_
  exact .done kept.withoutReplaceJournal kept.withoutReplaceJournal

theorem Contained.restoreBackup (contained : Contained origin state) (journal : ReplaceJournal) :
    StaysIn origin (restoreBackup journal) state := by
  refine .read contained ?_
  split
  · rename_i backup oldData _ _
    split
    · have after := contained.files (state.files.rename (.backup backup) (.bars oldData))
        state.generation state.clock
      exact .step contained (.done after after)
    · exact .done contained contained
  · exact .done contained contained

theorem Contained.restoreGeneration (contained : Contained origin state) {journal : ReplaceJournal}
    (old : ∀ old, journal.oldManifest = some old → seriesDirectory old.key = .ok origin.directory)
    (new : seriesDirectory journal.newManifest.key = .ok origin.directory) :
    StaysIn origin (restoreGeneration journal) state := by
  rw [MarketdataProvider.restoreGeneration]
  split
  · have unlinked := contained.files (state.files.unlink (.bars journal.newDataName))
      state.generation state.clock
    refine .modify contained (.modify unlinked ?_)
    have bare : Contained origin { state.unlinkData (.bars journal.newDataName) with manifest := none } :=
      ⟨unlinked.directory, fun _ named => (by cases named), unlinked.append, unlinked.replace,
        unlinked.foreign⟩
    have after : Contained origin (SeriesState.replaceIndex _ journal.newManifest.key []) :=
      bare.replaceIndex new (by simp)
    exact .step bare (.done after after)
  · rename_i stored named
    refine .bind (contained.restoreBackup journal) fun _ restored inside => .read inside ?_
    split
    · exact .fail inside
    · have unlinks : StaysIn origin (unlinkReplacing journal) restored := by
        unfold unlinkReplacing
        split
        · exact .done inside inside
        · have after := inside.files (restored.files.unlink (.bars journal.newDataName))
            restored.generation restored.clock
          exact .step inside (.done after after)
      exact .bind unlinks fun _ _ kept => kept.writeManifestAndIndex (old stored named)

theorem Contained.recoverReplacementJournal (contained : Contained origin state) :
    StaysIn origin recoverReplacementJournal state := by
  refine .read contained (.ofExcept contained fun journal valid => ?_)
  obtain ⟨old, new⟩ := contained.replace journal (validatedJournal_named valid)
  split
  · exact .bind (contained.replaceIndexManifest new) fun _ _ kept => kept.finishReplacement
  · refine .bind (contained.restoreGeneration old new) fun _ _ inside => ?_
    refine .bind (inside.unlinkOptional _) fun _ last kept => .step kept ?_
    exact .done kept.withoutReplaceJournal kept.withoutReplaceJournal

theorem Contained.recoverPendingReplacement (contained : Contained origin state) :
    StaysIn origin recoverPendingReplacement state := by
  refine .read contained ?_
  split
  · exact contained.recoverReplacementJournal
  · exact .done contained contained

theorem Contained.recoverAppendJournal (contained : Contained origin state) :
    StaysIn origin recoverAppendJournal state := by
  refine .read contained ?_
  split
  · exact .fail contained
  · exact .fail contained
  · rename_i journal bytes named present
    obtain ⟨old, new⟩ := contained.append journal named
    split
    · exact .fail contained
    · have closes (last : SeriesState) (kept : Contained origin last) : StaysIn origin
          (Prog.modify fun state => { state with appendJournal := none }) last :=
        .step kept (.done kept.withoutAppendJournal kept.withoutAppendJournal)
      split
      · exact .bind (contained.replaceIndexManifest new) fun _ last kept => closes last kept
      · have cut := contained.files (state.rewriteData (.bars .csv) (·.take journal.dataSizeBefore)).files
          state.generation (state.clock + 1)
        refine .modify contained (.read cut ?_)
        exact .bind (cut.writeManifestAndIndex old) fun _ last kept => closes last kept

theorem Contained.recoverPendingAppend (contained : Contained origin state) :
    StaysIn origin recoverPendingAppend state := by
  refine .read contained ?_
  split
  · exact contained.recoverAppendJournal
  · exact .done contained contained

theorem Contained.recoverSeries (contained : Contained origin state) (entry : RecoveryEntry) :
    StaysIn origin (recoverSeries entry) state := by
  cases entry with
  | constructor =>
      exact .bind contained.recoverPendingAppend fun _ _ kept => kept.recoverPendingReplacement
  | seriesLock =>
      exact .bind contained.recoverPendingReplacement fun _ _ kept => kept.recoverPendingAppend

theorem Contained.backUpOptional (contained : Contained origin state) (store : SegmentStore)
    (backupName : Option SegmentFormat) : StaysIn origin (backUpOptional store backupName) state := by
  cases backupName with
  | none => exact .done contained contained
  | some format =>
      have cleared := contained.files (state.files.unlink (.backup format)) state.generation state.clock
      refine .modify contained ?_
      split
      · have after := cleared.files ((state.files.unlink (.backup format)).link (.bars format)
          (.backup format)) state.generation state.clock
        exact .step cleared (.done after after)
      · refine .step cleared ?_
        cases (state.unlinkData (.backup format)).data (.bars format) with
        | none => exact .done cleared cleared
        | some bytes => exact .done (cleared.files _ _ _) (cleared.files _ _ _)

/-- The journal of a replacement names the directory that it is written into. -/
theorem Contained.beginReplacement (contained : Contained origin state) (store : SegmentStore)
    {oldManifest : Option SegmentManifest} {newManifest : SegmentManifest}
    (old : ∀ manifest, oldManifest = some manifest →
      seriesDirectory manifest.key = .ok origin.directory) :
    Prog.Keeps (Contained origin)
      (fun _ after => Contained origin after ∧ seriesDirectory newManifest.key = .ok origin.directory)
      (beginReplacement store oldManifest newManifest downloadedAt) state := by
  refine .read contained (.ofExcept contained fun _ _ => .ofExcept contained fun _ valid => ?_)
  have new : seriesDirectory newManifest.key = .ok origin.directory := by
    simp only [validateJournalPath, bind_eq_ok] at valid
    obtain ⟨expected, placed, same⟩ := valid
    split_ifs at same with here
    rw [placed, ← here, contained.directory]
  refine .bind contained.recoverPendingReplacement fun _ recovered inside => .read inside ?_
  refine .bind (inside.backUpOptional store _) fun _ backed kept => .read kept (.step kept ?_)
  have after : Contained origin { backed with
      replaceJournal := some (replaceJournalOf backed oldManifest newManifest
        (backupFormat recovered oldManifest) downloadedAt) } :=
    ⟨kept.directory, kept.manifest, kept.append,
      fun journal named => by cases named; exact ⟨old, new⟩, kept.foreign⟩
  exact .done after ⟨after, new⟩

theorem Contained.commitReplacement (contained : Contained origin state) (store : SegmentStore)
    (newManifest : SegmentManifest) (content : Except PyError (List UInt8)) :
    StaysIn origin (commitReplacement store newManifest content downloadedAt) state := by
  refine .read contained ?_
  have old : ∀ manifest, state.manifest.map RawManifest.toManifest = some manifest →
      seriesDirectory manifest.key = .ok origin.directory := by
    intro manifest named
    obtain ⟨raw, found, rfl⟩ := Option.map_eq_some_iff.mp named
    exact contained.manifest raw found
  refine .bind (contained.beginReplacement store old) ?_
  rintro _ begun ⟨inside, new⟩
  refine .ofExcept inside fun bytes _ => .modify inside ?_
  have created := inside.files (begun.createData (.bars newManifest.dataFormat) bytes).files
    begun.generation (begun.clock + 1)
  have written := created.withManifest new
  refine .modify created (.bind (written.replaceIndexManifest new) fun _ _ indexed => ?_)
  exact .bind indexed.finishReplacement fun _ _ last => .done last last

theorem Contained.runPlan (contained : Contained origin state) (store : SegmentStore)
    (plan : Except PyError ReplacePlan) : StaysIn origin (runPlan store plan) state :=
  .ofExcept contained fun _ _ => contained.commitReplacement store _ _

theorem Contained.appendBytes (contained : Contained origin state) (payload : List UInt8) :
    StaysIn origin (appendBytes payload) state := by
  induction payload generalizing state with
  | nil => exact .done contained contained
  | cons byte rest ih =>
      have grown := contained.files (state.rewriteData (.bars .csv) (· ++ [byte])).files
        state.generation (state.clock + 1)
      exact .modify contained (ih grown)

theorem Contained.commitAppend (contained : Contained origin state) {journal : AppendJournal}
    (old : seriesDirectory journal.oldManifest.key = .ok origin.directory)
    (new : seriesDirectory journal.newManifest.key = .ok origin.directory) (payload : List UInt8) :
    StaysIn origin (commitAppend journal payload) state := by
  have begun : Contained origin { state with appendJournal := some journal } :=
    ⟨contained.directory, contained.manifest, fun _ named => by cases named; exact ⟨old, new⟩,
      contained.replace, contained.foreign⟩
  refine .modify contained (.bind (begun.appendBytes payload) fun _ _ grown => ?_)
  have written := grown.withManifest new
  refine .modify grown (.bind (written.replaceIndexManifest new) fun _ _ indexed => ?_)
  refine .bind indexed.publishIntegrityGeneration fun _ _ kept => .modify kept ?_
  exact .done kept.withoutAppendJournal kept.withoutAppendJournal

section Operations

variable {F : Type} [PyFloat F] [Sha256] [Parquet]

theorem Contained.appendStrictlyNewerLocked (contained : Contained origin state) (store : SegmentStore)
    (bars : List (MarketBar F)) (key : SeriesKey) :
    StaysIn origin (appendStrictlyNewerLocked store bars key) state := by
  refine .read contained (.ofExcept contained fun plan planned => ?_)
  cases plan with
  | keep manifest => exact .done contained contained
  | replaceAll incoming => exact contained.runPlan store _
  | commit journal payload =>
      obtain ⟨raw, named, old, new⟩ := appendPlan_keys planned
      have placed := contained.manifest raw named
      exact contained.commitAppend (old ▸ placed) (new ▸ placed) payload

omit [Sha256] [Parquet] in
theorem Contained.onlyRead {after : SeriesState} (contained : Contained origin state)
    (read : OnlyRead state after) : Contained origin after := by
  rw [read]
  exact contained.files state.files after.generation state.clock

omit [Sha256] [Parquet] in
theorem Contained.looking {Found : Type} (contained : Contained origin state) {look : StoreProg Found}
    (looks : Prog.Keeps (OnlyRead state) (fun _ => OnlyRead state) look state) :
    StaysIn origin look state :=
  looks.weaken (fun _ read => contained.onlyRead read) fun _ _ read => contained.onlyRead read

theorem Contained.readAllLocked (contained : Contained origin state) (store : SegmentStore) :
    StaysIn origin (readAllLocked F store) state :=
  contained.looking (readAllLocked_onlyRead store state)

theorem Contained.readRangeLocked (contained : Contained origin state) (pending : Nat → Bool)
    (store : SegmentStore) (start stop : Option Int) :
    StaysIn origin (readRangeLocked F pending store start stop) state :=
  contained.looking (readRangeLocked_onlyRead pending store state start stop)

theorem Contained.readRange (contained : Contained origin state) (pending : Nat → Bool)
    (store : SegmentStore) (start stop : Option Int) :
    StaysIn origin (readRange F pending store start stop) state :=
  .bind (contained.recoverSeries _) fun _ _ kept => kept.readRangeLocked pending store start stop

theorem Contained.upsertClosedLocked (contained : Contained origin state) (store : SegmentStore)
    (bar : MarketBar F) : StaysIn origin (upsertClosedLocked store bar) state :=
  .bind (contained.readAllLocked store) fun _ _ read =>
    .ofExcept read fun _ _ => read.runPlan store _

/-- Every operation stays in the directory of its series. -/
theorem Contained.program (contained : Contained origin state) (store : SegmentStore) (op : StoreOp F) :
    StaysIn origin (op.program store) state := by
  have discard {Value : Type} {program : StoreProg Value} {before : SeriesState}
      (stays : StaysIn origin program before) :
      StaysIn origin (program >>= fun _ => pure ()) before :=
    .bind stays fun _ _ kept => .done kept kept
  cases op with
  | replaceAll key bars dataFormat =>
      exact discard (.bind (contained.recoverSeries _) fun _ _ kept => kept.runPlan store _)
  | replaceAllStream key bars =>
      exact discard (.bind (contained.recoverSeries _) fun _ _ kept => kept.runPlan store _)
  | appendStrictlyNewer key bars =>
      exact discard (.bind (contained.recoverSeries _) fun _ _ kept =>
        kept.appendStrictlyNewerLocked store bars key)
  | upsertClosed bar =>
      exact discard (.bind (contained.recoverSeries _) fun _ _ kept => kept.upsertClosedLocked store bar)
  | commitClosed pending bar =>
      refine discard (.bind (contained.recoverSeries _) fun _ _ kept => .read kept ?_)
      split
      · exact .bind (kept.appendStrictlyNewerLocked store _ _) fun _ _ last => .done last last
      · have looks : StaysIn origin (getLocked F pending store bar.time) _ :=
          .bind (kept.readRangeLocked pending store _ _) fun _ _ read => .done read read
        refine .bind looks fun existing _ read => ?_
        cases existing with
        | none => exact .bind (read.upsertClosedLocked store bar) fun _ _ last => .done last last
        | some existing =>
            dsimp only
            cases compareClosed existing bar with
            | ok status => exact .done read read
            | error error => exact .fail read
  | compact key dataFormat =>
      exact discard (.bind (contained.recoverSeries _) fun _ _ kept =>
        .bind (kept.readAllLocked store) fun _ _ read => read.runPlan store _)

end Operations

end Contained

section Alike

variable [PyText] {place : List String} {left right : SeriesState}

/-- The two states differ only in index rows of series that live elsewhere. -/
def SameSeries (place : List String) (left right : SeriesState) : Prop :=
  ∃ index, right = { left with index } ∧
    ∀ key, seriesDirectory key = .ok place → right.seriesRows key = left.seriesRows key

theorem SameSeries.refl (place : List String) (state : SeriesState) : SameSeries place state state :=
  ⟨state.index, rfl, fun _ _ => rfl⟩

theorem SameSeries.trans {last : SeriesState} (first : SameSeries place left right)
    (second : SameSeries place right last) : SameSeries place left last := by
  obtain ⟨_, rfl, rows⟩ := first
  obtain ⟨index, rfl, later⟩ := second
  exact ⟨index, rfl, fun key placed => (later key placed).trans (rows key placed)⟩

/-- The programs whose outcome does not depend on index rows from elsewhere. -/
abbrev Blind {Value : Type} (place : List String) (program : StoreProg Value)
    (left right : SeriesState) : Prop :=
  Prog.Agrees (SameSeries place) program left right

theorem SameSeries.files (same : SameSeries place left right)
    (files : Directory DataName StoredFile) (generation : Option IntegrityGeneration) (clock : Nat) :
    SameSeries place { left with files, generation, clock } { right with files, generation, clock } := by
  obtain ⟨index, rfl, rows⟩ := same
  exact ⟨index, rfl, rows⟩

theorem SameSeries.manifests (same : SameSeries place left right) (manifest : Option RawManifest)
    (append : Option AppendJournal) (replace : Option ReplaceJournal) :
    SameSeries place
      { left with manifest, appendJournal := append, replaceJournal := replace }
      { right with manifest, appendJournal := append, replaceJournal := replace } := by
  obtain ⟨index, rfl, rows⟩ := same
  exact ⟨index, rfl, rows⟩

omit [PyText] in
/-- A replacement drops the rows of its key and adds its own. -/
theorem SeriesState.seriesRows_replaceIndex_eq (state : SeriesState) (key other : SeriesKey)
    (rows : List IndexRow) :
    (state.replaceIndex key rows).seriesRows other =
      (state.seriesRows other).filter (·.key ≠ key) ++ rows.filter (·.key = other) := by
  rw [seriesRows, replaceIndex, List.filter_append, List.filter_filter, seriesRows, List.filter_filter]
  congr 1
  exact List.filter_congr fun row _ => Bool.and_comm _ _

theorem SameSeries.replaceIndex (same : SameSeries place left right) (key : SeriesKey)
    (rows : List IndexRow) :
    SameSeries place (left.replaceIndex key rows) (right.replaceIndex key rows) := by
  obtain ⟨index, rfl, equal⟩ := same
  refine ⟨_, rfl, fun other placed => ?_⟩
  rw [SeriesState.seriesRows_replaceIndex_eq, SeriesState.seriesRows_replaceIndex_eq, equal other placed]

theorem SameSeries.replaceIndexManifest (same : SameSeries place left right)
    (manifest : SegmentManifest) (downloadedAt : Int) :
    Blind place (replaceIndexManifest manifest downloadedAt) left right :=
  .ofExcept same fun rows _ => .modify (.done (same.replaceIndex manifest.key rows))

theorem SameSeries.publishIntegrityGeneration (same : SameSeries place left right)
    (manifest : SegmentManifest) : Blind place (publishIntegrityGeneration manifest) left right := by
  have files := same.files
  obtain ⟨index, rfl, rows⟩ := same
  refine .read rfl (.ofExcept ⟨index, rfl, rows⟩ fun payload _ => .modify (.done ?_))
  exact files left.files (some payload) left.clock

theorem SameSeries.unlinkOptional (same : SameSeries place left right) (name : Option DataName) :
    Blind place (unlinkOptional name) left right := by
  have files := same.files
  obtain ⟨index, rfl, rows⟩ := same
  cases name with
  | none => exact .done ⟨index, rfl, rows⟩
  | some name => exact .modify (.done (files (left.files.unlink name) left.generation left.clock))

theorem SameSeries.dropReplaceJournal (same : SameSeries place left right) :
    Blind place (Prog.modify fun state : SeriesState => { state with replaceJournal := none })
      left right := by
  have manifests := same.manifests
  obtain ⟨index, rfl, rows⟩ := same
  exact .modify (.done (manifests left.manifest left.appendJournal none))

theorem SameSeries.finishReplacement (same : SameSeries place left right) :
    Blind place finishReplacement left right := by
  have equal : validatedJournal right = validatedJournal left := by
    obtain ⟨index, rfl, rows⟩ := same
    rfl
  refine .read (by rw [equal]) (.ofExcept same fun journal _ => ?_)
  have superseded : Blind place (unlinkSuperseded journal) left right := by
    unfold unlinkSuperseded
    split
    · exact .done same
    · exact same.unlinkOptional _
  have publishes (next last : SeriesState) (alike : SameSeries place next last) :
      Blind place (publishReplacement journal) next last := by
    unfold publishReplacement
    split
    · exact alike.publishIntegrityGeneration _
    · exact .done alike
  refine .bind superseded fun _ next last _ unlinked => ?_
  refine .bind (publishes next last unlinked) fun _ current twin _ alike => .modify ?_
  have cleared : Blind place (MarketdataProvider.unlinkOptional
      (some (.bars (otherFormat journal.newDataName)))) current twin := alike.unlinkOptional _
  exact .bind (cleared.2.unlinkOptional _) fun _ _ _ _ last => last.dropReplaceJournal

theorem SameSeries.writeManifest (same : SameSeries place left right) (manifest : Option RawManifest) :
    SameSeries place { left with manifest } { right with manifest } := by
  have manifests := same.manifests
  obtain ⟨index, rfl, rows⟩ := same
  exact manifests manifest left.appendJournal left.replaceJournal

theorem SameSeries.restoreOldGeneration (same : SameSeries place left right) (journal : ReplaceJournal)
    (old : SegmentManifest) : Blind place (restoreOldGeneration journal old) left right := by
  have restores : Blind place (restoreBackup journal) left right := by
    have files := same.files
    obtain ⟨index, rfl, rows⟩ := same
    refine .read rfl ?_
    split
    · rename_i backup oldData _ _
      split
      · exact .modify (.done (files (left.files.rename (.backup backup) (.bars oldData))
          left.generation left.clock))
      · exact .done ⟨index, rfl, rows⟩
    · exact .done ⟨index, rfl, rows⟩
  refine .bind restores fun _ after other _ restored => ?_
  have unlinks : Blind place (unlinkReplacing journal) after other := by
    unfold unlinkReplacing
    split
    · exact .done restored
    · exact restored.unlinkOptional (some _)
  have writes (next last : SeriesState) (alike : SameSeries place next last) :
      Blind place (writeManifestAndIndex old journal.oldDownloadedAt) next last :=
    .modify ((alike.writeManifest _).replaceIndexManifest old journal.oldDownloadedAt)
  have data (format : SegmentFormat) : other.data (.bars format) = after.data (.bars format) := by
    obtain ⟨index, rfl, rows⟩ := restored
    rfl
  refine .read (by simp only [data]) ?_
  split
  · exact .fail restored
  · exact .bind unlinks fun _ next last _ alike => writes next last alike

theorem SameSeries.restoreGeneration (same : SameSeries place left right) (journal : ReplaceJournal) :
    Blind place (restoreGeneration journal) left right := by
  unfold MarketdataProvider.restoreGeneration
  split
  · have unlinked : Blind place (MarketdataProvider.unlinkOptional (some (.bars journal.newDataName)))
        left right := same.unlinkOptional _
    refine .modify (.modify (.modify (.done ?_)))
    exact (SameSeries.writeManifest unlinked.2 none).replaceIndex journal.newManifest.key []
  · exact same.restoreOldGeneration journal _

theorem SameSeries.recoverPendingReplacement (same : SameSeries place left right) :
    Blind place recoverPendingReplacement left right := by
  have equal : validatedJournal right = validatedJournal left ∧
      right.replaceJournal = left.replaceJournal ∧
        ∀ journal, replacementCommitted right journal = replacementCommitted left journal := by
    obtain ⟨index, rfl, rows⟩ := same
    exact ⟨rfl, rfl, fun _ => rfl⟩
  obtain ⟨journals, pending, committed⟩ := equal
  refine .read (by rw [pending]) ?_
  split
  · refine .read (by simp only [journals, committed]) (.ofExcept same fun journal _ => ?_)
    split
    · exact .bind (same.replaceIndexManifest _ _) fun _ _ _ _ indexed => indexed.finishReplacement
    · refine .bind (same.restoreGeneration journal) fun _ _ _ _ restored => ?_
      exact .bind (restored.unlinkOptional _) fun _ _ _ _ last => last.dropReplaceJournal
  · exact .done same

/-- The rollback of an append asks the index for the rows of its own series. -/
theorem SameSeries.recoverPendingAppend (same : SameSeries place left right)
    (placed : ∀ journal, left.appendJournal = some journal →
      seriesDirectory journal.oldManifest.key = .ok place) :
    Blind place recoverPendingAppend left right := by
  obtain ⟨index, rfl, rows⟩ := same
  have same : SameSeries place left { left with index } := ⟨index, rfl, rows⟩
  have drops (next last : SeriesState) (alike : SameSeries place next last) :
      Blind place (Prog.modify fun state : SeriesState => { state with appendJournal := none })
        next last := by
    have manifests := alike.manifests
    obtain ⟨index, rfl, rows⟩ := alike
    exact .modify (.done (manifests next.manifest none next.replaceJournal))
  refine .read rfl ?_
  split
  · refine .read rfl ?_
    split
    · exact .fail same
    · exact .fail same
    · rename_i journal bytes named present
      split
      · exact .fail same
      · split
        · exact .bind (same.replaceIndexManifest _ _) fun _ next last _ alike => drops next last alike
        · have cut := same.files (left.rewriteData (.bars .csv) (·.take journal.dataSizeBefore)).files
            left.generation (left.clock + 1)
          have found : indexedDownloadedAt
              (({ left with index } : SeriesState).rewriteData (.bars .csv) (·.take journal.dataSizeBefore))
              journal.oldManifest =
              indexedDownloadedAt (left.rewriteData (.bars .csv) (·.take journal.dataSizeBefore))
                journal.oldManifest := by
            have equal := rows journal.oldManifest.key (placed journal named)
            simp only [indexedDownloadedAt]
            exact congrArg latestDownloadedAt equal
          refine .modify (.read (by rw [found]) ?_)
          have wrote := (SameSeries.writeManifest cut (some journal.oldManifest.asdict))
          exact .bind (.modify (wrote.replaceIndexManifest _ _)) fun _ next last _ alike =>
            drops next last alike
  · exact .done same

/-- The recovery of a series that names only its own manifests does not look at the other ones. -/
theorem SameSeries.recoverSeries (same : SameSeries place left right) (contained : Contained left left)
    (here : left.directory = place) (entry : RecoveryEntry) :
    Blind place (recoverSeries entry) left right := by
  have placed (after : SeriesState) (kept : Contained left after) (journal : AppendJournal)
      (named : after.appendJournal = some journal) :
      seriesDirectory journal.oldManifest.key = .ok place := by
    rw [← here]
    exact (kept.append journal named).1
  cases entry with
  | constructor =>
      exact .bind (same.recoverPendingAppend (placed left contained))
        fun _ _ _ _ alike => alike.recoverPendingReplacement
  | seriesLock =>
      refine .bind same.recoverPendingReplacement fun _ after _ ran alike => ?_
      exact alike.recoverPendingAppend (placed after (contained.recoverPendingReplacement.2 _ _ ran))

section Reads

variable {F : Type} [PyFloat F] [Sha256] [Parquet]

theorem SameSeries.readRangeLocked (same : SameSeries place left right) (pending : Nat → Bool)
    (store : SegmentStore) (start stop : Option Int) :
    Blind place (readRangeLocked F pending store start stop) left right := by
  obtain ⟨index, rfl, rows⟩ := same
  have same : SameSeries place left { left with index } := ⟨index, rfl, rows⟩
  refine .read rfl ?_
  split
  · split
    · exact .fail same
    · exact .done same
  · rename_i manifest _
    refine .ofExcept same fun _ _ => ?_
    dsimp only
    split
    · exact .fail same
    · split
      · exact .done same
      · rename_i bytes _ _
        have trusts : Blind place (validateOrTrustCsvGeneration F manifest bytes) left { left with index } := by
          refine .read rfl ?_
          split
          · exact .done same
          · exact .ofExcept same fun _ _ => same.publishIntegrityGeneration _
        refine .bind trusts fun _ _ _ _ alike => ?_
        split
        · exact .ofExcept alike fun _ _ => .ofExcept alike fun _ _ => .done alike
        · exact .ofExcept alike fun _ _ => .ofExcept alike fun _ _ => .done alike
      · refine .ofExcept same fun _ _ => .ofExcept same fun _ _ => .ofExcept same fun _ _ => ?_
        split
        · exact .done same
        · exact .fail same

theorem SameSeries.readRange (same : SameSeries place left right) (contained : Contained left left)
    (here : left.directory = place) (pending : Nat → Bool) (store : SegmentStore)
    (start stop : Option Int) : Blind place (readRange F pending store start stop) left right :=
  .bind (same.recoverSeries contained here _) fun _ _ _ _ alike =>
    alike.readRangeLocked pending store start stop

end Reads

end Alike

end MarketdataProvider
