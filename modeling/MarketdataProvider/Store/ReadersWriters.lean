import MarketdataProvider.Foundation.Sessions
import MarketdataProvider.Store.Agreement

namespace MarketdataProvider

open Foundation Foundation.Crash

section Series

variable [PyText] {F : Type} [PyFloat F] [Sha256] [Parquet]

section Generations

variable {found : Option RawManifest} {normal : SeriesKey} {state after : SeriesState}
  {stored bars : List (MarketBar F)} {value : Option (List (MarketBar F))}

/-- The bars of the generation on disk, if there is one. -/
def Shows (normal : SeriesKey) (value : Option (List (MarketBar F))) (state : SeriesState) : Prop :=
  match value with
  | none => state.manifest = none
  | some bars => ∃ raw bytes, state.manifest = some raw ∧ Generation normal raw bars bytes ∧
      ∀ format, state.data (.bars format) = oneFile (some raw.toManifest.dataFormat) bytes format

/-- A sound series of these bars, which a rollback can rewrite with its defaults. -/
structure SoundAt (found : Option RawManifest) (normal : SeriesKey) (value : Option (List (MarketBar F)))
    (state : SeriesState) : Prop where
  sound : Sound F found normal state
  legible : Legible F state
  shows : Shows normal value state

/-- However often a recovery dies, the series ends with these bars. -/
abbrev Committed (found : Option RawManifest) (normal : SeriesKey) (value : Option (List (MarketBar F))) :
    SeriesState → Prop :=
  Prog.Recovers recoverSeries (SoundAt found normal value)

theorem SoundAt.committed (sound : SoundAt found normal value state) : Committed found normal value state :=
  Prog.Recovers.of_stays (recoverSeries_quiet _ sound.sound.quiet.1 sound.sound.quiet.2) sound

theorem SoundAt.onlyRead (sound : SoundAt found normal value state) (read : OnlyRead state after) :
    SoundAt found normal value after := by
  have shows := sound.shows
  refine ⟨sound.sound.onlyRead read, sound.legible.onlyRead read, ?_⟩
  rw [read]
  cases value with
  | none => exact shows
  | some bars => exact shows

theorem SoundAt.untouched (sound : SoundAt found normal value state) (untouched : Untouched state after) :
    SoundAt found normal value after := by
  have files (format : SegmentFormat) : after.data (.bars format) = state.data (.bars format) :=
    SeriesState.data_of_file (untouched.bars format)
  refine ⟨sound.sound.untouched untouched, ?_, ?_⟩
  · intro raw bytes named csv data
    exact sound.legible raw bytes (untouched.manifest.symm.trans named) csv ((files .csv).symm.trans data)
  · have shows := sound.shows
    cases value with
    | none => exact untouched.manifest.trans shows
    | some bars =>
        obtain ⟨raw, bytes, named, generation, data⟩ := shows
        exact ⟨raw, bytes, untouched.manifest.trans named, generation,
          fun format => (files format).trans (data format)⟩

/-- A manifest with all its fields is legible. -/
theorem Sound.legible_asdict (sound : Sound F found normal state) {manifest : SegmentManifest}
    (named : state.manifest = some manifest.asdict) : Legible F state := by
  intro raw bytes same csv data
  have valid := sound.validates same csv data
  obtain rfl := Option.some.inj (named.symm.trans same)
  exact valid

/-- A sound series shows the bars of its generation, or none. -/
theorem Sound.shows (sound : Sound F found normal state) (legible : Legible F state) :
    ∃ value : Option (List (MarketBar F)), SoundAt found normal value state := by
  cases named : state.manifest with
  | none => exact ⟨none, sound, legible, named⟩
  | some raw =>
      obtain ⟨-, -, bars, bytes, generation, files⟩ := sound.present raw named
      exact ⟨some bars, sound, legible, raw, bytes, named, generation, files⟩

end Generations

section Replace

variable {found : Option RawManifest} {normal : SeriesKey} {state after : SeriesState}
  {bars : List (MarketBar F)} {value : Option (List (MarketBar F))} {commit : ReplaceCommit}

theorem SoundAt.rolledBack (sound : SoundAt found normal value state) (origin : commit.origin = state)
    (raw : commit.raw = state.manifest) (key : commit.key = normal) (rolled : commit.RolledBack after) :
    SoundAt found normal value after := by
  have still := sound.sound.rolledBack sound.legible origin raw key rolled
  have restored : after.manifest = state.manifest.map fun raw => raw.toManifest.asdict := by
    rw [rolled.manifest, ReplaceCommit.old, raw, Option.map_map]
    rfl
  have shows := sound.shows
  cases value with
  | none =>
      rw [show state.manifest = none from shows] at restored
      refine ⟨still, ?_, restored⟩
      intro manifest bytes named
      rw [restored] at named
      cases named
  | some bars =>
      obtain ⟨manifest, bytes, named, generation, files⟩ := shows
      rw [named, Option.map_some] at restored
      refine ⟨still, still.legible_asdict restored, manifest.toManifest.asdict, bytes, restored,
        Sound.generation_asdict sound.legible named generation files, ?_⟩
      subst origin
      intro format
      refine Eq.trans ?_ (files format)
      rw [SeriesState.data, rolled.bars, SeriesState.data, commit.origin_bars, oneFile, oneFile]
      split
      · rw [Option.map_some, Option.map_some, commit.kept_bytes]
        rfl
      · rfl

/-- A completed replacement shows the bars of its bytes. -/
theorem SoundAt.of_completed {bytes : List UInt8} (sound : Sound F found normal after)
    (generation : Generation normal commit.new.asdict bars bytes) (completed : commit.Completed bytes after) :
    SoundAt found normal (some bars) after := by
  have named : after.manifest = some commit.new.asdict := congrArg SeriesImage.manifest completed.image
  exact ⟨sound, sound.legible_asdict named, commit.new.asdict, bytes, named, generation,
    fun format => congrFun (congrArg SeriesImage.data completed.image) format⟩

/-- A commit of the manifest that is there already, with the bytes that are there. -/
theorem SoundAt.repeated (sound : SoundAt found normal value state) (origin : commit.origin = state)
    (raw : commit.raw = state.manifest) {manifest : RawManifest} (named : state.manifest = some manifest)
    (same : manifest.toManifest = commit.new) (reached : Sound F found normal after)
    (completed : commit.Completed commit.oldBytes after) : SoundAt found normal value after := by
  have shows := sound.shows
  cases value with
  | none =>
      rw [show state.manifest = none from shows] at named
      cases named
  | some bars =>
      obtain ⟨shown, bytes, present, generation, files⟩ := shows
      obtain rfl := Option.some.inj (named.symm.trans present)
      have own : commit.oldFormat = some manifest.toManifest.dataFormat := by
        rw [ReplaceCommit.oldFormat, ReplaceCommit.old, raw, named]
        rfl
      have live := (files manifest.toManifest.dataFormat).trans (oneFile_self _ _)
      rw [← origin, SeriesState.data_eq_some (commit.origin_live own), Option.some.injEq] at live
      subst live
      have renamed := Sound.generation_asdict sound.legible named generation files
      rw [same] at renamed
      exact .of_completed reached renamed completed

variable {planned : Except PyError ReplacePlan}

/-- What a crash leaves: the generation from before, or another one that the operation makes. -/
def Leaves (found : Option RawManifest) (normal : SeriesKey) (value : Option (List (MarketBar F)))
    (makes : Option (List (MarketBar F)) → Prop) (crash : SeriesState) : Prop :=
  ∃ last, (last = value ∨ makes last) ∧ Committed found normal last crash

/-- What a completed operation leaves. -/
def Made (found : Option RawManifest) (normal : SeriesKey) (makes : Option (List (MarketBar F)) → Prop)
    (after : SeriesState) : Prop :=
  ∃ last, makes last ∧ SoundAt found normal last after

/-- A replacement leaves the bars from before or those of its plan. -/
theorem SoundAt.runPlan (sound : SoundAt found normal value state) (store : SegmentStore)
    (sane : ∀ plan, planned = .ok plan → PlanSound F normal plan)
    (planOf : ∀ plan, planned = .ok plan → ∀ bytes, plan.content = .ok bytes →
      Generation normal plan.manifest.asdict bars bytes) :
    Prog.Keeps (Leaves found normal value (· = some bars)) (fun _ => Made found normal (· = some bars))
      (runPlan store planned) state := by
  obtain ⟨live, replaceable⟩ := sound.sound.replaceable
  refine (replaceable.runPlan store fun plan made => (sane plan made).insertable).weaken ?_ ?_
  · rintro crash (⟨untouched, -⟩ | ⟨plan, made, commit, of, decided⟩)
    · exact ⟨value, .inl rfl, (sound.untouched untouched).committed⟩
    · have key : commit.key = normal := by
        rw [ReplaceCommit.key, of.new]
        exact (sane plan made).key
      have completed {bytes : List UInt8} {last : SeriesState} (forward : commit.ForwardBytes plan.content bytes)
          (completed : commit.Completed bytes last) : Sound F found normal last :=
        sound.sound.completed of (sane plan made) forward completed
      rcases decided with ⟨unpublished, pending, -⟩ | ⟨bytes, forward, rolls⟩
      · refine ⟨value, .inl rfl, (Prog.Recovers.of_guarded
          (fun entry other (back : commit.RollsBack other) => back.recoverSeries unpublished entry)
          (pending.rollsBack unpublished)).weaken ?_⟩
        rintro last (rolled | ⟨same, done⟩)
        · exact sound.rolledBack of.origin of.raw key rolled
        · rw [ReplaceCommit.old, of.raw] at same
          obtain ⟨manifest, named, reading⟩ := Option.map_eq_some_iff.mp same
          have reached := sound.sound.undone sound.legible of.origin of.raw key
            (.inr ⟨by rw [ReplaceCommit.old, of.raw, named, Option.map_some, reading], done⟩)
          exact sound.repeated of.origin of.raw named reading reached done
      · rcases forward with content | ⟨same, rfl⟩
        · have generation := planOf plan made bytes content
          rw [← of.new] at generation
          refine ⟨some bars, .inr rfl, (Prog.Recovers.of_guarded
            (fun entry other (forward : commit.RollsForward bytes other) => forward.recoverSeries entry)
            rolls).weaken fun last done => ?_⟩
          exact .of_completed (completed (.inl content) done) generation done
        · refine ⟨value, .inl rfl, (Prog.Recovers.of_guarded
            (fun entry other (forward : commit.RollsForward _ other) => forward.recoverSeries entry)
            rolls).weaken fun last done => ?_⟩
          exact sound.repeated of.origin of.raw (of.raw.symm.trans same) (toManifest_asdict _)
            (completed (.inr ⟨same, rfl⟩) done) done
  · rintro manifest last ⟨plan, made, -, commit, of, bytes, content, done⟩
    have generation := planOf plan made bytes content
    rw [← of.new] at generation
    exact ⟨some bars, rfl, .of_completed (sound.sound.completed of (sane plan made) (.inl content) done)
      generation done⟩

end Replace

section Append

variable {found : Option RawManifest} {normal key : SeriesKey} {state after : SeriesState}
  {stored bars : List (MarketBar F)} {journal : AppendJournal} {payload : List UInt8}

/-- The CSV file of a sound series shows its bars. -/
theorem Sound.shows_csv (sound : Sound F found normal after) {manifest : SegmentManifest}
    (named : after.manifest = some manifest.asdict) (csv : manifest.dataFormat = .csv)
    (generation : Generation normal manifest.asdict bars (csvFile bars))
    (data : after.data (.bars .csv) = some (csvFile bars)) : SoundAt found normal (some bars) after := by
  refine ⟨sound, sound.legible_asdict named, manifest.asdict, _, named, generation, fun format => ?_⟩
  obtain ⟨-, -, _, bytes, -, files⟩ := sound.present _ named
  rw [toManifest_asdict, csv] at files ⊢
  have own := (files .csv).symm.trans data
  rw [oneFile_self, Option.some.injEq] at own
  rw [files format, own]

/-- A journaled append leaves the bars from before or the merged ones. -/
theorem SoundAt.commitAppend (sound : SoundAt found normal (some stored) state)
    (lasting : ∀ bar ∈ bars, bar.Lasting) (planned : appendPlan state key bars = .ok (.commit journal payload)) :
    Prog.Keeps (Leaves found normal (some stored) (· = some (mergeNewer stored bars)))
      (fun _ => Made found normal (· = some (mergeNewer stored bars))) (commitAppend journal payload) state := by
  obtain ⟨recovers, ends⟩ := sound.sound.commitAppend lasting planned
  obtain ⟨_, raw, _, _, _, named, csv, _, current, _⟩ := appendPlan_commit planned
  obtain ⟨shown, bytes, present, generation, files⟩ := sound.shows
  obtain rfl := Option.some.inj (named.symm.trans present)
  obtain ⟨-, rfl⟩ := generation.csvSeries csv
  have data := files .csv
  rw [csv, oneFile_self] at data
  obtain ⟨new, isCsv, appended⟩ := generation.appended csv named data lasting planned
  obtain ⟨commit, rfl, rfl, rfl, rfl⟩ :=
    appendPlan_appendCommit sound.sound.quiet named generation.spans.insertable planned
  have oldBytes : commit.bytes = csvFile stored := by
    have kept := commit.present
    rw [data, Option.some.injEq] at kept
    exact kept.symm
  have undone (last : SeriesState) (reached : Sound F found normal last) (undone : commit.Undone last) :
      SoundAt found normal (some stored) last := by
    rcases undone with rfl | rolled
    · exact sound
    · have old := Sound.generation_asdict sound.legible named generation files
      rw [commit.reading] at old csv
      obtain ⟨_, _, file, _⟩ := rolled.file
      refine reached.shows_csv rolled.manifest csv old ?_
      rw [SeriesState.data_eq_some file, oldBytes]
  have completed (last : SeriesState) (reached : Sound F found normal last) (completed : commit.Completed last) :
      SoundAt found normal (some (mergeNewer stored bars)) last := by
    have image := completed.image
    apply reached.shows_csv (congrArg CsvImage.manifest image) isCsv new
    rw [← appended, ← oldBytes]
    exact congrArg CsvImage.csv image
  obtain ⟨safe, finishes⟩ := commit.commitAppend.partially
  refine ⟨fun crash visited => ?_, fun manifest last returned => ?_⟩
  · have kept := recovers crash visited sound.legible
    rcases safe crash visited with back | forward
    · refine ⟨some stored, .inl rfl, ?_⟩
      have back := Prog.Recovers.of_guarded
        (fun entry other (holds : commit.RollsBack other) => holds.recoverSeries entry) back
      exact (Prog.Recovers.and kept back).weaken fun last both => undone last both.1 both.2
    · refine ⟨some (mergeNewer stored bars), .inr rfl, ?_⟩
      have forward := Prog.Recovers.of_guarded
        (fun entry other (holds : commit.RollsForward other) => holds.recoverSeries entry) forward
      exact (Prog.Recovers.and kept forward).weaken fun last both => completed last both.1 both.2
  · exact ⟨_, rfl, completed last (ends manifest last returned) (finishes manifest last returned).2⟩

end Append

section Read

variable {found : Option RawManifest} {normal : SeriesKey} {state after : SeriesState}
  {bars : List (MarketBar F)} {value : Option (List (MarketBar F))}

/-- The bars as a read gives them, or none when there is no series. -/
def Served (value : Option (List (MarketBar F))) (read : List (MarketBar F)) : Prop :=
  (value.getD []).mapM normalizedBar = .ok read

/-- A read without a range is the read of the whole series. -/
theorem readRangeLocked_whole (pending : Nat → Bool) (store : SegmentStore) :
    readRangeLocked F pending store none none = readAllLocked F store := by
  have whole (bars : List (MarketBar F)) : bars.filter (inRange none none) = bars :=
    List.filter_eq_self.mpr fun _ _ => rfl
  refine congrArg (Prog.read >>= ·) (funext fun state => ?_)
  cases state.manifest with
  | none => rfl
  | some manifest =>
      refine congrArg (Prog.ofExcept (validateManifestContract manifest) >>= ·) (funext fun _ => ?_)
      dsimp only
      split
      · rfl
      · generalize manifest.dataFormat.getD store.dataFormat = format
        cases state.data (.bars format) with
        | none => rfl
        | some bytes =>
            cases format with
            | csv => simp only [whole, Option.isSome_none, Bool.false_eq_true, or_self, if_false]
            | parquet => simp only [whole]

/-- A read of the whole series gives the bars of its generation. -/
theorem SoundAt.served (sound : SoundAt found normal value state) (store : SegmentStore) :
    Prog.Returns (fun bars _ => Served value bars) (readAllLocked F store) state := by
  refine .read trivial ?_
  have shows := sound.shows
  cases value with
  | none =>
      have absent : state.manifest = none := shows
      rw [absent]
      change Prog.Keeps (fun _ => True) _ (if _ then _ else _) state
      split
      · exact .fail trivial
      · exact .done trivial rfl
  | some stored =>
      obtain ⟨raw, bytes, named, generation, files⟩ := shows
      obtain ⟨normalized, normal⟩ := normalized_of_timeframes generation.timeframes
      have storable : ∀ bar ∈ stored, bar.Storable := fun bar member => (generation.lasting bar member).toStorable
      rw [named]
      refine .ofExcept trivial fun _ _ => ?_
      dsimp only
      split
      · exact .fail trivial
      · rename_i single
        split
        · -- The own data file is there, under this format or under the other one.
          rename_i absent
          have own := (files raw.toManifest.dataFormat).trans (oneFile_self _ _)
          rcases eq_or_otherFormat (raw.dataFormat.getD store.dataFormat) raw.toManifest.dataFormat with same | other
          · rw [same, absent] at own
            cases own
          · rw [other] at own
            rw [own] at single
            exact absurd rfl single
        · rename_i content _ present csv
          refine .bind (Prog.Keeps.any _ _) fun _ after _ => ?_
          refine .ofExcept trivial fun read reads => .ofExcept trivial fun _ _ => .done trivial ?_
          rw [csv, files] at present
          obtain ⟨isCsv, rfl⟩ := oneFile_eq_some present
          have written := generation.content
          rw [← isCsv] at written
          obtain rfl := Except.ok.inj written
          rw [readCsv_of_storable normal storable] at reads
          obtain rfl := Except.ok.inj reads
          exact normal
        · rename_i content _ present parquet
          refine .ofExcept trivial fun read reads => .ofExcept trivial fun _ _ => .ofExcept trivial fun _ _ => ?_
          rw [parquet, files] at present
          obtain ⟨isParquet, rfl⟩ := oneFile_eq_some present
          have written := generation.content
          rw [← isParquet] at written
          obtain rfl := readParquet_of_storable normal storable written reads
          split
          · exact .done trivial normal
          · exact .fail trivial

/-- A read leaves the series as it was, and gives its bars. -/
theorem SoundAt.readAllLocked (sound : SoundAt found normal value state) (store : SegmentStore) :
    Prog.Keeps (OnlyRead state) (fun bars after => SoundAt found normal value after ∧ Served value bars ∧
      ∀ bar ∈ bars, bar.Lasting) (readAllLocked F store) state := by
  obtain ⟨only, lasting⟩ := sound.sound.readAllLocked store
  refine ⟨only, fun bars after returned => ?_⟩
  obtain ⟨read, lasts⟩ := lasting bars after returned
  exact ⟨sound.onlyRead read, (sound.served store).2 bars after returned, lasts⟩

end Read

section Operations

variable {found : Option RawManifest} {normal key : SeriesKey} {state after : SeriesState}
  {bars : List (MarketBar F)} {value : Option (List (MarketBar F))}
  {makes wider : Option (List (MarketBar F)) → Prop}

/-- The programs that leave the bars from before wherever they stop, or bars that they make. -/
abbrev Replaces {Result : Type} (found : Option RawManifest) (normal : SeriesKey)
    (value : Option (List (MarketBar F))) (makes : Option (List (MarketBar F)) → Prop)
    (program : StoreProg Result) (state : SeriesState) : Prop :=
  Prog.Keeps (Leaves found normal value makes) (fun _ => Made found normal makes) program state

theorem SoundAt.leaves (sound : SoundAt found normal value state) : Leaves found normal value makes state :=
  ⟨value, .inl rfl, sound.committed⟩

theorem Leaves.mono (leaves : Leaves found normal value makes state) (implies : ∀ last, makes last → wider last) :
    Leaves found normal value wider state := by
  obtain ⟨last, before | made, committed⟩ := leaves
  · exact ⟨last, .inl before, committed⟩
  · exact ⟨last, .inr (implies last made), committed⟩

theorem Replaces.mono {Result : Type} {program : StoreProg Result}
    (replaces : Replaces found normal value makes program state) (implies : ∀ last, makes last → wider last) :
    Replaces found normal value wider program state := by
  refine replaces.weaken (fun _ leaves => leaves.mono implies) ?_
  rintro _ after ⟨last, made, sound⟩
  exact ⟨last, implies last made, sound⟩

/-- The result of an operation is thrown away. -/
theorem Replaces.discard {Result Other : Type} {program : StoreProg Result} (answer : Other)
    (replaces : Replaces found normal value makes program state) :
    Replaces found normal value makes (program >>= fun _ => pure answer) state := by
  refine .bind replaces ?_
  rintro _ after ⟨last, made, sound⟩
  exact .done ⟨last, .inr made, sound.committed⟩ ⟨last, made, sound⟩

theorem SoundAt.replaceAllLocked (sound : SoundAt found normal value state) (store : SegmentStore)
    (dataFormat : Option SegmentFormat) (keyed : normalizedKey key = .ok normal)
    (lasting : ∀ bar ∈ bars, bar.Lasting) :
    Replaces found normal value (· = some (sortByTime bars)) (replaceAllLocked store bars key dataFormat) state := by
  refine sound.runPlan store (fun _ planned => replaceAllPlan_sound keyed lasting planned) ?_
  intro plan planned bytes content
  obtain ⟨valid, other, checksum, named, digested, rfl⟩ := generationPlan_ok planned
  obtain rfl := Except.ok.inj (named.symm.trans keyed)
  have sorted := validateMarketBars_sorted valid
  exact generationManifest_sound sorted (rowsDigest_of_barsChecksum sorted digested)
    (fun bar member => lasting bar (mem_sortByTime.mp member)) content

theorem SoundAt.replaceAllStream (sound : SoundAt found normal value state) (store : SegmentStore)
    (keyed : normalizedKey key = .ok normal) (lasting : ∀ bar ∈ bars, bar.Lasting) :
    Replaces found normal value (· = some bars)
      (MarketdataProvider.runPlan store (replaceAllStreamPlan bars key)) state := by
  refine sound.runPlan store (fun _ planned => replaceAllStreamPlan_sound keyed lasting planned) ?_
  intro plan planned bytes same
  obtain ⟨other, digest, named, streamed, made, content⟩ := replaceAllStreamPlan_ok planned
  obtain rfl := Except.ok.inj (named.symm.trans keyed)
  obtain ⟨-, sorted, updates, updated, rfl⟩ := streamBars_ok streamed
  have digested : rowsDigest .v4 bars = .ok (hexDigest updates.flatten) := by
    rw [rowsDigest, updated]
    rfl
  rw [made]
  exact generationManifest_sound sorted digested lasting (content.symm.trans same)

theorem SoundAt.appendStrictlyNewerLocked (sound : SoundAt found normal value state) (store : SegmentStore)
    (keyed : normalizedKey key = .ok normal) (lasting : ∀ bar ∈ bars, bar.Lasting) :
    Replaces found normal value (· = some (mergeNewer (value.getD []) bars))
      (appendStrictlyNewerLocked store bars key) state := by
  refine .read sound.leaves (.ofExcept sound.leaves fun plan planned => ?_)
  cases plan with
  | keep manifest =>
      obtain ⟨incoming, raw, accepted, named, -, rfl, repeated⟩ := appendPlan_keep planned
      obtain rfl := validatedAppendBars_eq accepted
      cases value with
      | none =>
          rw [show state.manifest = none from sound.shows] at named
          cases named
      | some stored =>
          obtain ⟨shown, _, present, generation, _⟩ := sound.shows
          obtain rfl := Option.some.inj (named.symm.trans present)
          have same : mergeNewer stored bars = stored :=
            mergeNewer_repeated fun bar member => generation.spans.endTime.symm.trans (repeated bar member)
          exact .done sound.leaves ⟨some stored, congrArg some same.symm, sound⟩
  | replaceAll incoming =>
      obtain ⟨accepted, absent⟩ := appendPlan_replaceAll planned
      have ascends := validatedAppendBars_sorted accepted
      obtain rfl := validatedAppendBars_eq accepted
      have given : ∀ bar ∈ dropRepeats none bars, bar.Lasting :=
        fun bar member => lasting bar (mem_dropRepeats member)
      have replaced := sound.replaceAllLocked store (some .csv) keyed given
      refine replaced.mono ?_
      rintro last rfl
      cases value with
      | none =>
          rw [sortByTime_eq_self ascends]
          exact congrArg some (by simp [mergeNewer])
      | some stored =>
          obtain ⟨_, _, present, -, -⟩ := sound.shows
          rw [absent] at present
          cases present
  | commit journal payload =>
      cases value with
      | none =>
          obtain ⟨_, _, _, _, _, named, -⟩ := appendPlan_commit planned
          rw [show state.manifest = none from sound.shows] at named
          cases named
      | some stored => exact sound.commitAppend lasting planned

/-- What follows a read starts from the same bars. -/
theorem SoundAt.reading {Result : Type} (sound : SoundAt found normal value state) (store : SegmentStore)
    {rest : List (MarketBar F) → StoreProg Result}
    (next : ∀ read last, SoundAt found normal value last → Served value read →
      (∀ bar ∈ read, bar.Lasting) →
      Replaces found normal value makes (rest read) last) :
    Replaces found normal value makes (MarketdataProvider.readAllLocked F store >>= rest) state := by
  refine .bind ((sound.readAllLocked store).weaken (fun _ read => (sound.onlyRead read).leaves)
    fun _ _ result => result) ?_
  rintro read last ⟨again, served, lasting⟩
  exact next read last again served lasting

theorem SoundAt.upsertClosedLocked (sound : SoundAt found normal value state) (store : SegmentStore)
    {bar : MarketBar F} (keyed : normalizedKey bar.key = .ok normal) (lasting : bar.Lasting) :
    Replaces found normal value
      (fun last => ∃ read, Served value read ∧ last = some (sortByTime (insertByTime read bar)))
      (upsertClosedLocked store bar) state := by
  refine sound.reading store fun read last again served stored => .ofExcept again.leaves fun _ _ => ?_
  have every : ∀ other ∈ insertByTime read bar, other.Lasting := by
    intro other member
    rcases mem_insertByTime member with old | rfl
    · exact stored other old
    · exact lasting
  refine (again.replaceAllLocked store none keyed every).mono ?_
  rintro new rfl
  exact ⟨read, served, rfl⟩

end Operations

section Sessions

variable {found : Option RawManifest} {normal key : SeriesKey} {state after : SeriesState}
  {value : Option (List (MarketBar F))} {makes : Option (List (MarketBar F)) → Prop}

/-- A crash of a recovery is the same series, still to be recovered. -/
theorem Committed.visited (committed : Committed found normal value state) (entry : RecoveryEntry)
    {crash : SeriesState} (visited : crash ∈ (recoverSeries entry).visits state) :
    Committed found normal value crash :=
  fun later crashes again => committed later (.head ⟨entry, visited⟩ crashes) again

theorem Committed.recovered (committed : Committed found normal value state) (entry : RecoveryEntry) :
    Prog.Keeps (Leaves found normal value makes) (fun _ => SoundAt found normal value)
      (recoverSeries entry) state := by
  refine ⟨fun crash visited => ⟨value, .inl rfl, committed.visited entry visited⟩, fun _ last returned => ?_⟩
  obtain ⟨_, ran, sound⟩ := committed state .refl entry
  rw [returned] at ran
  cases ran
  exact sound

/-- A writer recovers the series before it writes. -/
theorem Committed.session {Result : Type} (committed : Committed found normal value state)
    {write : StoreProg Result}
    (writes : ∀ last, SoundAt found normal value last → Replaces found normal value makes write last) :
    Replaces found normal value makes (recoverSeries .seriesLock >>= fun _ => write) state :=
  .bind (committed.recovered .seriesLock) fun _ last sound => writes last sound

/-- A committed series without a journal needs no recovery. -/
theorem Committed.sound (committed : Committed found normal value state)
    (append : state.appendJournal = none) (replace : state.replaceJournal = none) :
    SoundAt found normal value state := by
  obtain ⟨-, _, _, quiet, rfl⟩ := recoverSeries_quiet state append replace .seriesLock
  obtain ⟨_, ran, sound⟩ := committed _ .refl .seriesLock
  rw [quiet] at ran
  cases ran
  exact sound

/-- A duplicate is what a read of its time gives. -/
def Holds (found : Option RawManifest) (normal : SeriesKey) (value : Option (List (MarketBar F)))
    (pending : Nat → Bool) (store : SegmentStore) (bar : MarketBar F) : Prop :=
  ∃ existing state, SoundAt found normal value state ∧
    ((getLocked F pending store bar.time).run state).1 = .ok (some existing) ∧
      compareClosed existing bar = .ok .duplicate

/-- What the operations make of the bars. -/
def StoreOp.Makes (found : Option RawManifest) (normal : SeriesKey) (store : SegmentStore)
    (value last : Option (List (MarketBar F))) : StoreOp F → Prop
  | replaceAll _ bars _ => last = some (sortByTime bars)
  | replaceAllStream _ bars => last = some bars
  | appendStrictlyNewer _ bars => last = some (mergeNewer (value.getD []) bars)
  | upsertClosed bar => ∃ read, Served value read ∧ last = some (sortByTime (insertByTime read bar))
  | commitClosed pending bar =>
      last = some (mergeNewer (value.getD []) [bar]) ∨
        (∃ read, Served value read ∧ last = some (sortByTime (insertByTime read bar))) ∨
          last = value ∧ Holds found normal value pending store bar
  | compact _ _ => ∃ read, Served value read ∧ last = some (sortByTime read)

/-- `commit_closed` in its three branches: the tail, a candle that is there, a candle that is not. -/
theorem Committed.commitClosed (committed : Committed found normal value state) (pending : Nat → Bool)
    (store : SegmentStore) {bar : MarketBar F} (keyed : normalizedKey bar.key = .ok normal)
    (lasting : ∀ given ∈ [bar], given.Lasting) :
    Replaces found normal value (fun last => (StoreOp.commitClosed pending bar).Makes found normal store value last)
      (commitClosed pending store bar) state := by
  refine committed.session fun last sound => .read sound.leaves ?_
  split
  · have appended := sound.appendStrictlyNewerLocked store keyed lasting
    exact (appended.mono fun _ made => .inl made).discard CommitStatus.committed
  · have looks : Prog.Keeps (OnlyRead last) (fun _ => OnlyRead last) (getLocked F pending store bar.time) last :=
      .bind (readRangeLocked_onlyRead pending store last _ _) fun _ _ only => .done only only
    refine .bind (looks.returned.weaken (fun _ only => (sound.onlyRead only).leaves)
      fun _ _ result => result) ?_
    rintro existing there ⟨got, only⟩
    have again := sound.onlyRead only
    cases existing with
    | some existing =>
        dsimp only
        cases compared : compareClosed existing bar with
        | error error => exact .fail again.leaves
        | ok status =>
            cases status with
            | committed =>
                unfold compareClosed at compared
                simp only [bind_eq_ok] at compared
                obtain ⟨_, -, _, -, compared⟩ := compared
                split at compared
                · cases compared
                · cases compared
            | duplicate =>
                have held : Holds found normal value pending store bar :=
                  ⟨existing, last, sound, congrArg Prod.fst got, compared⟩
                exact .done again.leaves ⟨value, .inr (.inr ⟨rfl, held⟩), again⟩
    | none =>
        have inserted := again.upsertClosedLocked store keyed (lasting bar List.mem_cons_self)
        exact (inserted.mono fun _ made => .inr (.inl made)).discard CommitStatus.committed

/-- An operation on a committed series leaves it as it was or as the operation makes it. -/
theorem Committed.replaces (committed : Committed found normal value state) (store : SegmentStore)
    (op : StoreOp F) (keyed : normalizedKey op.series = .ok normal) (lasting : ∀ bar ∈ op.given, bar.Lasting) :
    Replaces found normal value (fun last => op.Makes found normal store value last) (op.program store) state := by
  cases op with
  | replaceAll key bars dataFormat =>
      refine Replaces.discard () (committed.session fun last sound => ?_)
      exact sound.replaceAllLocked store dataFormat keyed lasting
  | replaceAllStream key bars =>
      refine Replaces.discard () (committed.session fun last sound => ?_)
      exact sound.replaceAllStream store keyed lasting
  | appendStrictlyNewer key bars =>
      refine Replaces.discard () (committed.session fun last sound => ?_)
      exact sound.appendStrictlyNewerLocked store keyed lasting
  | upsertClosed bar =>
      refine Replaces.discard () (committed.session fun last sound => ?_)
      exact sound.upsertClosedLocked store keyed (lasting bar List.mem_cons_self)
  | commitClosed pending bar =>
      exact (committed.commitClosed pending store keyed lasting).discard ()
  | compact key dataFormat =>
      refine Replaces.discard () (committed.session fun last sound => ?_)
      refine sound.reading store fun read there again served stored => ?_
      refine (again.replaceAllLocked store dataFormat keyed stored).mono ?_
      rintro new rfl
      exact ⟨read, served, rfl⟩

end Sessions

section Readers

variable {found : Option RawManifest} {normal : SeriesKey} {state : SeriesState}
  {value : Option (List (MarketBar F))}

/-- The reads of a series under the reader lock. -/
inductive StoreRead where
  | readAll (pending : Nat → Bool) (start stop : Option Int)
  | iterAll (pending : Nat → Bool) (start stop : Option Int)

namespace StoreRead

def program (F : Type) [PyFloat F] (store : SegmentStore) : StoreRead → StoreProg (List (MarketBar F))
  | readAll pending start stop => readRangeLocked F pending store start stop
  | iterAll pending start stop => iterAllLocked F pending store start stop

end StoreRead

/-- What a task under the series lock gives: a reader that meets a journal tries again after a recovery. -/
inductive SeriesAnswer (F : Type) where
  | completed
  | pendingJournal
  | bars (read : List (MarketBar F))

/-- One try of `stable_series_read_lock`. -/
def readStable (F : Type) [PyFloat F] (store : SegmentStore) (read : StoreRead) :
    StoreProg (SeriesAnswer F) := do
  let append ← Prog.read
  if append.appendJournal.isSome then return .pendingJournal
  else do
    let replace ← Prog.read
    if replace.replaceJournal.isSome then return .pendingJournal
    else do
      let bars ← read.program F store
      return .bars bars

/-- Readers change the integrity generation at most, and only beside no journal. -/
def Calm (state after : SeriesState) : Prop :=
  OnlyRead state after ∧ (state.Quiescent ∨ after = state)

omit [PyText] [Sha256] [Parquet] in
theorem Calm.equivalence : Equivalence Calm where
  refl _ := ⟨rfl, .inr rfl⟩
  symm := by
    rintro state after ⟨only, quiet | rfl⟩
    · rw [OnlyRead] at only
      refine ⟨by rw [only]; rfl, .inl ?_⟩
      rw [only]
      exact quiet
    · exact ⟨rfl, .inr rfl⟩
  trans := by
    rintro first middle last ⟨early, quiet | rfl⟩ ⟨late, again⟩
    · refine ⟨?_, .inl quiet⟩
      rw [OnlyRead] at early late ⊢
      rw [late, early]
    · exact ⟨late, again⟩

omit [PyText] [Sha256] [Parquet] in
theorem Calm.quiet (calm : Calm state after) (quiet : state.Quiescent) : after.Quiescent := by
  rw [calm.1]
  exact quiet

omit [PyText] [Sha256] [Parquet] in
theorem Calm.publish (quiet : state.Quiescent) (payload : IntegrityGeneration) :
    Calm state { state with generation := some payload } := ⟨rfl, .inl quiet⟩

omit [Parquet] in
/-- The trust of a generation is looked at once; the published one is that of the files. -/
theorem Calm.validateOrTrust {Result : Type} {rest : Unit → StoreProg Result} (quiet : state.Quiescent)
    (manifest : RawManifest) (bytes : List UInt8)
    (blind : ∀ met, Calm state met → Prog.Blind Calm (rest ()) met) :
    Prog.Settles Calm (validateOrTrustCsvGeneration F manifest bytes >>= rest) state := by
  rw [validateOrTrustCsvGeneration, Prog.bind_assoc]
  refine Prog.Settles.look Calm.equivalence fun met waited => ?_
  split
  · exact blind met waited
  · rw [Prog.bind_assoc, publishIntegrityGeneration, Prog.bind_assoc]
    refine Prog.Blind.ofExcept fun _ => ?_
    refine Prog.Blind.read Calm.equivalence (fun other near => ?_) fun there near => ?_
    · rw [near.1]
      rfl
    · rw [Prog.bind_assoc]
      refine Prog.Blind.ofExcept fun payload => ?_
      refine Prog.Blind.modify Calm.equivalence (fun last again => ?_) fun last again => ?_
      · exact .publish ((again.quiet ((near.quiet (waited.quiet quiet))))) payload
      · exact blind last (Calm.equivalence.trans waited (Calm.equivalence.trans near again))

theorem Calm.readRangeLocked (quiet : state.Quiescent) (pending : Nat → Bool) (store : SegmentStore)
    (start stop : Option Int) : Prog.Settles Calm (readRangeLocked F pending store start stop) state := by
  have done {Result : Type} (value : Result) (met : SeriesState) :
      Prog.Settles Calm (Prog.done value : StoreProg Result) met := (Prog.Blind.done value).settles Calm.equivalence
  have fail {Result : Type} (error : PyError) (met : SeriesState) :
      Prog.Settles Calm (Prog.fail error : StoreProg Result) met := (Prog.Blind.fail error).settles Calm.equivalence
  refine Prog.Settles.read Calm.equivalence (fun met waited => ?_) fun met waited => ?_
  · rw [waited.1]
    rfl
  · dsimp only
    split
    · split
      · exact fail _ _
      · exact done _ _
    · refine Prog.Settles.ofExcept Calm.equivalence fun _ => ?_
      split
      · exact fail _ _
      · split
        · exact done _ _
        · refine Calm.validateOrTrust (waited.quiet quiet) _ _ fun _ _ => ?_
          split
          · exact .ofExcept fun _ => .ofExcept fun _ => .done _
          · exact .ofExcept fun _ => .ofExcept fun _ => .done _
        · refine Prog.Blind.settles Calm.equivalence (.ofExcept fun _ => .ofExcept fun _ => .ofExcept fun _ => ?_)
          split
          · exact .done _
          · exact .fail _

theorem Calm.iterAllLocked (quiet : state.Quiescent) (pending : Nat → Bool) (store : SegmentStore)
    (start stop : Option Int) : Prog.Settles Calm (iterAllLocked F pending store start stop) state := by
  refine Prog.Settles.read Calm.equivalence (fun met waited => ?_) fun met waited => ?_
  · rw [waited.1]
    rfl
  · dsimp only
    split
    · split
      · exact (Prog.Blind.fail _).settles Calm.equivalence
      · exact (Prog.Blind.done _).settles Calm.equivalence
    · refine Prog.Settles.ofExcept Calm.equivalence fun _ => ?_
      split
      · exact (Prog.Blind.fail _).settles Calm.equivalence
      · split
        · exact (Prog.Blind.done _).settles Calm.equivalence
        · exact Calm.readRangeLocked (waited.quiet quiet) pending store start stop
        · have blind (outcome : Except PyError (List (MarketBar F))) (there : SeriesState) :
              Prog.Blind Calm (Prog.ofExcept outcome) there := by
            cases outcome with
            | error error => exact .fail error
            | ok bars => exact .done bars
          exact Calm.validateOrTrust (waited.quiet quiet) _ _ fun there _ => blind _ there

theorem StoreRead.settles (quiet : state.Quiescent) (store : SegmentStore) (read : StoreRead) :
    Prog.Settles Calm (read.program F store) state := by
  cases read with
  | readAll pending start stop => exact Calm.readRangeLocked quiet pending store start stop
  | iterAll pending start stop => exact Calm.iterAllLocked quiet pending store start stop

/-- A try of a reader gives one answer, whatever other readers do beside it. -/
theorem readStable_settles (store : SegmentStore) (read : StoreRead) :
    Prog.Settles Calm (readStable F store read) state := by
  refine Prog.Settles.read Calm.equivalence (fun met waited => ?_) fun met waited => ?_
  · rw [waited.1]
  · split
    · exact (Prog.Blind.done _).settles Calm.equivalence
    · rename_i append
      refine Prog.Settles.read Calm.equivalence (fun there near => ?_) fun there near => ?_
      · rw [near.1]
      · split
        · exact (Prog.Blind.done _).settles Calm.equivalence
        · rename_i replace
          have quiet : met.Quiescent := by
            refine ⟨?_, by simpa using replace⟩
            rw [waited.1]
            simpa using append
          exact (read.settles (near.quiet quiet) store).map SeriesAnswer.bars

/-- A reader gives what its read gives alone on a sound series of these bars, or it meets a journal and
tries again. A read of the whole series gives its bars. -/
def ReaderAnswers (found : Option RawManifest) (normal : SeriesKey) (value : Option (List (MarketBar F)))
    (store : SegmentStore) (read : StoreRead) (outcome : Except PyError (SeriesAnswer F)) : Prop :=
  outcome = .ok .pendingJournal ∨
    (∃ state, SoundAt found normal value state ∧
      outcome = ((read.program F store).run state).1.map SeriesAnswer.bars) ∧
    ∀ pending bars, read = .readAll pending none none → outcome = .ok (.bars bars) → Served value bars

theorem Committed.calm (committed : Committed found normal value state) (calm : Calm state after) :
    Committed found normal value after := by
  obtain ⟨only, ⟨append, replace⟩ | rfl⟩ := calm
  · exact ((committed.sound append replace).onlyRead only).committed
  · exact committed

/-- Alone, a try reads exactly when there is no journal. -/
theorem run_readStable (store : SegmentStore) (read : StoreRead) (state : SeriesState) :
    ((readStable F store read).run state).1 =
      if state.appendJournal.isSome ∨ state.replaceJournal.isSome then .ok .pendingJournal
      else ((read.program F store).run state).1.map SeriesAnswer.bars := by
  simp only [readStable, Prog.read_bind, Prog.run_step, id]
  by_cases append : state.appendJournal.isSome
  · rw [if_pos append, if_pos (.inl append)]
    rfl
  · rw [if_neg append]
    by_cases replace : state.replaceJournal.isSome
    · rw [if_pos (.inr replace), Prog.run_step, id, if_pos replace]
      rfl
    · rw [if_neg (not_or.mpr ⟨append, replace⟩), Prog.run_step, id, if_neg replace]
      exact Prog.run_map _ _ _

theorem Committed.answered (committed : Committed found normal value state) {store : SegmentStore}
    {read : StoreRead} {outcome : Except PyError (SeriesAnswer F)} {final : SeriesState}
    (ran : Prog.Beside Calm (readStable F store read) state outcome final) :
    ReaderAnswers found normal value store read outcome := by
  obtain ⟨met, waited, rfl⟩ := (readStable_settles store read).answers outcome final ran
  have there := committed.calm waited
  rw [run_readStable]
  split
  · exact .inl rfl
  · rename_i none
    simp only [not_or, Bool.not_eq_true, Option.isSome_eq_false_iff, Option.isNone_iff_eq_none] at none
    have sound := there.sound none.1 none.2
    refine .inr ⟨⟨met, sound, rfl⟩, ?_⟩
    rintro pending bars rfl returned
    rw [StoreRead.program, readRangeLocked_whole] at returned
    cases ran : (readAllLocked F store).run met with
    | mk result last =>
        rw [ran] at returned
        cases result with
        | error error => cases returned
        | ok read =>
            cases returned
            exact (sound.served store).2 _ last ran

end Readers

section Tasks

variable {found : Option RawManifest} {normal : SeriesKey} {state : SeriesState}
  {value : Option (List (MarketBar F))}

/-- What processes do with one series under its lock: the operations, the recovery that a reader asks
for, the two recoveries of a store that opens, and the reads. -/
inductive SeriesTask (F : Type) [PyText] [PyFloat F] (normal : SeriesKey) where
  | write (store : SegmentStore) (op : StoreOp F) (keyed : normalizedKey op.series = .ok normal)
      (lasting : ∀ bar ∈ op.given, bar.Lasting)
  | recover
  | openAppend
  | openReplace
  | read (store : SegmentStore) (read : StoreRead)

def seriesTasks (F : Type) [PyFloat F] (normal : SeriesKey) :
    Tasks (SeriesTask F normal) SeriesState PyError (SeriesAnswer F) where
  access
    | .read _ _ => .shared
    | _ => .exclusive
  program
    | .write store op _ _ => do
        op.program store
        return .completed
    | .recover => do
        recoverSeries .seriesLock
        return .completed
    | .openAppend => do
        recoverAppendJournal
        return .completed
    | .openReplace => do
        recoverReplacementJournal
        return .completed
    | .read store read => readStable F store read

/-- The same tasks on the bars themselves: a writer that dies or fails changes nothing or everything,
a recovery changes nothing and never fails, a reader sees the bars of one moment. -/
def seriesEffect (found : Option RawManifest) (normal : SeriesKey) :
    Effect (SeriesTask F normal) PyError (SeriesAnswer F) (Option (List (MarketBar F)))
  | .write store op _ _, value, some (.ok _), after => op.Makes found normal store value after
  | .write store op _ _, value, _, after => after = value ∨ op.Makes found normal store value after
  | .recover, value, outcome, after => after = value ∧ ∀ error, outcome ≠ some (.error error)
  | .openAppend, value, _, after => after = value
  | .openReplace, value, _, after => after = value
  | .read store read, value, outcome, after =>
      after = value ∧ ∀ result, outcome = some result → ReaderAnswers found normal value store read result

omit [Sha256] [Parquet] in
/-- The recovery of one journal is part of the recovery of the series; without its journal it only looks. -/
theorem visits_recoverAppendJournal {crash : SeriesState} (visited : crash ∈ recoverAppendJournal.visits state) :
    crash = state ∨ crash ∈ (recoverSeries .constructor).visits state := by
  cases pending : state.appendJournal with
  | none =>
      left
      have looks : Prog.Keeps (· = state) (fun _ _ => True) recoverAppendJournal state := by
        refine .read rfl ?_
        rw [pending]
        exact .fail rfl
      exact looks.1 crash visited
  | some journal =>
      right
      refine Prog.visits_bind_left (List.mem_cons_of_mem _ ?_)
      change crash ∈ Prog.visits (if state.appendJournal.isSome then recoverAppendJournal else _) state
      rw [pending]
      exact visited

omit [Sha256] [Parquet] in
theorem visits_recoverReplacementJournal {crash : SeriesState}
    (visited : crash ∈ recoverReplacementJournal.visits state) :
    crash = state ∨ crash ∈ (recoverSeries .seriesLock).visits state := by
  cases pending : state.replaceJournal with
  | none =>
      left
      have looks : Prog.Keeps (· = state) (fun _ _ => True) recoverReplacementJournal state := by
        refine .read rfl (.ofExcept rfl fun journal valid => ?_)
        rw [validatedJournal, pending] at valid
        cases valid
      exact looks.1 crash visited
  | some journal =>
      right
      refine Prog.visits_bind_left (List.mem_cons_of_mem _ ?_)
      change crash ∈ Prog.visits (if state.replaceJournal.isSome then recoverReplacementJournal else _) state
      rw [pending]
      exact visited

/-- What an exclusive task leaves, wherever it stops. -/
theorem Committed.stopped (committed : Committed found normal value state) {task : SeriesTask F normal}
    (exclusive : (seriesTasks F normal).access task = .exclusive) {crash : SeriesState}
    (visited : crash ∈ ((seriesTasks F normal).program task).visits state) :
    ∃ after, seriesEffect found normal task value none after ∧ Committed found normal after crash := by
  have converted {program : StoreProg Unit} (visited : crash ∈
      (program >>= fun _ => Prog.done (SeriesAnswer.completed : SeriesAnswer F)).visits state) :
      crash ∈ program.visits state := by
    rcases (Prog.mem_visits_bind _ _ _ _).mp visited with early | ⟨_, last, ran, late⟩
    · exact early
    · have final := Prog.final_mem_visits program state
      rw [ran] at final
      rw [Prog.visits, List.mem_singleton] at late
      rwa [late]
  cases task with
  | write store op keyed lasting =>
      obtain ⟨last, reached, still⟩ := (committed.replaces store op keyed lasting).1 crash (converted visited)
      exact ⟨last, reached, still⟩
  | recover => exact ⟨value, ⟨rfl, fun _ failed => by cases failed⟩, committed.visited _ (converted visited)⟩
  | openAppend =>
      refine ⟨value, rfl, ?_⟩
      rcases visits_recoverAppendJournal (converted visited) with rfl | inside
      · exact committed
      · exact committed.visited _ inside
  | openReplace =>
      refine ⟨value, rfl, ?_⟩
      rcases visits_recoverReplacementJournal (converted visited) with rfl | inside
      · exact committed
      · exact committed.visited _ inside
  | read store read => cases exclusive

theorem Committed.ended (committed : Committed found normal value state) {task : SeriesTask F normal}
    (exclusive : (seriesTasks F normal).access task = .exclusive) :
    ∃ after, seriesEffect found normal task value
        (some (((seriesTasks F normal).program task).run state).1) after ∧
      Committed found normal after (((seriesTasks F normal).program task).run state).2 := by
  have last := Prog.final_mem_visits ((seriesTasks F normal).program task) state
  obtain ⟨after, reached, still⟩ := committed.stopped exclusive last
  cases task with
  | write store op keyed lasting =>
      cases made : (op.program store).run state with
      | mk outcome middle =>
          cases outcome with
          | error error =>
              have whole : ((seriesTasks F normal).program (.write store op keyed lasting)).run state =
                  (.error error, middle) := Prog.run_bind_error made
              rw [whole] at still ⊢
              exact ⟨after, reached, still⟩
          | ok done =>
              have whole : ((seriesTasks F normal).program (.write store op keyed lasting)).run state =
                  (.ok .completed, middle) := Prog.run_bind_ok made
              obtain ⟨new, makes, sound⟩ := (committed.replaces store op keyed lasting).2 _ _ made
              rw [whole]
              exact ⟨new, makes, sound.committed⟩
  | recover =>
      obtain ⟨recovered, ran, sound⟩ := committed state .refl .seriesLock
      have whole : ((seriesTasks F normal).program .recover).run state = (.ok .completed, recovered) :=
        Prog.run_bind_ok ran
      rw [whole]
      exact ⟨value, ⟨rfl, fun _ failed => by cases failed⟩, sound.committed⟩
  | openAppend => exact ⟨after, reached, still⟩
  | openReplace => exact ⟨after, reached, still⟩
  | read store read => cases exclusive

/-- A committed series stands for its bars. -/
theorem seriesTasks_standsFor (found : Option RawManifest) (normal : SeriesKey) :
    StandsFor (seriesTasks F normal) (seriesEffect found normal) (Committed (F := F) found normal) Calm where
  stopped _ _ _ exclusive committed _ visited := committed.stopped exclusive visited
  ended _ _ _ exclusive committed := committed.ended exclusive
  same := Calm.equivalence
  kept _ _ _ committed calm := committed.calm calm
  gentle task _ state shared committed := by
    cases task with
    | read store read => exact (readStable_settles store read).gentle
    | write => cases shared
    | recover => cases shared
    | openAppend => cases shared
    | openReplace => cases shared
  answered task _ state outcome final shared committed ran := by
    cases task with
    | read store read =>
        refine ⟨rfl, ?_⟩
        rintro _ ⟨⟩
        exact committed.answered ran
    | write => cases shared
    | recover => cases shared
    | openAppend => cases shared
    | openReplace => cases shared
  left task _ shared := by
    cases task with
    | read store read => exact ⟨rfl, fun _ ended => by cases ended⟩
    | write => cases shared
    | recover => cases shared
    | openAppend => cases shared
    | openReplace => cases shared

/-- Readers, writers, opening stores and recoveries of one series, any number of them, step by step in any
order and dying anywhere: what is seen of them is a sequence of whole tasks on the bars of the series, and
when nobody works the series holds the bars after the last one, up to a recovery. -/
theorem readers_writers_atomic {Party : Type} [DecidableEq Party]
    {start config : Configuration Party (SeriesTask F normal) SeriesState PyError (SeriesAnswer F)}
    {events : List (Event (SeriesTask F normal) PyError (SeriesAnswer F))}
    (idle : ∀ party, start.activity party = .idle) (committed : Committed found normal value start.state)
    (ran : Configuration.Runs (seriesTasks F normal) start events config) :
    ∃ last, Atomic (seriesEffect found normal) value events last ∧
      ((∀ party, config.activity party = .idle) → Committed found normal last config.state) := by
  obtain ⟨last, atomic, explained⟩ := ran.atomic (seriesTasks_standsFor found normal) idle committed
  refine ⟨last, atomic, fun quiet => ?_⟩
  rcases explained with shared | ⟨party, _, _, _, working, -⟩
  · exact shared.stands
  · rw [quiet party] at working
    cases working

end Tasks

end Series

section Witness

open scoped Reference
open Reference

namespace Reference

theorem given_lasting : ∀ bar ∈ (StoreOp.replaceAll series [candle 0] none).given, bar.Lasting := by
  simpa [StoreOp.given] using candle_lasting

/-- A process writes the candle again. -/
def rewriting : SeriesTask Whole series :=
  .write ⟨.csv, true, false⟩ (.replaceAll series [candle 0] none) normalizedKey_series given_lasting

/-- Two processes, and nobody works. -/
def idleProcesses : Configuration Bool (SeriesTask Whole series) SeriesState PyError (SeriesAnswer Whole) :=
  ⟨oneCandle, fun _ => .idle⟩

def reading : SeriesTask Whole series := .read ⟨.csv, true, false⟩ (.readAll (fun _ => false) none none)

end Reference

/-- A writer dies as soon as it has the lock, then one writes the series and another one reads it. -/
theorem readers_writers_atomic_oneCandle : ∃ value outcome answer last config,
    idleProcesses.Runs (seriesTasks Whole series)
      [⟨rewriting, none⟩, ⟨rewriting, some outcome⟩, ⟨reading, some answer⟩] config ∧
    Atomic (seriesEffect oneCandle.manifest series) value
      [⟨rewriting, none⟩, ⟨rewriting, some outcome⟩, ⟨reading, some answer⟩] last ∧
    Committed oneCandle.manifest series last config.state := by
  have sound : Sound Whole oneCandle.manifest series oneCandle :=
    storedCandle_sound rfl rfl (generationManifest_spans _ _ _ _) oneCandle_agrees ⟨0, rfl⟩
  obtain ⟨value, shown⟩ := sound.shows (sound.legible_asdict rfl)
  have died : idleProcesses.Runs (seriesTasks Whole series) [⟨rewriting, none⟩] idleProcesses :=
    .abandoned false rewriting fun _ => rfl
  have wrote := died.trans (.task false rewriting fun _ => rfl)
  have read := wrote.trans (.task true reading fun _ => rfl)
  obtain ⟨last, atomic, stays⟩ := readers_writers_atomic (fun _ => rfl) shown.committed read
  exact ⟨value, _, _, last, _, read, atomic, stays fun _ => rfl⟩

end Witness

end MarketdataProvider
