import MarketdataProvider.Service.StoreCalls
import MarketdataProvider.Store.ClosedPaths

namespace MarketdataProvider

open Foundation Foundation.Crash

variable [PyText] {F : Type} [PyFloat F]

/-- The state behind the service on disk: the files of each series directory, the live rows, and how
often the sources were asked. -/
structure FileWorld (F : Type) where
  files : List String → SeriesState
  current : List (CurrentRow F)
  asked : Nat

/-- A call of one series runs its program on the files of the directory. -/
def onFiles {Value : Type} (disk : FileWorld F) (key : SeriesKey) (program : StoreProg Value) :
    Except PyError Value × FileWorld F :=
  match seriesDirectory key with
  | .error error => (.error error, disk)
  | .ok directory =>
      let ran := program.run (disk.files directory)
      (ran.1, { disk with files := Function.update disk.files directory ran.2 })

def RawManifest.span (raw : RawManifest) : SeriesSpan where
  dataFormat := raw.toManifest.dataFormat
  startTime := raw.toManifest.startTime
  endTime := raw.toManifest.endTime

/-- `manifest_for` reads without recovery. -/
def spanOnDisk : StoreProg (Option SeriesSpan) := do
  let state ← Prog.read
  return state.manifest.map RawManifest.span

def rowsOnDisk (disk : FileWorld F) (rows : Except PyError (List (CurrentRow F))) :
    Except PyError Unit × FileWorld F :=
  match rows with
  | .error error => (.error error, disk)
  | .ok rows => (.ok (), { disk with current := rows })

variable [Sha256] [Parquet]

/-- The service's own read, merge and replacement under the writer lock. -/
def mergeClosed (store : SegmentStore) (bars : List (MarketBar F)) (key : SeriesKey) : StoreProg Unit := do
  recoverSeries .seriesLock
  let current ← readAllLocked F store
  let _ ← replaceAllLocked store (mergeByTime current bars) key none
  return ()

/-- The calls of the service on the files of a store. -/
def handleFiles (environment : Environment F) (pending : Nat → Bool) (store : SegmentStore) :
    Calls.Handler (StoreCall F) StoreCall.Reply PyError (FileWorld F)
  | .readAll key start stop, disk => onFiles disk key (readRange F pending store start stop)
  | .manifestFor key, disk => onFiles disk key spanOnDisk
  | .appendStrictlyNewer key bars, disk =>
      onFiles disk key (appendStrictlyNewer store bars key >>= fun _ => .done ())
  | .mergeClosed key bars, disk => onFiles disk key (mergeClosed store bars key)
  | .commitClosed bar, disk => onFiles disk bar.key (commitClosed pending store bar)
  | .upsertClosed bar, disk => onFiles disk bar.key (upsertClosed store bar >>= fun _ => .done ())
  | .bulkWriteClosed first rest, disk =>
      onFiles disk first.key (bulkWriteClosed pending store first rest)
  | .upsertCurrent bar, disk => rowsOnDisk disk (upsertCurrent disk.current bar)
  | .deleteCurrent bar, disk => rowsOnDisk disk (deleteCurrent disk.current bar)
  | .getCurrent key, disk => (getCurrent disk.current key, disk)
  | .fetch query, disk =>
      (fetchFromSources environment.config environment.now (environment.remote disk.asked) query,
        { disk with asked := disk.asked + 1 })

section Models

variable {store : SegmentStore} {owner : List String → SeriesKey} {disk : FileWorld F} {world : World F}
  {key : SeriesKey} {directory : List String} {Value : Type} {environment : Environment F}
  {pending : Nat → Bool} {bars : List (MarketBar F)} {bar : MarketBar F}

/-- The files of each directory hold the series of the directory. -/
structure Models (store : SegmentStore) (owner : List String → SeriesKey) (disk : FileWorld F)
    (world : World F) : Prop where
  series : ∀ key directory, seriesDirectory key = .ok directory →
    Held store (owner directory) (disk.files directory) (world.series directory)
  current : disk.current = world.current
  asked : disk.asked = world.asked

/-- The world as the files give it back. -/
def World.normalize (world : World F) : World F :=
  { world with series := fun directory => (world.series directory).map ClosedSeries.normalize }

omit [Sha256] [Parquet] in
theorem normalize_setSeries (world : World F) (directory : List String) (series : ClosedSeries F) :
    (world.setSeries directory series).normalize = { world.normalize with
      series := Function.update world.normalize.series directory (some series.normalize) } := by
  refine congrArg (fun series => ({ world with series := series } : World F)) ?_
  funext other
  by_cases same : other = directory
  · subst same
    simp [World.setSeries]
  · simp [World.setSeries, World.normalize, Function.update_of_ne same]

theorem Models.normalize (models : Models store owner disk world) : Models store owner disk world.normalize where
  series key directory placed := by
    have held := models.series key directory placed
    change Held store _ _ ((world.series directory).map ClosedSeries.normalize)
    rw [held.normalize]
    exact held
  current := models.current
  asked := models.asked

/-- One directory has other files, for another series. -/
theorem Models.update (models : Models store owner disk world) {state : SeriesState}
    {stored : Option (ClosedSeries F)} (held : Held store (owner directory) state stored) :
    Models store owner { disk with files := Function.update disk.files directory state }
      { world with series := Function.update world.series directory stored } where
  series other elsewhere placed := by
    by_cases same : elsewhere = directory
    · subst same
      simpa using held
    · simpa [Function.update_of_ne same] using models.series other elsewhere placed
  current := models.current
  asked := models.asked

theorem Models.onlyRead (models : Models store owner disk world) (placed : seriesDirectory key = .ok directory)
    {last : SeriesState} (only : OnlyRead (disk.files directory) last) :
    Models store owner { disk with files := Function.update disk.files directory last } world := by
  have same := models.update ((models.series key directory placed).onlyRead only)
  rwa [Function.update_eq_self] at same

/-- A call that leaves the world can publish generations. -/
theorem Models.looks (models : Models store owner disk world) {program : StoreProg Value}
    {outcome : Option (ClosedSeries F) → Value}
    (reads : ∀ directory, seriesDirectory key = .ok directory →
      ∃ last, program.run (disk.files directory) = (.ok (outcome (world.series directory)), last) ∧
        OnlyRead (disk.files directory) last) :
    (onFiles disk key program).1 = (MarketdataProvider.looks world (outcome <$> world.seriesOf key)).1 ∧
      Models store owner (onFiles disk key program).2
        (MarketdataProvider.looks world (outcome <$> world.seriesOf key)).2.normalize := by
  unfold onFiles World.seriesOf MarketdataProvider.looks
  cases placed : seriesDirectory key with
  | error error => exact ⟨rfl, models.normalize⟩
  | ok directory =>
      obtain ⟨last, ran, only⟩ := reads directory placed
      dsimp only
      rw [ran]
      exact ⟨rfl, (models.onlyRead placed only).normalize⟩

/-- A call that writes one series. -/
theorem Models.writes (models : Models store owner disk world) {program : StoreProg Value}
    {change : Option (ClosedSeries F) → Except PyError (Value × ClosedSeries F)}
    (realises : ∀ directory, seriesDirectory key = .ok directory →
      Prog.Realises (Held store (owner directory)) (world.series directory)
        ((fun made => (made.1, some made.2.normalize)) <$> change (world.series directory)) program
        (disk.files directory)) :
    (onFiles disk key program).1 = (MarketdataProvider.writes world key change).1 ∧
      Models store owner (onFiles disk key program).2
        (MarketdataProvider.writes world key change).2.normalize := by
  unfold onFiles MarketdataProvider.writes
  cases placed : seriesDirectory key with
  | error error => exact ⟨rfl, models.normalize⟩
  | ok directory =>
      have realised := realises directory placed
      dsimp only
      cases made : change (world.series directory) with
      | error error =>
          rw [made] at realised
          obtain ⟨last, raised, held⟩ := realised
          rw [raised]
          have same := models.update held
          rw [Function.update_eq_self] at same
          exact ⟨rfl, same.normalize⟩
      | ok pair =>
          rw [made] at realised
          obtain ⟨last, returned, held⟩ := realised
          rw [returned]
          refine ⟨rfl, ?_⟩
          rw [normalize_setSeries]
          exact models.normalize.update held

/-- What a call needs of the files at its directory. -/
def At (owner : List String → SeriesKey) (disk : FileWorld F) (world : World F) (key : SeriesKey)
    (needs : SeriesState → Option (ClosedSeries F) → Prop) : Prop :=
  ∀ directory, seriesDirectory key = .ok directory → normalizedKey key = .ok (owner directory) ∧
    needs (disk.files directory) (world.series directory)

/-- The bounded reads of a call find what is stored, its bars survive the row codec, and its key is that of
the directory. -/
def StoreCall.Fits (owner : List String → SeriesKey) (pending : Nat → Bool) (disk : FileWorld F) (world : World F) :
    StoreCall F → Prop
  | .readAll key start _ => ∀ directory, seriesDirectory key = .ok directory →
      RangeReads F pending (disk.files directory) start
  | .appendStrictlyNewer key bars => At owner disk world key fun state _ =>
      (∀ bar ∈ bars, bar.Lasting) ∧ (bars ≠ [] → TailReads F state)
  | .mergeClosed key bars => At owner disk world key fun _ _ => ∀ bar ∈ bars, bar.Lasting
  | .commitClosed bar => At owner disk world bar.key fun state stored =>
      bar.Lasting ∧ ClosedReads pending state stored bar.time
  | .upsertClosed bar => At owner disk world bar.key fun _ _ => bar.Lasting
  | .bulkWriteClosed first rest => At owner disk world first.key fun state stored =>
      BulkSafe pending state stored (first :: rest)
  | _ => True

theorem Held.span {normal : SeriesKey} {state : SeriesState} {stored : Option (ClosedSeries F)}
    (held : Held store normal state stored) :
    state.manifest.map RawManifest.span = stored.map ClosedSeries.span := by
  cases stored with
  | none =>
      have absent : state.manifest = none := NoFiles.unnamed held
      rw [absent]
      rfl
  | some series =>
      obtain ⟨raw, written, files⟩ := held
      rw [files.named, Option.map_some, Option.map_some, RawManifest.span, ClosedSeries.span, files.format,
        files.startTime, files.endTime]

/-- `read_all` with the lock around it. -/
theorem Held.readRange {normal : SeriesKey} {state : SeriesState} {stored : Option (ClosedSeries F)}
    (held : Held store normal state stored) (rounding : IntRounding F) {start stop : Option Int}
    (reads : RangeReads F pending state start) :
    ∃ last, (MarketdataProvider.readRange F pending store start stop).run state =
      (.ok (rangeOf stored start stop), last) ∧ OnlyRead state last := by
  rw [MarketdataProvider.readRange, Prog.run_bind_ok (held.recoverSeries .seriesLock)]
  have same : rangeOf stored start stop = (storedBars stored).filter (inRange start stop) := by
    cases stored <;> rfl
  rw [same]
  exact held.readRangeLocked rounding reads

/-- The locked read, merge and replacement. -/
theorem Held.mergeClosed {normal : SeriesKey} {state : SeriesState} {stored : Option (ClosedSeries F)}
    (held : Held store normal state stored) (csv : store.dataFormat = .csv)
    (keyed : normalizedKey key = .ok normal) (lasting : ∀ bar ∈ bars, bar.Lasting) :
    Prog.Realises (Held store normal) stored
      ((fun made => (made.1, some made.2.normalize)) <$> (((), ·) <$> mergeSeries stored bars key))
      (MarketdataProvider.mergeClosed store bars key) state := by
  refine .after (held.recoverSeries .seriesLock) ?_
  obtain ⟨last, ran, only⟩ := held.readAllLocked
  have again := held.onlyRead only
  refine .after ran ?_
  have given : ∀ bar ∈ mergeByTime (storedBars stored) bars, bar.Lasting := by
    intro bar member
    exact (mem_mergeByTime member).elim (lasting bar) (held.lasting bar)
  have replaced := (@Held.replaceAllLocked _ F _ _ _ store normal key last stored _ again none csv keyed
    given).realises ()
  rwa [Functor.map_map] at replaced ⊢

theorem Models.rows (models : Models store owner disk world)
    (change : List (CurrentRow F) → Except PyError (List (CurrentRow F))) :
    (rowsOnDisk disk (change disk.current)).1 = (changesRows world (change world.current)).1 ∧
      Models store owner (rowsOnDisk disk (change disk.current)).2
        (changesRows world (change world.current)).2.normalize := by
  rw [models.current]
  cases change world.current with
  | error error => exact ⟨rfl, models.normalize⟩
  | ok rows => exact ⟨rfl, models.normalize.series, rfl, models.asked⟩

/-- Every call that fits is answered by the files as by the stored series, and leaves files of the series
that the call makes. -/
theorem Models.handle (models : Models store owner disk world) (csv : store.dataFormat = .csv)
    (equality : FloatEquality F) (rounding : IntRounding F) (op : StoreCall F)
    (fits : op.Fits owner pending disk world) :
    (handleFiles environment pending store op disk).1 = (MarketdataProvider.handle environment op world).1 ∧
      Models store owner (handleFiles environment pending store op disk).2
        (MarketdataProvider.handle environment op world).2.normalize := by
  have held {key : SeriesKey} {directory : List String} (placed : seriesDirectory key = .ok directory) :
      Held store (owner directory) (disk.files directory) (world.series directory) :=
    models.series key directory placed
  cases op with
  | readAll key start stop =>
      exact models.looks fun directory placed => (held placed).readRange rounding (fits directory placed)
  | manifestFor key =>
      refine models.looks fun directory placed => ⟨disk.files directory, ?_, rfl⟩
      rw [← (held placed).span]
      rfl
  | appendStrictlyNewer key bars =>
      refine models.writes fun directory placed => ?_
      obtain ⟨keyed, lasting, tail⟩ := fits directory placed
      have appended := ((held placed).appendStrictlyNewer keyed lasting tail).realises ()
      rwa [Functor.map_map] at appended ⊢
  | mergeClosed key bars =>
      refine models.writes fun directory placed => ?_
      obtain ⟨keyed, lasting⟩ := fits directory placed
      exact (held placed).mergeClosed csv keyed lasting
  | commitClosed bar =>
      refine models.writes fun directory placed => ?_
      obtain ⟨keyed, lasting, reads⟩ := fits directory placed
      exact (held placed).commitClosed csv rounding keyed lasting reads.past reads.range
  | upsertClosed bar =>
      refine models.writes fun directory placed => ?_
      obtain ⟨keyed, lasting⟩ := fits directory placed
      have upserted : Refines store (owner directory) (world.series directory)
          (upsertSeries (world.series directory) bar) (upsertClosed store bar) (disk.files directory) :=
        .after ((held placed).recoverSeries .seriesLock) ((held placed).upsertClosedLocked csv keyed lasting)
      have answered := upserted.realises ()
      rwa [Functor.map_map] at answered ⊢
  | bulkWriteClosed first rest =>
      refine models.writes fun directory placed => ?_
      obtain ⟨keyed, safe⟩ := fits directory placed
      exact (held placed).bulkWriteClosed csv equality rounding keyed safe
  | upsertCurrent bar => exact models.rows fun rows => upsertCurrent rows bar
  | deleteCurrent bar => exact models.rows fun rows => deleteCurrent rows bar
  | getCurrent key =>
      refine ⟨?_, models.normalize⟩
      change getCurrent disk.current key = getCurrent world.current key
      rw [models.current]
  | fetch query =>
      refine ⟨?_, models.normalize.series, models.current, congrArg (· + 1) models.asked⟩
      change fetchFromSources _ _ (environment.remote disk.asked) query = _
      rw [models.asked]
      rfl

end Models

end MarketdataProvider
