import MarketdataProvider.Service.MarketDataService
import MarketdataProvider.Service.StoreFiles
import MarketdataProvider.Store.PlainRows

namespace MarketdataProvider

open Foundation Foundation.Crash

section Bars

variable [PyText] {F : Type} [PyFloat F] {bar : MarketBar F} {bars : List (MarketBar F)}
  {stored : Option (ClosedSeries F)} {after : ClosedSeries F} {key : SeriesKey}

/-- A bar whose row survives, is found again by every reader, and is read as the bar it was. -/
structure MarketBar.Faithful (bar : MarketBar F) : Prop where
  lasting : bar.Lasting
  brief : bar.Brief
  normal : bar.Normal

/-- A bar of an extended series is an old one or one of the batch. -/
theorem mem_appendSeries (returned : appendSeries stored bars key = .ok after) (member : bar ∈ after.bars) :
    bar ∈ bars ∨ bar ∈ storedBars stored := by
  cases accepted : validatedAppendBars bars key with
  | error error =>
      rw [appendSeries_of_refused accepted] at returned
      cases returned
  | ok incoming =>
      obtain rfl := validatedAppendBars_eq accepted
      cases stored with
      | none =>
          rw [appendSeries_first accepted] at returned
          rw [(replaceSeries_ok returned).2, mem_sortByTime] at member
          exact .inl (mem_dropRepeats member)
      | some series =>
          rw [appendSeries_of_validated accepted] at returned
          rw [(appendIncoming_ok returned).2.2.1] at member
          rcases List.mem_append.mp member with old | new
          · exact .inr old
          · exact .inl (mem_dropRepeats (List.mem_filter.mp new).1)

theorem mem_mergeSeries (returned : mergeSeries stored bars key = .ok after) (member : bar ∈ after.bars) :
    bar ∈ bars ∨ bar ∈ storedBars stored := by
  rw [(mergeSeries_ok returned).2] at member
  exact mem_mergeByTime member

end Bars

section Tracks

variable [PyText] {F : Type} [PyFloat F] [Sha256] [Parquet] {store : SegmentStore}
  {owner : List String → SeriesKey} {disk : FileWorld F} {world : World F} {key : SeriesKey} {directory : List String} {Value : Type} {value : Value}
  {environment : Environment F} {pending : Nat → Bool} {bars : List (MarketBar F)}
  {fit : List String → MarketBar F → Prop}

/-- The files model the world, their rows are brief, and what is stored is fit for its directory. -/
structure Tracks (store : SegmentStore) (owner : List String → SeriesKey) (fit : List String → MarketBar F → Prop)
    (disk : FileWorld F) (world : World F) : Prop extends Models store owner disk world where
  rows : ∀ key directory, seriesDirectory key = .ok directory → BriefRows F (disk.files directory)
  stored : ∀ key directory, seriesDirectory key = .ok directory →
    ∀ bar ∈ storedBars (world.series directory), bar.Brief ∧ fit directory bar

/-- What is stored is faithful. -/
theorem Tracks.faithful (tracks : Tracks store owner fit disk world)
    (placed : seriesDirectory key = .ok directory) :
    ∀ bar ∈ storedBars (world.series directory), bar.Faithful ∧ fit directory bar := by
  have held := tracks.series key directory placed
  intro bar member
  obtain ⟨brief, fits⟩ := tracks.stored key directory placed bar member
  exact ⟨⟨held.lasting bar member, brief, held.normalBars bar member⟩, fits⟩

/-- A world whose bars are spelled as they are read is given back by its files. -/
theorem Models.of_normalize (models : Models store owner disk world.normalize)
    (normal : ∀ key directory, seriesDirectory key = .ok directory →
      ∀ bar ∈ storedBars (world.series directory), bar.Normal) : Models store owner disk world where
  series key directory placed := by
    have held := models.series key directory placed
    change Held store _ _ ((world.series directory).map ClosedSeries.normalize) at held
    cases found : world.series directory with
    | none =>
        rw [found] at held
        exact held
    | some series =>
        have same : series.normalize = series := by
          apply ClosedSeries.normalize_of_normal
          intro bar member
          apply normal key directory placed bar
          rw [found]
          exact member
        rw [found, Option.map_some, same] at held
        exact held
  current := models.current
  asked := models.asked

omit [Sha256] [Parquet] in
/-- A call leaves brief rows when its program does. -/
theorem briefRows_onFiles {program : StoreProg Value}
    (rows : ∀ key directory, seriesDirectory key = .ok directory → BriefRows F (disk.files directory))
    (returned : (onFiles disk key program).1 = .ok value)
    (step : ∀ directory last, seriesDirectory key = .ok directory →
      program.run (disk.files directory) = (.ok value, last) → BriefRows F last)
    (other : SeriesKey) (elsewhere : List String) (placed : seriesDirectory other = .ok elsewhere) :
    BriefRows F ((onFiles disk key program).2.files elsewhere) := by
  unfold onFiles at returned ⊢
  cases own : seriesDirectory key with
  | error error => exact rows other elsewhere placed
  | ok directory =>
      rw [own] at returned
      dsimp only at returned ⊢
      by_cases same : elsewhere = directory
      · rw [same, Function.update_self]
        exact step directory _ own (Prod.ext returned rfl)
      · rw [Function.update_of_ne same]
        exact rows other elsewhere placed

omit [Sha256] [Parquet] in
/-- What a writing call stores was stored before, or is of its change. -/
theorem mem_stored_writes {change : Option (ClosedSeries F) → Except PyError (Value × ClosedSeries F)}
    {other : List String} {bar : MarketBar F} (returned : (writes world key change).1 = .ok value)
    (member : bar ∈ storedBars ((writes world key change).2.series other)) :
    bar ∈ storedBars (world.series other) ∨ ∃ made, seriesDirectory key = .ok other ∧
      change (world.series other) = .ok (value, made) ∧ bar ∈ made.bars := by
  unfold writes at returned member
  split at returned
  · cases returned
  · rename_i directory placed
    rw [placed] at member
    dsimp only at member
    split at returned
    · cases returned
    · rename_i answer made changed
      obtain rfl := Except.ok.inj returned
      rw [changed] at member
      by_cases same : other = directory
      · subst same
        rw [World.series_setSeries_self] at member
        exact .inr ⟨made, placed, changed, member⟩
      · rw [World.series_setSeries_of_ne _ _ same] at member
        exact .inl member

/-- The series of a directory is that of the key. -/
def Owns (owner : List String → SeriesKey) (key : SeriesKey) : Prop :=
  ∀ directory, seriesDirectory key = .ok directory → normalizedKey key = .ok (owner directory)

/-- Faithful bars that are fit for the directory of a key. -/
def FitFor (fit : List String → MarketBar F → Prop) (key : SeriesKey) (bars : List (MarketBar F)) : Prop :=
  ∀ directory, seriesDirectory key = .ok directory → ∀ bar ∈ bars, bar.Faithful ∧ fit directory bar

/-- A call of the service that keeps the files faithful. -/
def StoreCall.Faithful (owner : List String → SeriesKey) (fit : List String → MarketBar F → Prop)
    (asks : BarQuery → Prop) : StoreCall F → Prop
  | .appendStrictlyNewer key bars => Owns owner key ∧ FitFor fit key bars
  | .mergeClosed key bars => Owns owner key ∧ FitFor fit key bars
  | .commitClosed _ => False
  | .upsertClosed _ => False
  | .bulkWriteClosed _ _ => False
  | .fetch query => asks query
  | _ => True

/-- The sources deliver faithful bars, and a series ends at a bar that is fit for it. -/
def FaithfulAnswer (fit : List String → MarketBar F → Prop) : (op : StoreCall F) → op.Reply → Prop
  | .fetch query, (bars : List (MarketBar F)) => FitFor fit query.key bars
  | .manifestFor key, (span : Option SeriesSpan) => ∀ directory, seriesDirectory key = .ok directory →
      ∀ time, span.bind SeriesSpan.endTime = some time → ∃ bar : MarketBar F, fit directory bar ∧ bar.time = time
  | _, _ => True

/-- The sources answer some queries with faithful bars only. -/
def Delivers (environment : Environment F) (fit : List String → MarketBar F → Prop) (asks : BarQuery → Prop) :
    Prop :=
  ∀ asked query bars, asks query →
    fetchFromSources environment.config environment.now (environment.remote asked) query = .ok bars →
      FitFor fit query.key bars

theorem Tracks.again (models : Models store owner disk world.normalize)
    (rows : ∀ key directory, seriesDirectory key = .ok directory → BriefRows F (disk.files directory))
    (faithful : ∀ key directory, seriesDirectory key = .ok directory →
      ∀ bar ∈ storedBars (world.series directory), bar.Faithful ∧ fit directory bar) :
    Tracks store owner fit disk world where
  toModels := models.of_normalize fun key directory placed bar member =>
    (faithful key directory placed bar member).1.normal
  rows := rows
  stored key directory placed bar member := by
    obtain ⟨faithful, fits⟩ := faithful key directory placed bar member
    exact ⟨faithful.brief, fits⟩

/-- A call that stores faithful bars and leaves brief rows. -/
theorem Tracks.writes (tracks : Tracks store owner fit disk world) {program : StoreProg Value}
    {change : Option (ClosedSeries F) → Except PyError (Value × ClosedSeries F)}
    (models : (onFiles disk key program).1 = (MarketdataProvider.writes world key change).1 ∧
      Models store owner (onFiles disk key program).2 (MarketdataProvider.writes world key change).2.normalize)
    (returned : (MarketdataProvider.writes world key change).1 = .ok value)
    (members : ∀ directory made, seriesDirectory key = .ok directory →
      change (world.series directory) = .ok (value, made) → ∀ bar ∈ made.bars, bar.Faithful ∧ fit directory bar)
    (step : ∀ directory last, seriesDirectory key = .ok directory →
      program.run (disk.files directory) = (.ok value, last) → BriefRows F last) :
    Tracks store owner fit (onFiles disk key program).2 (MarketdataProvider.writes world key change).2 := by
  refine .again models.2 (briefRows_onFiles tracks.rows (models.1.trans returned) step) ?_
  intro other directory placed bar member
  rcases mem_stored_writes returned member with old | ⟨made, own, changed, new⟩
  · exact tracks.faithful placed bar old
  · exact members directory made own changed bar new

/-- A call that stores nothing. -/
theorem Tracks.looks (tracks : Tracks store owner fit disk world) {program : StoreProg Value}
    {outcome : Except PyError Value}
    (models : (onFiles disk key program).1 = (MarketdataProvider.looks world outcome).1 ∧
      Models store owner (onFiles disk key program).2 (MarketdataProvider.looks world outcome).2.normalize)
    (returned : outcome = .ok value)
    (step : ∀ directory last, seriesDirectory key = .ok directory →
      program.run (disk.files directory) = (.ok value, last) → OnlyRead (disk.files directory) last) :
    Tracks store owner fit (onFiles disk key program).2 world := by
  refine .again models.2 (briefRows_onFiles tracks.rows (models.1.trans returned) ?_) fun _ _ => tracks.faithful
  intro directory last placed ran
  have only := step directory last placed ran
  refine (tracks.rows key directory placed).congr ?_
  rw [only]
  rfl

theorem Tracks.changesRows (tracks : Tracks store owner fit disk world)
    (change : List (CurrentRow F) → Except PyError (List (CurrentRow F)))
    (models : Models store owner (rowsOnDisk disk (change disk.current)).2
      (MarketdataProvider.changesRows world (change world.current)).2.normalize) :
    Tracks store owner fit (rowsOnDisk disk (change disk.current)).2
      (MarketdataProvider.changesRows world (change world.current)).2 := by
  rw [tracks.current] at models ⊢
  cases changed : change world.current with
  | error error => exact tracks
  | ok rows =>
      rw [changed] at models
      exact .again models tracks.rows fun _ _ => tracks.faithful

theorem Tracks.fits (tracks : Tracks store owner fit disk world) {asks : BarQuery → Prop} {op : StoreCall F}
    (faithful : op.Faithful owner fit asks) : op.Fits owner pending disk world := by
  cases op with
  | readAll key start stop => exact fun directory placed => (tracks.rows key directory placed).rangeReads start
  | appendStrictlyNewer key bars =>
      intro directory placed
      refine ⟨faithful.1 directory placed, fun bar member => (faithful.2 directory placed bar member).1.lasting,
        fun _ => ?_⟩
      exact (tracks.rows key directory placed).tailReads
  | mergeClosed key bars =>
      intro directory placed
      exact ⟨faithful.1 directory placed, fun bar member => (faithful.2 directory placed bar member).1.lasting⟩
  | commitClosed bar => exact faithful.elim
  | upsertClosed bar => exact faithful.elim
  | bulkWriteClosed first rest => exact faithful.elim
  | manifestFor key => exact trivial
  | upsertCurrent bar => exact trivial
  | deleteCurrent bar => exact trivial
  | getCurrent key => exact trivial
  | fetch query => exact trivial

/-- The locked merge of faithful bars leaves brief rows. -/
theorem Tracks.mergeClosed_brief (tracks : Tracks store owner fit disk world) (csv : store.dataFormat = .csv)
    (placed : seriesDirectory key = .ok directory) (keyed : normalizedKey key = .ok (owner directory))
    (faithful : ∀ bar ∈ bars, bar.Faithful ∧ fit directory bar) {last : SeriesState}
    (ran : (mergeClosed store bars key).run (disk.files directory) = (.ok (), last)) : BriefRows F last := by
  have held := tracks.series key directory placed
  obtain ⟨middle, read, only⟩ := held.readAllLocked
  have all : ∀ bar ∈ mergeByTime (storedBars (world.series directory)) bars,
      bar.Faithful ∧ fit directory bar := by
    intro bar member
    exact (mem_mergeByTime member).elim (faithful bar) (tracks.faithful placed bar)
  rw [mergeClosed, Prog.run_bind_ok (held.recoverSeries .seriesLock), Prog.run_bind_ok read] at ran
  obtain ⟨manifest, replaced⟩ := Prog.run_of_answer ran
  have format : (none : Option SegmentFormat).getD store.dataFormat = .csv := csv
  exact (held.onlyRead only).replaceAllLocked_brief format keyed (fun bar member => (all bar member).1.lasting)
    (fun bar member => (all bar member).1.brief) replaced

/-- Faithful calls are answered by the files as by the stored series, and keep the files faithful. -/
theorem simulates_handleFiles (csv : store.dataFormat = .csv) (equality : FloatEquality F)
    (rounding : IntRounding F) {asks : BarQuery → Prop} (delivers : Delivers environment fit asks) :
    Calls.Simulates (Tracks store owner fit) (StoreCall.Faithful owner fit asks) (FaithfulAnswer fit)
      (handleFiles environment pending store) (handle environment) := by
  intro op disk world tracks faithful
  have models := @Models.handle _ F _ _ _ store owner disk world environment pending tracks.toModels csv equality
    rounding op (tracks.fits faithful)
  refine ⟨models.1, fun reply returned => ?_⟩
  cases op with
  | readAll key start stop =>
      refine ⟨trivial, tracks.looks models returned ?_⟩
      intro directory last placed ran
      obtain ⟨final, read, only⟩ := @Held.readRange _ F _ _ _ store pending _ _ _
        (tracks.series key directory placed) rounding start stop
        ((tracks.rows key directory placed).rangeReads start)
      obtain ⟨-, rfl⟩ := Prod.mk.inj (read.symm.trans ran)
      exact only
  | manifestFor key =>
      refine ⟨?_, tracks.looks models returned ?_⟩
      · intro directory placed time ends
        obtain ⟨stored, located, rfl⟩ := map_eq_ok.mp returned
        obtain ⟨own, again, rfl⟩ := World.seriesOf_eq_ok_iff.mp located
        obtain rfl := Except.ok.inj (placed.symm.trans again)
        obtain ⟨span, found, ends⟩ := Option.bind_eq_some_iff.mp ends
        obtain ⟨series, held, rfl⟩ := Option.map_eq_some_iff.mp found
        obtain ⟨last, final, rfl⟩ := endTime_eq_some_iff.mp ends
        refine ⟨last, (tracks.faithful placed last ?_).2, rfl⟩
        rw [held]
        exact List.mem_of_getLast? final
      · intro directory last placed ran
        obtain ⟨-, rfl⟩ := Prod.mk.inj ran
        rfl
  | appendStrictlyNewer key bars =>
      refine ⟨trivial, tracks.writes models returned ?_ ?_⟩
      · intro directory made placed changed bar member
        obtain ⟨series, appended, same⟩ := map_eq_ok.mp changed
        cases same
        exact (mem_appendSeries appended member).elim (faithful.2 directory placed bar) (tracks.faithful placed bar)
      · intro directory last placed ran
        obtain ⟨manifest, appended⟩ := Prog.run_of_answer ran
        exact (tracks.series key directory placed).appendStrictlyNewer_brief (faithful.1 directory placed)
          (fun bar member => (faithful.2 directory placed bar member).1.lasting) (tracks.rows key directory placed)
          (fun bar member => (faithful.2 directory placed bar member).1.brief) appended
  | mergeClosed key bars =>
      refine ⟨trivial, tracks.writes models returned ?_ ?_⟩
      · intro directory made placed changed bar member
        obtain ⟨series, merged, same⟩ := map_eq_ok.mp changed
        cases same
        exact (mem_mergeSeries merged member).elim (faithful.2 directory placed bar) (tracks.faithful placed bar)
      · intro directory last placed ran
        exact tracks.mergeClosed_brief csv placed (faithful.1 directory placed) (faithful.2 directory placed) ran
  | commitClosed bar => exact faithful.elim
  | upsertClosed bar => exact faithful.elim
  | bulkWriteClosed first rest => exact faithful.elim
  | upsertCurrent bar => exact ⟨trivial, tracks.changesRows (upsertCurrent · bar) models.2⟩
  | deleteCurrent bar => exact ⟨trivial, tracks.changesRows (deleteCurrent · bar) models.2⟩
  | getCurrent key => exact ⟨trivial, tracks⟩
  | fetch query =>
      exact ⟨delivers world.asked query reply faithful returned,
        .again models.2 tracks.rows fun _ _ => tracks.faithful⟩

end Tracks

section Programs

variable [PyText] {F : Type} [PyFloat F] {owner : List String → SeriesKey} {asks : BarQuery → Prop}
  {fit : List String → MarketBar F → Prop} {query : BarQuery} {bars : List (MarketBar F)}
  {directory : List String} {Value : Type}

/-- A program whose calls are faithful, as long as the sources deliver faithful bars. -/
abbrev FaithfulProgram (owner : List String → SeriesKey) (fit : List String → MarketBar F → Prop)
    (asks : BarQuery → Prop) (program : Service F Value) : Prop :=
  program.Within (StoreCall.Faithful owner fit asks) (FaithfulAnswer fit)

theorem upsertOpenBars_faithful : FaithfulProgram owner fit asks (upsertOpenBars bars) := by
  induction bars with
  | nil => exact trivial
  | cons bar rest ih =>
      unfold upsertOpenBars
      split
      · exact ih
      · rename_i isOpen
        refine .bind ?_ fun _ => ih
        rw [upsertOpen, if_neg isOpen]
        refine .bind ⟨trivial, fun _ _ => trivial⟩ fun stored => ?_
        split
        · exact trivial
        · exact .bind ⟨trivial, fun _ _ => trivial⟩ fun _ => trivial

theorem deleteCurrentBars_faithful : FaithfulProgram owner fit asks (deleteCurrentBars bars) := by
  induction bars with
  | nil => exact trivial
  | cons bar rest ih => exact .bind ⟨trivial, fun _ _ => trivial⟩ fun _ => ih

theorem storedBarsOf_faithful :
    FaithfulProgram owner fit asks (storedBarsOf query : Service F (List (MarketBar F))) :=
  ⟨trivial, fun _ _ => trivial⟩

theorem storedCoverageComplete_faithful :
    FaithfulProgram owner fit asks (storedCoverageComplete query : Service F Bool) := by
  unfold storedCoverageComplete
  split
  · exact trivial
  · exact .bind ⟨trivial, fun _ _ => trivial⟩ fun _ => trivial

theorem appendStream_faithful (owns : Owns owner query.key) (faithful : FitFor fit query.key bars) :
    FaithfulProgram owner fit asks (appendStream query bars) := by
  refine .bind upsertOpenBars_faithful fun _ => ?_
  split
  · exact trivial
  · refine .bind ⟨⟨owns, ?_⟩, fun _ _ => trivial⟩ fun _ => deleteCurrentBars_faithful
    exact fun directory placed bar member => faithful directory placed bar (List.mem_filter.mp member).1

theorem ensureWhole_faithful (owns : Owns owner query.key) (asked : asks query) :
    FaithfulProgram owner fit asks (ensureWhole query : Service F Bool) := by
  refine .bind storedBarsOf_faithful fun _ => .bind (.ofExcept _) fun complete => ?_
  split
  · exact trivial
  · refine ⟨asked, fun fetched faithful => ?_⟩
    change Calls.Within _ _ (if fetched.isEmpty then _ else _)
    split
    · exact trivial
    · refine .bind upsertOpenBars_faithful fun _ => ?_
      split
      · exact trivial
      · refine .bind ⟨⟨owns, ?_⟩, fun _ _ => trivial⟩ fun _ => .bind deleteCurrentBars_faithful fun _ => trivial
        exact fun directory placed bar member => faithful directory placed bar (List.mem_filter.mp member).1

/-- The sub-ranges from a grid point of a query to its end. -/
def AsksTail (query : BarQuery) (duration : Int) (asked : BarQuery) : Prop :=
  ∃ start, ∃ ordered : start < query.endMs, asked = query.replaceStart start ordered ∧ query.startMs ≤ start ∧
    (start - query.startMs) % duration = 0

theorem asksTail_self (query : BarQuery) (duration : Int) : AsksTail query duration query :=
  ⟨query.startMs, query.ordered, rfl, le_refl _, by simp⟩

/-- Stored bars of a query lie on its grid. -/
def OnQueryGrid (query : BarQuery) (duration : Int) (directory : List String) (bar : MarketBar F) : Prop :=
  seriesDirectory query.key = .ok directory → (bar.time - query.startMs) % duration = 0

theorem asksTail_missingTail {span : Option SeriesSpan} {tail : BarQuery} {duration : Int}
    (known : query.timeframe.durationMs = some duration) (missing : missingTail query span = some tail)
    (aligned : ∀ time, span.bind SeriesSpan.endTime = some time → (time - query.startMs) % duration = 0) :
    AsksTail query duration tail := by
  unfold missingTail at missing
  split at missing
  · rename_i endTime own ends same
    obtain rfl := Option.some.inj (known.symm.trans same)
    split_ifs at missing with ordered
    refine ⟨_, ordered, (Option.some.inj missing).symm, le_max_left _ _, ?_⟩
    rcases max_choice query.startMs (endTime + duration) with first | behind
    · rw [first, sub_self, Int.zero_emod]
    · rw [behind, show endTime + duration - query.startMs = endTime - query.startMs + duration by ring,
        Int.add_emod_right]
      exact aligned endTime ends
  · cases missing

theorem ensureStored_faithful {duration : Int} (known : query.timeframe.durationMs = some duration)
    (owns : Owns owner query.key) (placed : seriesDirectory query.key = .ok directory) :
    FaithfulProgram owner (OnQueryGrid query duration) (AsksTail query duration)
      (ensureStored query : Service F Bool) := by
  refine .bind storedCoverageComplete_faithful fun complete => ?_
  split
  · exact trivial
  · refine ⟨trivial, fun span ends => ?_⟩
    dsimp only [Calls.bind]
    split
    · exact ensureWhole_faithful owns (asksTail_self query duration)
    · rename_i tail missing
      have asked : AsksTail query duration tail := by
        refine asksTail_missingTail known missing fun time found => ?_
        obtain ⟨bar, aligned, rfl⟩ := ends directory placed time found
        exact aligned placed
      refine ⟨asked, fun fetched faithful => ?_⟩
      change Calls.Within _ _ (if fetched.isEmpty then _ else _)
      split
      · exact ensureWhole_faithful owns (asksTail_self query duration)
      · obtain ⟨start, ordered, rfl, -⟩ := asked
        exact .bind (appendStream_faithful owns faithful) fun _ => trivial

/-- `fetch_bars` of a query that is not derived. -/
theorem fetchStored_faithful {duration : Int} (known : query.timeframe.durationMs = some duration)
    (owns : Owns owner query.key) (placed : seriesDirectory query.key = .ok directory) :
    FaithfulProgram owner (OnQueryGrid query duration) (AsksTail query duration)
      (fetchStored query : Service F (BarSeries F)) := by
  refine .bind storedBarsOf_faithful fun bars => .bind (.ofExcept _) fun complete => ?_
  split
  · exact .ofExcept _
  · refine .bind (ensureStored_faithful known owns placed) fun _ => .bind storedBarsOf_faithful fun bars => ?_
    split
    · exact .ofExcept _
    · refine .bind (.ofExcept _) fun complete => ?_
      split
      · exact .ofExcept _
      · exact trivial

end Programs


namespace Reference

open scoped Reference

theorem fourMinutes_faithful (bar : MarketBar Whole) (member : bar ∈ fourMinutes) : bar.Faithful := by
  have short : ∀ bar ∈ fourMinutes, rowSize bar < 1048576 ∧ bar.normalForm = bar := by decide +kernel
  exact ⟨fourMinutes_lasting bar member, ⟨fourMinutes_plain bar member, (short bar member).1⟩, (short bar member).2⟩

/-- Where the one minute candles lie. -/
def minuteDirectory : List String :=
  ["v1", "exchange=binance", "market=spot", "symbol=BTCUSDT", "source=trade_kline", "timeframe=1m"]

theorem minuteDirectory_placed : seriesDirectory series = .ok minuteDirectory :=
  eq_ok_of_toOption (by decide +kernel)

/-- A store of one series; the other directories have no files. -/
def oneSeries (stored : ClosedSeries Whole) : World Whole :=
  ⟨Function.update (fun _ => none) minuteDirectory (some stored), [], 0⟩

theorem seriesOf_oneSeries (stored : ClosedSeries Whole) : (oneSeries stored).seriesOf series = .ok (some stored) := by
  have found : (oneSeries stored).series minuteDirectory = some stored := by simp [oneSeries]
  exact World.seriesOf_eq_ok_iff.mpr ⟨minuteDirectory, minuteDirectory_placed, found⟩

theorem exists_tracks {state : SeriesState} {stored : ClosedSeries Whole} {fit : List String → MarketBar Whole → Prop}
    (held : Held ⟨.csv, true, false⟩ series state (some stored)) (rows : BriefRows Whole state)
    (brief : ∀ bar ∈ stored.bars, bar.Brief) (fits : ∀ bar ∈ stored.bars, fit minuteDirectory bar) :
    ∃ owner disk, Tracks ⟨.csv, true, false⟩ owner fit disk (oneSeries stored) ∧ Owns owner series := by
  have names (directory : List String) :
      ∃ key, ∀ other, seriesDirectory other = .ok directory → seriesDirectory key = .ok directory := by
    by_cases named : ∃ key, seriesDirectory key = .ok directory
    · obtain ⟨key, found⟩ := named
      exact ⟨key, fun _ _ => found⟩
    · exact ⟨series, fun other found => absurd ⟨other, found⟩ named⟩
  choose name named using names
  refine ⟨Function.update name minuteDirectory series,
    ⟨Function.update SeriesState.empty minuteDirectory state, [], 0⟩, ⟨⟨?_, rfl, rfl⟩, ?_, ?_⟩, ?_⟩
  · intro key directory found
    by_cases same : directory = minuteDirectory
    · subst same
      simpa [oneSeries] using held
    · simp only [oneSeries, Function.update_of_ne same]
      refine ⟨⟨none, ⟨rfl, rfl⟩, fun _ _ => rfl, fun _ => ⟨fun _ => rfl, rfl⟩, ?_⟩, named directory key found, rfl⟩
      intro raw present
      cases present
  · intro key directory found
    by_cases same : directory = minuteDirectory
    · subst same
      simpa using rows
    · simp only [Function.update_of_ne same]
      intro bars data
      cases data
  · intro key directory found bar member
    by_cases same : directory = minuteDirectory
    · subst same
      simp only [oneSeries, Function.update_self] at member
      exact ⟨brief bar member, fits bar member⟩
    · simp only [oneSeries, Function.update_of_ne same] at member
      cases member
  · intro directory found
    obtain rfl := Except.ok.inj (minuteDirectory_placed.symm.trans found)
    rw [Function.update_self]
    exact eq_ok_of_toOption (by decide +kernel)

/-- A store of some of the first four minutes. -/
theorem minutes_tracks {stored : ClosedSeries Whole} {fit : List String → MarketBar Whole → Prop}
    (csv : stored.format = .csv) (minutes : ∀ bar ∈ stored.bars, bar ∈ fourMinutes)
    (fits : ∀ bar ∈ stored.bars, fit minuteDirectory bar) :
    ∃ owner disk, Tracks ⟨.csv, true, false⟩ owner fit disk (oneSeries stored) ∧ Owns owner series := by
  have faithful : ∀ bar ∈ stored.bars, bar.Faithful := fun bar member => fourMinutes_faithful bar (minutes bar member)
  obtain ⟨rows, digested⟩ := mapM_ok stored.digested
  have summed : rowsDigest .v4 stored.bars = .ok (hexDigest rows.flatten) := by
    rw [rowsDigest, digested]
    rfl
  have again : stored.bars = stored.bars.map MarketBar.normalForm :=
    (map_normalForm_of_normal fun bar member => (faithful bar member).normal).symm
  have files := seriesFiles_filesOf csv again stored.sorted summed fun bar member => (faithful bar member).lasting
  have brief : ∀ bar ∈ stored.bars, bar.Brief := fun bar member => (faithful bar member).brief
  exact exists_tracks ⟨_, _, files⟩ (.of_data rfl brief) brief fits

end Reference

end MarketdataProvider
