import MarketdataProvider.Foundation.Calls
import MarketdataProvider.Service.Sources
import MarketdataProvider.Store.CurrentStore

namespace MarketdataProvider

open Foundation

variable [PyText] {F : Type} [PyFloat F]

/-- The state behind the service: the series by directory, the live rows, and how often the sources
were asked. -/
structure World (F : Type) [PyFloat F] where
  series : List String → Option (ClosedSeries F)
  current : List (CurrentRow F)
  asked : Nat

/-- What the manifest of a series says of its span. -/
structure SeriesSpan where
  dataFormat : SegmentFormat
  startTime : Option Int
  endTime : Option Int
  deriving DecidableEq, Repr

/-- The calls that the service and the candle store make.
A call that takes the series lock is one step, since the lock is held throughout. -/
inductive StoreCall (F : Type) where
  | readAll (key : SeriesKey) (start stop : Option Int)
  | manifestFor (key : SeriesKey)
  | appendStrictlyNewer (key : SeriesKey) (bars : List (MarketBar F))
  | mergeClosed (key : SeriesKey) (bars : List (MarketBar F))
  | commitClosed (bar : MarketBar F)
  | upsertClosed (bar : MarketBar F)
  | bulkWriteClosed (first : MarketBar F) (rest : List (MarketBar F))
  | upsertCurrent (bar : MarketBar F)
  | deleteCurrent (bar : MarketBar F)
  | getCurrent (key : SeriesKey)
  | fetch (query : BarQuery)

def StoreCall.Reply : StoreCall F → Type
  | readAll _ _ _ => List (MarketBar F)
  | manifestFor _ => Option SeriesSpan
  | appendStrictlyNewer _ _ => Unit
  | mergeClosed _ _ => Unit
  | commitClosed _ => CommitStatus
  | upsertClosed _ => Unit
  | bulkWriteClosed _ _ => Nat
  | upsertCurrent _ => Unit
  | deleteCurrent _ => Unit
  | getCurrent _ => Option (MarketBar F)
  | fetch _ => List (MarketBar F)

abbrev Service (F Value : Type) : Type := Calls (StoreCall F) StoreCall.Reply PyError Value

/-- What the service does not decide: its configuration, the day, and the answers of the sources. -/
structure Environment (F : Type) where
  config : HistoryConfig
  now : Int
  remote : Nat → Remote F

namespace World

def setSeries (world : World F) (directory : List String) (series : ClosedSeries F) : World F :=
  { world with series := Function.update world.series directory (some series) }

def seriesOf (world : World F) (key : SeriesKey) : Except PyError (Option (ClosedSeries F)) :=
  world.series <$> seriesDirectory key

@[simp] theorem series_setSeries_self (world : World F) (directory : List String)
    (series : ClosedSeries F) : (world.setSeries directory series).series directory = some series :=
  Function.update_self _ _ _

theorem series_setSeries_of_ne (world : World F) {directory other : List String}
    (series : ClosedSeries F) (different : other ≠ directory) :
    (world.setSeries directory series).series other = world.series other :=
  Function.update_of_ne different _ _

@[simp] theorem current_setSeries (world : World F) (directory : List String)
    (series : ClosedSeries F) : (world.setSeries directory series).current = world.current := rfl

theorem seriesOf_eq_ok_iff {world : World F} {key : SeriesKey} {stored : Option (ClosedSeries F)} :
    world.seriesOf key = .ok stored ↔
    ∃ directory, seriesDirectory key = .ok directory ∧ world.series directory = stored := map_eq_ok

end World

/-- A reading call. -/
def looks {Value : Type} (world : World F) (outcome : Except PyError Value) :
    Except PyError Value × World F := (outcome, world)

/-- A writing call of one series: nothing changes when it raises. -/
def writes {Value : Type} (world : World F) (key : SeriesKey)
    (change : Option (ClosedSeries F) → Except PyError (Value × ClosedSeries F)) :
    Except PyError Value × World F :=
  match seriesDirectory key with
  | .error error => (.error error, world)
  | .ok directory =>
      match change (world.series directory) with
      | .error error => (.error error, world)
      | .ok (value, series) => (.ok value, world.setSeries directory series)

/-- A call that changes the live rows. -/
def changesRows (world : World F) (rows : Except PyError (List (CurrentRow F))) :
    Except PyError Unit × World F :=
  match rows with
  | .error error => (.error error, world)
  | .ok rows => (.ok (), { world with current := rows })

def ClosedSeries.span (series : ClosedSeries F) : SeriesSpan where
  dataFormat := series.format
  startTime := series.bars.head?.map fun bar => bar.time
  endTime := series.endTime

/-- The bars of a series that is there; a series without a manifest has none. -/
def rangeOf (stored : Option (ClosedSeries F)) (start stop : Option Int) : List (MarketBar F) :=
  (stored.map fun series => series.range start stop).getD []

variable [Sha256]

def handle (environment : Environment F) :
    Calls.Handler (StoreCall F) StoreCall.Reply PyError (World F)
  | .readAll key start stop, world =>
      looks world ((rangeOf · start stop) <$> world.seriesOf key)
  | .manifestFor key, world =>
      looks world ((fun stored => stored.map ClosedSeries.span) <$> world.seriesOf key)
  | .appendStrictlyNewer key bars, world =>
      writes world key fun stored => (((), ·) <$> appendSeries stored bars key)
  | .mergeClosed key bars, world =>
      writes world key fun stored => (((), ·) <$> mergeSeries stored bars key)
  | .commitClosed bar, world => writes world bar.key fun stored => commitSeries stored bar
  | .upsertClosed bar, world =>
      writes world bar.key fun stored => (((), ·) <$> upsertSeries stored bar)
  | .bulkWriteClosed first rest, world =>
      writes world first.key fun stored => bulkWriteSeries stored first rest
  | .upsertCurrent bar, world => changesRows world (upsertCurrent world.current bar)
  | .deleteCurrent bar, world => changesRows world (deleteCurrent world.current bar)
  | .getCurrent key, world => looks world (getCurrent world.current key)
  | .fetch query, world =>
      (fetchFromSources environment.config environment.now (environment.remote world.asked) query,
        { world with asked := world.asked + 1 })

section CandleStore

omit [PyFloat F] [Sha256]

namespace Ask

def readAll (key : SeriesKey) (start stop : Option Int) : Service F (List (MarketBar F)) :=
  .call (.readAll key start stop) .done

def manifestFor (key : SeriesKey) : Service F (Option SeriesSpan) := .call (.manifestFor key) .done

def appendStrictlyNewer (key : SeriesKey) (bars : List (MarketBar F)) : Service F Unit :=
  .call (.appendStrictlyNewer key bars) .done

def mergeClosed (key : SeriesKey) (bars : List (MarketBar F)) : Service F Unit :=
  .call (.mergeClosed key bars) .done

def commitClosed (bar : MarketBar F) : Service F CommitStatus := .call (.commitClosed bar) .done

def bulkWriteClosed (first : MarketBar F) (rest : List (MarketBar F)) : Service F Nat :=
  .call (.bulkWriteClosed first rest) .done

def upsertCurrent (bar : MarketBar F) : Service F Unit := .call (.upsertCurrent bar) .done

def deleteCurrent (bar : MarketBar F) : Service F Unit := .call (.deleteCurrent bar) .done

def fetch (query : BarQuery) : Service F (List (MarketBar F)) := .call (.fetch query) .done

end Ask

/-- `commit_closed` of a closed bar; the stream checkpoint is left out. -/
def commitClosedBar (bar : MarketBar F) : Service F CommitStatus := do
  let status ← Ask.commitClosed bar
  Ask.deleteCurrent bar
  return status

inductive OpenStatus where
  | ignored
  | upserted
  | closed (status : CommitStatus)
  deriving DecidableEq, Repr

/-- `upsert_open`: the look at the segment and the write of the row have no lock around both. -/
def upsertOpen (bar : MarketBar F) : Service F OpenStatus :=
  if bar.isClosed then do
    let status ← commitClosedBar bar
    return .closed status
  else do
    let stored ← Ask.readAll bar.key (some bar.time) (some (bar.time + 1))
    if (barAt stored bar.time).isSome then return .ignored
    else do
      Ask.upsertCurrent bar
      return .upserted

/-- `commit_closed`; an open bar is upserted instead. -/
def commitClosedOrOpen (bar : MarketBar F) : Service F OpenStatus :=
  if bar.isClosed then do
    let status ← commitClosedBar bar
    return .closed status
  else upsertOpen bar

end CandleStore

/-- A read of a range answers from the stored series. -/
theorem run_readAll {environment : Environment F} {world : World F} (key : SeriesKey) (start stop : Option Int) :
    (Ask.readAll key start stop).run (handle environment) world =
      ((rangeOf · start stop) <$> world.seriesOf key, world) := by
  cases found : world.seriesOf key with
  | error error =>
      have raised : handle environment (.readAll key start stop) world = (.error error, world) := by
        rw [handle, found]
        rfl
      exact Calls.run_call_error _ raised
  | ok stored =>
      have answered : handle environment (.readAll key start stop) world =
          (.ok (rangeOf stored start stop), world) := by
        rw [handle, found]
        rfl
      exact Calls.run_call_ok _ answered

end MarketdataProvider
