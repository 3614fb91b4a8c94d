import MarketdataProvider.Store.CurrentStore
import MarketdataProvider.Store.SeriesWrites

namespace MarketdataProvider

open Foundation

variable [PyText] {F : Type} [PyFloat F]

/-- What a stream says about an update beside its candle. -/
structure StreamEvent where
  eventTime : Option Int
  receivedAt : Option Int
  rawEventId : Option String
  deriving DecidableEq, Repr

/-- A row of `current_candles` with the columns of its event. -/
structure LiveRow (F : Type) extends CurrentRow F where
  eventTime : Option Int
  rawEventId : Option String
  deriving DecidableEq

abbrev CandleId := SeriesKey × String × Int

omit [PyText] [PyFloat F] in
def LiveRow.id (row : LiveRow F) : CandleId := row.toCurrentRow.id

/-- The row of a candle has no other columns than those that `_row_to_bar` reads. -/
def liveRow (key : SeriesKey) (bar : MarketBar F) (event : StreamEvent) : LiveRow F :=
  let plain : CurrentRow F :=
    ⟨key, bar.sourceTransport, bar, intOr event.receivedAt (bar.downloadedAt.getD 0)⟩
  { key, transport := bar.sourceTransport, bar := plain.toBar, receivedAt := plain.receivedAt
    eventTime := event.eventTime
    rawEventId := event.rawEventId }

structure StreamCheckpoint where
  key : SeriesKey
  sourceTransport : String
  lastClosedBarTime : Option Int
  lastEventTime : Option Int
  lastReceivedAt : Option Int
  lastReconnectAt : Option Int
  consecutiveReconnects : Int
  status : String
  updatedAt : Int
  deriving DecidableEq, Repr

def StreamCheckpoint.id (checkpoint : StreamCheckpoint) : SeriesKey × String :=
  (checkpoint.key, checkpoint.sourceTransport)

/-- `value or other`, where the other one can be missing as well. -/
def optionalOr (value other : Option Int) : Option Int :=
  match value with
  | some value => if value = 0 then other else some value
  | none => other

/-- The table of open candles; the primary key admits one row for each of them. -/
structure CurrentTable (F : Type) where
  rows : List (LiveRow F)
  distinct : (rows.map LiveRow.id).Nodup

namespace CurrentTable

def upsertCurrent (table : CurrentTable F) (bar : MarketBar F) (event : StreamEvent) :
    Except PyError (CurrentTable F) := do
  currentChecks bar
  let key ← normalizedKey bar.key
  return ⟨Keyed.upsert LiveRow.id table.rows (liveRow key bar event), Keyed.nodup_upsert table.distinct⟩

def deleteCurrent (table : CurrentTable F) (bar : MarketBar F) : Except PyError (CurrentTable F) := do
  let key ← normalizedKey bar.key
  return ⟨table.rows.filter fun row => !row.deletedBy key bar,
    table.distinct.sublist (List.Sublist.map _ List.filter_sublist)⟩

end CurrentTable

/-- The segments and the database of a `CandleStore`. -/
structure LiveStore (F : Type) [PyFloat F] where
  series : List String → Option (ClosedSeries F)
  table : CurrentTable F
  checkpoints : List StreamCheckpoint

/-- `CommitResult` of the store -/
inductive UpdateResult where
  | upserted
  | ignored (diagnostic : String)
  | closed (status : CommitStatus)
  deriving DecidableEq, Repr

namespace LiveStore

def getCheckpoint (store : LiveStore F) (key : SeriesKey) :
    Except PyError (Option StreamCheckpoint) := do
  let key ← normalizedKey key
  return store.checkpoints.find? fun checkpoint => checkpoint.key = key

def updateCheckpoint (store : LiveStore F) (checkpoint : StreamCheckpoint) :
    Except PyError (LiveStore F) := do
  let key ← normalizedKey checkpoint.key
  return { store with
    checkpoints := Keyed.upsert StreamCheckpoint.id store.checkpoints { checkpoint with key } }

/-- The checkpoint of a series after an update; a closed candle moves its last closed time. -/
def nextCheckpoint (previous : Option StreamCheckpoint) (bar : MarketBar F) (event : StreamEvent)
    (lastClosedBarTime : Option Int) (status : String) : StreamCheckpoint where
  key := bar.key
  sourceTransport := "ws"
  lastClosedBarTime
  lastEventTime := event.eventTime
  lastReceivedAt := optionalOr event.receivedAt bar.downloadedAt
  lastReconnectAt := previous.bind StreamCheckpoint.lastReconnectAt
  consecutiveReconnects := (previous.map StreamCheckpoint.consecutiveReconnects).getD 0
  status
  updatedAt := intOr event.receivedAt (intOr bar.downloadedAt (event.eventTime.getD 0))

/-- `_touch_event_checkpoint` -/
def touchEventCheckpoint (store : LiveStore F) (bar : MarketBar F) (event : StreamEvent) :
    Except PyError (LiveStore F) := do
  let previous ← store.getCheckpoint bar.key
  store.updateCheckpoint
    (nextCheckpoint previous bar event (previous.bind StreamCheckpoint.lastClosedBarTime) "open")

/-- `_closed_checkpoint` -/
def closedCheckpoint (store : LiveStore F) (bar : MarketBar F) (event : StreamEvent) :
    Except PyError (LiveStore F) := do
  let previous ← store.getCheckpoint bar.key
  store.updateCheckpoint (nextCheckpoint previous bar event (some bar.time) "connected")

/-- `upsert_open` of an open candle. -/
def upsertOpenCandle (store : LiveStore F) (bar : MarketBar F) (event : StreamEvent) :
    Except PyError (UpdateResult × LiveStore F) := do
  let directory ← seriesDirectory bar.key
  if (barAt (storedBars (store.series directory)) bar.time).isSome then
    return (.ignored "MD_WARNING_LATE_OPEN_IGNORED", store)
  else do
    let table ← store.table.upsertCurrent bar event
    let touched ← { store with table }.touchEventCheckpoint bar event
    return (.upserted, touched)

variable [Sha256]

/-- `commit_closed` of a closed candle. -/
def commitClosedCandle (store : LiveStore F) (bar : MarketBar F) (event : StreamEvent) :
    Except PyError (UpdateResult × LiveStore F) := do
  let directory ← seriesDirectory bar.key
  let committed ← commitSeries (store.series directory) bar
  let table ← store.table.deleteCurrent bar
  let closed ← { store with
    series := Function.update store.series directory (some committed.2), table }.closedCheckpoint bar event
  return (.closed committed.1, closed)

/-- Both ways into the store hand a candle of the other kind on. -/
def upsertOpen (store : LiveStore F) (bar : MarketBar F) (event : StreamEvent) :
    Except PyError (UpdateResult × LiveStore F) :=
  if bar.isClosed then store.commitClosedCandle bar event else store.upsertOpenCandle bar event

def commitClosed (store : LiveStore F) (bar : MarketBar F) (event : StreamEvent) :
    Except PyError (UpdateResult × LiveStore F) :=
  if !bar.isClosed then store.upsertOpenCandle bar event else store.commitClosedCandle bar event

/-- Two stores with the same bars in the segments and the same rows in the table. -/
def SameOutcome (left right : LiveStore F) : Prop :=
  (∀ directory, storedBars (left.series directory) = storedBars (right.series directory)) ∧
    ∀ row, row ∈ left.table.rows ↔ row ∈ right.table.rows

end LiveStore

end MarketdataProvider
