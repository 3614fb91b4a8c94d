import MarketdataProvider.Store.ClosedSeries

namespace MarketdataProvider

open Foundation

variable [PyText] {F : Type} [PyFloat F]

/-- A row of `current_candles`: its identity columns are normalized, the transport is one of them. -/
structure CurrentRow (F : Type) where
  key : SeriesKey
  transport : String
  bar : MarketBar F
  receivedAt : Int
  deriving DecidableEq

/-- The primary key. -/
def CurrentRow.id (row : CurrentRow F) : SeriesKey × String × Int :=
  (row.key, row.transport, row.bar.time)

def currentChecks (bar : MarketBar F) : Except PyError Unit :=
  if bar.timeClose.isNone then
    .error (.valueError "explicit close time is required for current candle storage")
  else if bar.provider = "" ∨ bar.providerRevision.all (· = "") = true then
    .error (.valueError "provider and provider_revision are required")
  else .ok ()

/-- `upsert_current` of a bar without an explicit time of receipt. -/
def upsertCurrent (rows : List (CurrentRow F)) (bar : MarketBar F) :
    Except PyError (List (CurrentRow F)) := do
  currentChecks bar
  let key ← normalizedKey bar.key
  return Keyed.upsert CurrentRow.id rows ⟨key, bar.sourceTransport, bar, bar.downloadedAt.getD 0⟩

/-- The rows that `delete_current` takes away have the transport of the bar. -/
def CurrentRow.deletedBy (row : CurrentRow F) (key : SeriesKey) (bar : MarketBar F) : Bool :=
  row.key = key && row.transport = bar.sourceTransport && row.bar.time = bar.time

def deleteCurrent (rows : List (CurrentRow F)) (bar : MarketBar F) :
    Except PyError (List (CurrentRow F)) := do
  let key ← normalizedKey bar.key
  return rows.filter fun row => !row.deletedBy key bar

/-- `_row_to_bar` takes the identity from the columns. -/
def CurrentRow.toBar (row : CurrentRow F) : MarketBar F :=
  { row.bar with
    exchange := row.key.exchange
    market := row.key.market
    symbol := row.key.symbol
    timeframe := row.key.timeframe
    sourceKind := row.key.sourceKind
    source := ""
    downloadedAt := some row.receivedAt
    metadata := [] }

/-- The row with the latest open time; the transports take no part in the choice. -/
def latestRow (rows : List (CurrentRow F)) : Option (CurrentRow F) :=
  rows.foldl (fun latest row =>
    if latest.any (fun best => row.bar.time ≤ best.bar.time) then latest else some row) none

/-- `get_current` -/
def getCurrent (rows : List (CurrentRow F)) (key : SeriesKey) : Except PyError (Option (MarketBar F)) := do
  let key ← normalizedKey key
  return (latestRow (rows.filter fun row => row.key = key)).map CurrentRow.toBar

end MarketdataProvider
