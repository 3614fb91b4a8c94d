import MarketdataProvider.Contracts.Series
import MarketdataProvider.Service.Aggregation
import MarketdataProvider.Service.StoreCalls

namespace MarketdataProvider

open Foundation

variable [PyText] {F : Type} [PyFloat F]

section Coverage

/-- `_coverage_complete` -/
def coverageComplete (bars : List (MarketBar F)) (query : BarQuery) : Except PyError Bool :=
  match query.timeframe.durationMs with
  | none => .ok !bars.isEmpty
  | some duration => do
      let expected ← pyRange query.startMs query.endMs duration
      return expected.all (· ∈ bars.map fun bar => bar.time)

/-- The point after a row of bars that has none missing. -/
def endOfRow (duration : Int) : Int → List Int → Option Int
  | expected, [] => some expected
  | expected, time :: rest =>
      if time = expected then endOfRow duration (expected + duration) rest else none

/-- `_stored_coverage_complete` -/
def storedCoverageComplete (query : BarQuery) : Service F Bool :=
  match query.timeframe.durationMs with
  | none => return false
  | some duration => do
      let bars ← Ask.readAll query.key (some query.startMs) (some query.endMs)
      return (endOfRow duration query.startMs (bars.map fun bar => bar.time)).any (query.endMs ≤ ·)

/-- `_manifest_spans` -/
def manifestSpans (span : Option SeriesSpan) (query : BarQuery) (duration : Option Int) : Bool :=
  match duration, span.bind SeriesSpan.startTime, span.bind SeriesSpan.endTime with
  | some duration, some startTime, some endTime =>
      startTime ≤ query.startMs && query.endMs - duration ≤ endTime
  | _, _, _ => false

def storedSpanComplete (query : BarQuery) : Service F Bool := do
  return manifestSpans (← Ask.manifestFor query.key) query query.timeframe.durationMs

end Coverage

/-- `_can_derive_from_base` -/
def canDeriveFromBase (query : BarQuery) (base : Timeframe) : Except PyError Bool :=
  match query.timeframe.durationMs, base.durationMs with
  | some duration, some baseDuration =>
      if duration < baseDuration then .ok false
      else if baseDuration = 0 then .error .zeroDivisionError
      else .ok (duration % baseDuration = 0)
  | _, _ => .ok false

/-- `_base_query` -/
def baseQuery (config : HistoryConfig) (query : BarQuery) : Except PyError BarQuery :=
  if config.enabled = false then .ok query
  else if query.instrument.exchange ≠ "binance" then .ok query
  else do
    let base ← parseTimeframe config.baseTimeframe
    if ← canDeriveFromBase query base then return query.replaceTimeframe base else return query

/-- `_stored_bars` -/
def storedBarsOf (query : BarQuery) : Service F (List (MarketBar F)) :=
  Ask.readAll query.key (some query.startMs) (some query.endMs)

section Persist

def finalized (bars : List (MarketBar F)) : List (MarketBar F) := bars.filter MarketBar.isClosed

/-- The open bars of an answer go to the live rows. -/
def upsertOpenBars : List (MarketBar F) → Service F Unit
  | [] => return ()
  | bar :: rest =>
      if bar.isClosed then upsertOpenBars rest
      else do
        let _ ← upsertOpen bar
        upsertOpenBars rest

def deleteCurrentBars : List (MarketBar F) → Service F Unit
  | [] => return ()
  | bar :: rest => do
      Ask.deleteCurrent bar
      deleteCurrentBars rest

/-- `_append_stream` -/
def appendStream (query : BarQuery) (fetched : List (MarketBar F)) : Service F Unit := do
  upsertOpenBars fetched
  if (finalized fetched).isEmpty then return ()
  else do
    Ask.appendStrictlyNewer query.key (finalized fetched)
    deleteCurrentBars (finalized fetched)

/-- The part of the query after the stored tail. -/
def missingTail (query : BarQuery) (span : Option SeriesSpan) : Option BarQuery :=
  match span.bind SeriesSpan.endTime, query.timeframe.durationMs with
  | some endTime, some duration =>
      if ordered : max query.startMs (endTime + duration) < query.endMs then
        some (query.replaceStart (max query.startMs (endTime + duration)) ordered)
      else none
  | _, _ => none

/-- The second half of `_ensure_stored_locked`: the whole query is fetched and merged. -/
def ensureWhole (query : BarQuery) : Service F Bool := do
  let current ← storedBarsOf query
  if ← Calls.ofExcept (coverageComplete current query) then return false
  else do
    let fetched ← Ask.fetch query
    if fetched.isEmpty then return false
    else do
      upsertOpenBars fetched
      if (finalized fetched).isEmpty then return true
      else do
        Ask.mergeClosed query.key (finalized fetched)
        deleteCurrentBars (finalized fetched)
        return true

/-- `_ensure_stored_locked`: the missing tail is appended, and that ends the call. -/
def ensureStored (query : BarQuery) : Service F Bool := do
  if ← storedCoverageComplete query then return false
  else do
    let span ← Ask.manifestFor query.key
    match missingTail query span with
    | none => ensureWhole query
    | some tail => do
        let fetched ← Ask.fetch tail
        if fetched.isEmpty then ensureWhole query
        else do
          appendStream query fetched
          return true

/-- `_merge_derived_bars` -/
def mergeDerivedBars (query : BarQuery) : List (MarketBar F) → Service F Unit
  | [] => return ()
  | first :: rest =>
      if rest.any (fun bar => bar.sourceKind ≠ first.sourceKind) then
        .fail (.coverageValidationError "Derived bars cross source-kind boundaries")
      else Ask.mergeClosed { query.key with sourceKind := first.sourceKind } (first :: rest)

end Persist

section Fetch

variable (D : Type) [PyDecimal D] [AggregateHash] [PySum F]

/-- `_aggregate_stored_base` -/
def aggregateStoredBase (base query : BarQuery) : Service F (List (MarketBar F)) := do
  let bars ← Ask.readAll base.key (some query.startMs) (some query.endMs)
  Calls.ofExcept (aggregateMarketBars D bars query)

def fromStorage (query : BarQuery) (bars : List (MarketBar F)) : Service F (BarSeries F) :=
  Calls.ofExcept (seriesFromMarketBars query bars "storage")

/-- `fetch_bars` without a derivation. -/
def fetchStored (query : BarQuery) : Service F (BarSeries F) := do
  let bars ← storedBarsOf query
  if ← Calls.ofExcept (coverageComplete bars query) then fromStorage query bars
  else do
    let _ ← ensureStored query
    let bars ← storedBarsOf query
    if bars.isEmpty then fromStorage query bars
    else if ← Calls.ofExcept (coverageComplete bars query) then fromStorage query bars
    else .fail (.coverageValidationError
      "Stored/provider bars do not cover every requested timestamp")

/-- `fetch_bars` of a timeframe that is derived from the base timeframe. -/
def fetchDerived (base query : BarQuery) : Service F (BarSeries F) := do
  let derived ← storedBarsOf query
  if ← Calls.ofExcept (coverageComplete derived query) then fromStorage query derived
  else do
    let _ ← ensureStored base
    let derived ← storedBarsOf query
    if ← Calls.ofExcept (coverageComplete derived query) then fromStorage query derived
    else do
      let derived ← aggregateStoredBase D base query
      if derived.isEmpty then fromStorage query []
      else do
        mergeDerivedBars query derived
        let derived ← storedBarsOf query
        if ← Calls.ofExcept (coverageComplete derived query) then fromStorage query derived
        else .fail (.coverageValidationError "Derived bars do not cover every requested timestamp")

def fetchBars (config : HistoryConfig) (query : BarQuery) : Service F (BarSeries F) := do
  let base ← Calls.ofExcept (baseQuery config query)
  if base.timeframe = query.timeframe then fetchStored base else fetchDerived D base query

def precomputeBars (config : HistoryConfig) (query : BarQuery) : Service F (BarSeries F) :=
  fetchBars D config query

structure Materialized where
  ok : Bool
  spanOk : Bool
  changed : Bool
  rowsWritten : Option Nat
  deriving DecidableEq, Repr

def materialized (query : BarQuery) (changed : Bool) (rowsWritten : Option Nat) :
    Service F Materialized := do
  let ok ← storedCoverageComplete query
  let spanOk ← storedSpanComplete query
  return ⟨ok, spanOk, changed, rowsWritten⟩

def materializeDerived (base query : BarQuery) : Service F Materialized := do
  let derived ← aggregateStoredBase D base query
  if derived.isEmpty then materialized query false (some 0)
  else do
    mergeDerivedBars query derived
    materialized query true (some derived.length)

def materializeBars (config : HistoryConfig) (query : BarQuery) : Service F Materialized := do
  let base ← Calls.ofExcept (baseQuery config query)
  if ← storedCoverageComplete query then
    return ⟨true, ← storedSpanComplete query, false, none⟩
  else if base.timeframe = query.timeframe then do
    let changed ← ensureStored base
    materialized query changed none
  else do
    let baseChanged ← ensureStored base
    if ← storedCoverageComplete query then
      return ⟨true, ← storedSpanComplete query, baseChanged, none⟩
    else if baseChanged then materializeDerived D base query
    else if ← storedSpanComplete query then
      return ⟨← storedCoverageComplete query, true, false, none⟩
    else materializeDerived D base query

end Fetch

end MarketdataProvider
