import MarketdataProvider.Contracts.Query
import MarketdataProvider.Core.Decimal

namespace MarketdataProvider

open Foundation

variable [PyText] {F : Type} [PyFloat F]

/-- `sum(values)` of floats -/
class PySum (F : Type) where
  sum : List F → F

/-- What `content_hash` is given of one bar of a bucket. -/
structure RevisionSource where
  time : Int
  timeClose : Option Int
  openText : String
  highText : String
  lowText : String
  closeText : String
  volumeText : String
  isClosed : Bool
  provider : String
  providerRevision : Option String
  revisionState : RevisionState
  revision : Int
  deriving DecidableEq

def revisionSource (bar : MarketBar F) : RevisionSource where
  time := bar.time
  timeClose := bar.timeClose
  openText := textOr bar.openText bar.openPrice
  highText := textOr bar.highText bar.high
  lowText := textOr bar.lowText bar.low
  closeText := textOr bar.closeText bar.close
  volumeText := textOr bar.volumeText bar.volume
  isClosed := bar.isClosed
  provider := bar.provider
  providerRevision := bar.providerRevision
  revisionState := bar.revisionState
  revision := bar.revision

/-- The payload of `marketdata-provider.aggregate-revision.v2`. -/
structure AggregatePayload where
  provider : String
  timeframe : String
  bucketTime : Int
  sourceBars : List RevisionSource
  deriving DecidableEq

/-- `content_hash` of the contract package. -/
class AggregateHash where
  contentHash : AggregatePayload → String

section Aggregate

variable (D : Type) [PyDecimal D] [AggregateHash]

/-- The one provider of a bucket; an empty provider does not count. -/
def onlyProvider (bucket : List (MarketBar F)) : Except PyError String :=
  match ((bucket.map MarketBar.provider).filter (· ≠ "")).dedup with
  | [provider] => .ok provider
  | _ => .error (.mdValidationError "aggregate bucket requires one provider")

variable [PySum F]

/-- `_aggregate_bucket` of a bucket that starts with `first`. -/
def aggregateBucket (bucketTime : Int) (first : MarketBar F) (rest : List (MarketBar F))
    (query : BarQuery) : Except PyError (MarketBar F) := do
  let bucket := first :: rest
  let traded := bucket.filter fun bar => PyFloat.lt PyFloat.zero bar.volume
  let priced := if traded.isEmpty then bucket else traded
  let opening := priced.headD first
  let closing := priced.getLastD first
  let provider ← onlyProvider bucket
  let highs ← rest.mapM (keyed D fun bar => textOr bar.highText bar.high)
  let firstHigh ← keyed D (fun bar => textOr bar.highText bar.high) first
  let lows ← rest.mapM (keyed D fun bar => textOr bar.lowText bar.low)
  let firstLow ← keyed D (fun bar => textOr bar.lowText bar.low) first
  let volumes ← bucket.mapM fun bar => parseDecimal D (textOr bar.volumeText bar.volume)
  let highSource := (firstGreatest PyDecimal.lt firstHigh highs).1
  let lowSource := (firstLeast PyDecimal.lt firstLow lows).1
  let volume := volumes.foldl PyDecimal.add PyDecimal.zero
  let timeClose ← closeTimeMs bucketTime query.timeframe.canonical
  return {
    time := bucketTime
    openPrice := opening.openPrice
    high := rest.foldl (fun high bar => PyFloat.max high bar.high) first.high
    low := rest.foldl (fun low bar => PyFloat.min low bar.low) first.low
    close := closing.close
    volume := PySum.sum (bucket.map fun bar => bar.volume)
    timeClose := some timeClose
    exchange := query.instrument.exchange
    market := query.instrument.market
    symbol := query.instrument.symbol
    timeframe := query.timeframe.canonical
    sourceTransport := "derived"
    sourceKind := "trade_kline"
    source := ""
    isClosed := bucket.all MarketBar.isClosed
    provider
    providerRevision := some (AggregateHash.contentHash
      ⟨provider, query.timeframe.canonical, bucketTime, bucket.map revisionSource⟩)
    revisionState := .original
    revision := 0
    openText := some (textOr opening.openText opening.openPrice)
    highText := some (textOr highSource.highText highSource.high)
    lowText := some (textOr lowSource.lowText lowSource.low)
    closeText := some (textOr closing.closeText closing.close)
    volumeText := some (PyDecimal.format volume)
    quoteVolume := none
    turnover := none
    tradesCount := none
    takerBuyBaseVolume := none
    takerBuyQuoteVolume := none
    downloadedAt := none
    metadata := []
    lineage := RevisionState.original_admits }

/-- The bars of one bucket in a row. -/
structure Bucket (F : Type) where
  time : Int
  first : MarketBar F
  rest : List (MarketBar F)

/-- A bar of the current bucket joins it, any other one opens the next bucket. -/
def addToBuckets (duration : Int) (buckets : List (Bucket F)) (bar : MarketBar F) : List (Bucket F) :=
  let time := bar.time / duration * duration
  match buckets.getLast? with
  | none => [⟨time, bar, []⟩]
  | some current =>
      if time = current.time then
        buckets.dropLast ++ [{ current with rest := current.rest ++ [bar] }]
      else buckets ++ [⟨time, bar, []⟩]

/-- The bars whose bucket starts inside the query. -/
def inBuckets (duration : Int) (query : BarQuery) (bar : MarketBar F) : Bool :=
  query.startMs ≤ bar.time / duration * duration && bar.time / duration * duration < query.endMs

/-- `_aggregate_market_bars` -/
def aggregateMarketBars (bars : List (MarketBar F)) (query : BarQuery) :
    Except PyError (List (MarketBar F)) :=
  match query.timeframe.durationMs with
  | none => .error (.mdUnsupportedFeature
      ("Aggregation unsupported for timeframe: " ++ query.timeframe.canonical))
  | some duration =>
      if duration = 0 ∧ bars ≠ [] then .error .zeroDivisionError
      else
        ((bars.filter (inBuckets duration query)).foldl (addToBuckets duration) []).mapM fun bucket =>
          aggregateBucket D bucket.time bucket.first bucket.rest query

end Aggregate

end MarketdataProvider

namespace MarketdataProvider.Reference

scoped instance wholeSum : PySum Whole where
  sum values := ⟨(values.map Whole.value).sum⟩

scoped instance aggregateHash : AggregateHash where
  contentHash payload := payload.timeframe ++ "/" ++ toString payload.bucketTime

end MarketdataProvider.Reference
