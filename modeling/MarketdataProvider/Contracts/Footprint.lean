import MarketdataProvider.Contracts.Series

namespace MarketdataProvider

structure AggTrade (F : Type) where
  tradeId : Int
  time : Int
  price : F
  quantity : F
  buyerMaker : Bool
  deriving DecidableEq, Repr

inductive FootprintSource where
  | storage
  | provider
  | auto
  deriving DecidableEq, Repr

/-- A footprint query; its timeframe has a fixed duration and its bucket size is positive. -/
structure FootprintQuery (F : Type) [PyText] [PyFloat F] where
  instrument : InstrumentKey
  timeframe : Timeframe
  startMs : Int
  endMs : Int
  bucketSize : F
  source : FootprintSource
  gapPolicy : GapPolicy
  duration : Int
  ordered : startMs < endMs
  fixed : timeframe.durationMs = some duration
  positive : PyFloat.lt bucketSize PyFloat.zero = false ∧ PyFloat.eq bucketSize PyFloat.zero = false

section Files

variable [PyText] {F : Type} [PyFloat F] {query series : FootprintQuery F}

/-- Two queries of one instrument, timeframe and bucket size have one file. -/
def FootprintQuery.SharesFile (query other : FootprintQuery F) : Prop :=
  query.instrument = other.instrument ∧ query.timeframe = other.timeframe ∧
    query.bucketSize = other.bucketSize

theorem FootprintQuery.SharesFile.duration (shares : query.SharesFile series) :
    query.duration = series.duration := by
  have fixed := query.fixed
  rw [shares.2.1, series.fixed, Option.some_inj] at fixed
  exact fixed.symm

theorem FootprintQuery.duration_nonneg (query : FootprintQuery F) : 0 ≤ query.duration := by
  have known := query.timeframe.duration
  rw [query.fixed, timeframeDuration] at known
  split at known
  · cases known
  · obtain ⟨duration, fixed, same⟩ := Foundation.map_eq_ok.mp known
    cases same
    exact timeframeMs_nonneg fixed

end Files

structure FootprintLevel (F : Type) where
  priceLow : F
  priceHigh : F
  buyVolume : F
  sellVolume : F
  buyCount : Int
  sellCount : Int
  deriving DecidableEq, Repr

structure FootprintBar (F : Type) where
  time : Int
  timeClose : Int
  levels : List (FootprintLevel F)
  tradesCount : Int
  deriving DecidableEq, Repr

structure FootprintSeries (F : Type) [PyText] [PyFloat F] where
  query : FootprintQuery F
  bars : List (FootprintBar F)
  coverage : CoverageReport

section Coverage

variable [PyText] {F : Type} [PyFloat F]

/-- `_coverage_for`; the store and the service have one each, with the same text. -/
def footprintCoverage (query : FootprintQuery F) (bars : List (FootprintBar F)) :
    Except PyError CoverageReport := do
  let expected ← pyRange query.startMs query.endMs query.duration
  let missing := (expected.filter (· ∉ bars.map FootprintBar.time)).map fun start =>
    (start, min (start + query.duration) query.endMs)
  return {
    requestedStartMs := query.startMs
    requestedEndMs := query.endMs
    deliveredStartMs := bars.head?.map FootprintBar.time
    deliveredEndMs := bars.getLast?.map FootprintBar.timeClose
    missingIntervals := missing
    duplicateTimestamps := []
    sourceMix := ["footprint"]
    status := if bars = [] then .empty else if missing ≠ [] then .gap else .valid }

/-- `is_complete` -/
def CoverageReport.isComplete (report : CoverageReport) : Bool :=
  report.status = .valid && report.missingIntervals = [] && report.duplicateTimestamps = []

/-- The bars that open in `[start, stop)`. -/
def footprintWithin (start stop : Int) (bars : List (FootprintBar F)) : List (FootprintBar F) :=
  bars.filter fun bar => start ≤ bar.time ∧ bar.time < stop

end Coverage

end MarketdataProvider
