import MarketdataProvider.Contracts.Query

namespace MarketdataProvider

open Foundation

variable [PyText] {F : Type} [PyFloat F]

/-- A bar of the public contract; `__post_init__` refuses every other one. -/
structure ContractBar (F : Type) [PyFloat F] where
  instrument : InstrumentKey
  timeframe : Timeframe
  time : Int
  timeClose : Int
  openPrice : F
  high : F
  low : F
  close : F
  volume : F
  closed : Bool
  closesLater : time < timeClose
  highest : PyFloat.lt high (PyFloat.max openPrice close) = false
  lowest : PyFloat.lt (PyFloat.min openPrice close) low = false
  nonNegative : PyFloat.lt volume PyFloat.zero = false

/-- `core_to_contract_bar` with a close time that is already known. -/
def toContractBar (instrument : InstrumentKey) (timeframe : Timeframe) (timeClose : Int)
    (bar : MarketBar F) : Except PyError (ContractBar F) :=
  if closesLater : bar.time < timeClose then
    if highest : PyFloat.lt bar.high (PyFloat.max bar.openPrice bar.close) = false then
      if lowest : PyFloat.lt (PyFloat.min bar.openPrice bar.close) bar.low = false then
        if nonNegative : PyFloat.lt bar.volume PyFloat.zero = false then
          .ok {
            instrument, timeframe, timeClose, closesLater, highest, lowest, nonNegative
            time := bar.time
            openPrice := bar.openPrice
            high := bar.high
            low := bar.low
            close := bar.close
            volume := bar.volume
            closed := bar.isClosed }
        else .error (.valueError "volume must be non-negative or None")
      else .error (.valueError "low must be <= min(open, close)")
    else .error (.valueError "high must be >= max(open, close)")
  else .error (.valueError "time_close must be greater than time")

/-- The close time of a bar, by default that of its timeframe. -/
def timeCloseOf (timeframe : Timeframe) (bar : MarketBar F) : Except PyError Int :=
  match bar.timeClose with
  | some timeClose => .ok timeClose
  | none => closeTimeMs bar.time timeframe.canonical

def coreToContractBar (instrument : InstrumentKey) (timeframe : Timeframe) (bar : MarketBar F) :
    Except PyError (ContractBar F) := do
  toContractBar instrument timeframe (← timeCloseOf timeframe bar) bar

inductive CoverageStatus where
  | valid
  | gap
  | duplicate
  | unordered
  | empty
  deriving DecidableEq, Repr

structure CoverageReport where
  requestedStartMs : Int
  requestedEndMs : Int
  deliveredStartMs : Option Int
  deliveredEndMs : Option Int
  missingIntervals : List (Int × Int)
  duplicateTimestamps : List Int
  sourceMix : List String
  status : CoverageStatus
  deriving DecidableEq, Repr

structure BarSeries (F : Type) [PyFloat F] where
  query : BarQuery
  bars : List (ContractBar F)
  coverage : CoverageReport

/-- `missing_intervals_for` -/
def missingIntervalsFor (query : BarQuery) (times : List Int) : Except PyError (List (Int × Int)) :=
  match query.timeframe.durationMs with
  | none => .ok []
  | some duration => do
      let expected ← pyRange query.startMs query.endMs duration
      return (expected.filter (· ∉ times)).map fun start => (start, min (start + duration) query.endMs)

def barExclusiveEnd (timeframe : Timeframe) (bar : ContractBar F) : Int :=
  match timeframe.durationMs with
  | some duration => bar.time + duration
  | none => bar.timeClose + 1

/-- The times that occur more than once, in order. -/
def repeatedTimes (ordered : List Int) : List Int :=
  (ordered.filter fun time => 1 < ordered.count time).dedup

def coverageStatus (times ordered : List Int) (missing : List (Int × Int)) : CoverageStatus :=
  if repeatedTimes ordered ≠ [] then .duplicate
  else if times ≠ ordered then .unordered
  else if missing ≠ [] then .gap
  else .valid

def coverageReport (query : BarQuery) (bars : List (ContractBar F)) (source : String) :
    Except PyError CoverageReport :=
  let ordered := bars.insertionSort fun left right => left.time ≤ right.time
  match ordered.head?, ordered.getLast? with
  | some first, some last => do
      let missing ← missingIntervalsFor query (ordered.map ContractBar.time)
      return {
        requestedStartMs := query.startMs
        requestedEndMs := query.endMs
        deliveredStartMs := some first.time
        deliveredEndMs := some (barExclusiveEnd query.timeframe last)
        missingIntervals := missing
        duplicateTimestamps := repeatedTimes (ordered.map ContractBar.time)
        sourceMix := [source]
        status := coverageStatus (bars.map ContractBar.time) (ordered.map ContractBar.time) missing }
  | _, _ => .ok {
      requestedStartMs := query.startMs
      requestedEndMs := query.endMs
      deliveredStartMs := none
      deliveredEndMs := none
      missingIntervals := [(query.startMs, query.endMs)]
      duplicateTimestamps := []
      sourceMix := [source]
      status := .empty }

/-- A stored bar without an identity takes that of the query. -/
def orQuery (own query : String) : String := if own = "" then query else own

def contractBarOf (query : BarQuery) (bar : MarketBar F) : Except PyError (ContractBar F) := do
  let instrument ← InstrumentKey.make (orQuery bar.exchange query.instrument.exchange)
    (orQuery bar.market query.instrument.market) (orQuery bar.symbol query.instrument.symbol)
  coreToContractBar instrument query.timeframe bar

/-- `series_from_market_bars` -/
def seriesFromMarketBars (query : BarQuery) (bars : List (MarketBar F)) (source : String) :
    Except PyError (BarSeries F) := do
  let contractBars ← bars.mapM (contractBarOf query)
  let coverage ← coverageReport query contractBars source
  return ⟨query, contractBars, coverage⟩

theorem toContractBar_ok {instrument : InstrumentKey} {timeframe : Timeframe} {timeClose : Int}
    {bar : MarketBar F} {made : ContractBar F}
    (returned : toContractBar instrument timeframe timeClose bar = .ok made) :
    made.time = bar.time ∧ made.closed = bar.isClosed := by
  unfold toContractBar at returned
  split_ifs at returned
  cases returned
  exact ⟨rfl, rfl⟩

/-- A contract bar opens when its stored bar does. -/
theorem contractBarOf_ok {query : BarQuery} {bar : MarketBar F} {made : ContractBar F}
    (returned : contractBarOf query bar = .ok made) :
    made.time = bar.time ∧ made.closed = bar.isClosed := by
  obtain ⟨_, _, returned⟩ := bind_eq_ok.mp returned
  obtain ⟨_, _, returned⟩ := bind_eq_ok.mp returned
  exact toContractBar_ok returned

theorem times_of_contractBars {query : BarQuery} {bars : List (MarketBar F)}
    {made : List (ContractBar F)} (returned : bars.mapM (contractBarOf query) = .ok made) :
    made.map ContractBar.time = bars.map (·.time) := by
  rw [mapM_eq_ok] at returned
  induction returned with
  | nil => rfl
  | cons converted _ ih => rw [List.map_cons, List.map_cons, ih, (contractBarOf_ok converted).1]

end MarketdataProvider
