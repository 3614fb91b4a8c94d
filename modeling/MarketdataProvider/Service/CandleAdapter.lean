import MarketdataProvider.Contracts.Series
import MarketdataProvider.Service.StoreFiles

namespace MarketdataProvider

open Foundation Foundation.Crash

/-- The payload of `marketdata-provider.compat-v4-bar.v1`. -/
structure CompatPayload where
  instrumentId : String
  timeframe : String
  time : Int
  timeClose : Int
  openText : String
  highText : String
  lowText : String
  closeText : String
  volumeText : String
  closed : Bool
  deriving DecidableEq

/-- `content_hash` of the contract package. -/
class CompatHash where
  contentHash : CompatPayload → String

section Convert

variable [PyText] {F : Type} [PyFloat F]

/-- `value or 0.0` -/
def orZero (value : F) : F := if PyFloat.eq value PyFloat.zero then PyFloat.zero else value

variable [CompatHash]

def compatPayload (bar : ContractBar F) : CompatPayload where
  instrumentId := bar.instrument.serialize
  timeframe := bar.timeframe.canonical
  time := bar.time
  timeClose := bar.timeClose
  openText := PyFloat.str bar.openPrice
  highText := PyFloat.str bar.high
  lowText := PyFloat.str bar.low
  closeText := PyFloat.str bar.close
  volumeText := PyFloat.str (orZero bar.volume)
  closed := bar.closed

def contractToMarketBar (bar : ContractBar F) : MarketBar F where
  time := bar.time
  openPrice := bar.openPrice
  high := bar.high
  low := bar.low
  close := bar.close
  volume := orZero bar.volume
  timeClose := some bar.timeClose
  exchange := bar.instrument.exchange
  market := bar.instrument.market
  symbol := bar.instrument.symbol
  timeframe := bar.timeframe.canonical
  sourceTransport := "api"
  sourceKind := "trade_kline"
  source := ""
  isClosed := bar.closed
  provider := bar.instrument.exchange
  providerRevision := some (CompatHash.contentHash (compatPayload bar))
  revisionState := .original
  revision := 0
  openText := none
  highText := none
  lowText := none
  closeText := none
  volumeText := none
  quoteVolume := none
  turnover := none
  tradesCount := none
  takerBuyBaseVolume := none
  takerBuyQuoteVolume := none
  downloadedAt := none
  metadata := []
  lineage := RevisionState.original_admits

end Convert

section Adapter

variable [PyText] {F : Type} [PyFloat F]

/-- `_stored_bars_read_error` of one stored row. -/
def storedBarReadError (query : BarQuery) (bar : MarketBar F) : Except PyError Unit :=
  match InstrumentKey.make bar.exchange bar.market bar.symbol with
  | .error (.valueError message) =>
      .error (.coverageValidationError s!"stored bar instrument is invalid ({message})")
  | .error other => .error other
  | .ok instrument =>
      if instrument ≠ query.instrument then
        .error (.coverageValidationError ("stored bar instrument does not match query " ++
          s!"({instrument.serialize} != {query.instrument.serialize})"))
      else
        match parseTimeframe bar.timeframe with
        | .error (.valueError message) =>
            .error (.coverageValidationError s!"stored bar timeframe is invalid ({message})")
        | .error other => .error other
        | .ok timeframe =>
            if timeframe ≠ query.timeframe then
              .error (.coverageValidationError ("stored bar timeframe does not match query " ++
                s!"({timeframe.canonical} != {query.timeframe.canonical})"))
            else .ok ()

/-- `_series_write_error` -/
def seriesWriteError (series : BarSeries F) : Option String :=
  series.bars.findSome? fun bar =>
    if bar.instrument ≠ series.query.instrument then
      some ("bar instrument does not match series query " ++
        s!"({bar.instrument.serialize} != {series.query.instrument.serialize})")
    else if bar.timeframe ≠ series.query.timeframe then
      some ("bar timeframe does not match series query " ++
        s!"({bar.timeframe.canonical} != {series.query.timeframe.canonical})")
    else none

/-- `_can_bulk_write_closed`, with the first bar when it can. -/
def canBulkWriteClosed : List (MarketBar F) → Option (MarketBar F × List (MarketBar F))
  | [] => none
  | first :: rest =>
      if (first :: rest).all MarketBar.isClosed && (first :: rest).all fun bar =>
          bar.exchange = first.exchange && bar.market = first.market && bar.symbol = first.symbol &&
            bar.timeframe = first.timeframe && bar.sourceKind = first.sourceKind then
        some (first, rest)
      else none

/-- What went wrong: a text of the adapter, or an exception, whose text is reported. -/
inductive StoreError where
  | refused (message : String)
  | raised (error : PyError)
  deriving DecidableEq, Repr

structure StoreResult where
  success : Bool
  rowsWritten : Nat
  error : Option StoreError
  deriving DecidableEq, Repr

namespace CandleStoreAdapter

/-- `_CandleStoreAdapter.read` -/
def read (query : BarQuery) : Service F (BarSeries F) := do
  let bars ← Ask.readAll query.key (some query.startMs) (some query.endMs)
  Calls.ofExcept (bars.forM (storedBarReadError query))
  Calls.ofExcept (seriesFromMarketBars query bars "storage")

/-- `result.status in {"committed", "upserted"}` -/
def counts : OpenStatus → Bool
  | .upserted => true
  | .closed .committed => true
  | _ => false

variable {Place : Type} (handler : Calls.Handler (StoreCall F) StoreCall.Reply PyError Place)

/-- The bars one after the other; an exception ends the loop with the rows written so far. -/
def storeEach : List (MarketBar F) → Nat → Place → StoreResult × Place
  | [], rowsWritten, place => (⟨true, rowsWritten, none⟩, place)
  | bar :: rest, rowsWritten, place =>
      let store := if bar.isClosed then commitClosedOrOpen bar else upsertOpen bar
      match store.run handler place with
      | (.error error, after) => (⟨false, rowsWritten, some (.raised error)⟩, after)
      | (.ok status, after) =>
          storeEach rest (if counts status then rowsWritten + 1 else rowsWritten) after

variable [CompatHash]

/-- `_CandleStoreAdapter.write` -/
def write (series : BarSeries F) (place : Place) : StoreResult × Place :=
  match seriesWriteError series with
  | some message => (⟨false, 0, some (.refused message)⟩, place)
  | none =>
      let marketBars := series.bars.map contractToMarketBar
      match canBulkWriteClosed marketBars with
      | some (first, rest) =>
          match (Ask.bulkWriteClosed first rest).run handler place with
          | (.error error, after) => (⟨false, 0, some (.raised error)⟩, after)
          | (.ok rowsWritten, after) => (⟨true, rowsWritten, none⟩, after)
      | none => storeEach handler marketBars 0 place

end CandleStoreAdapter

end Adapter

section Carried

variable [PyText] {F : Type} [PyFloat F]

variable {query : BarQuery} {bar : MarketBar F} {made : ContractBar F}

/-- The contract bar of a stored bar, field by field. -/
theorem contractBarOf_fields (returned : contractBarOf query bar = .ok made) :
    made.timeframe = query.timeframe ∧ timeCloseOf query.timeframe bar = .ok made.timeClose ∧
      made.openPrice = bar.openPrice ∧ made.high = bar.high ∧ made.low = bar.low ∧
        made.close = bar.close ∧ made.volume = bar.volume := by
  obtain ⟨instrument, -, returned⟩ := bind_eq_ok.mp returned
  obtain ⟨timeClose, found, returned⟩ := bind_eq_ok.mp returned
  unfold toContractBar at returned
  split_ifs at returned
  cases returned
  exact ⟨rfl, found, rfl, rfl, rfl, rfl, rfl⟩

end Carried

section Read

variable [PyText] {F : Type} [PyFloat F] {query : BarQuery} {bar : MarketBar F} {made : ContractBar F}

/-- Every part of an instrument was named. -/
theorem InstrumentKey.make_named {exchange market symbol : String} {instrument : InstrumentKey}
    (returned : InstrumentKey.make exchange market symbol = .ok instrument) :
    exchange ≠ "" ∧ market ≠ "" ∧ symbol ≠ "" := by
  have noLower : PyText.lower (stripped "") = "" := PyText.lower_ascii _ rfl
  have noUpper : PyText.upper (stripped "") = "" := PyText.upper_ascii _ rfl
  unfold InstrumentKey.make at returned
  dsimp only at returned
  split_ifs at returned with noExchange noMarket noSymbol
  refine ⟨?_, ?_, ?_⟩
  · rintro rfl
    exact noExchange noLower
  · rintro rfl
    exact noMarket noLower
  · rintro rfl
    exact noSymbol noUpper

omit [PyFloat F] in
theorem storedBarReadError_ok (accepted : storedBarReadError query bar = .ok ()) :
    InstrumentKey.make bar.exchange bar.market bar.symbol = .ok query.instrument := by
  unfold storedBarReadError at accepted
  split at accepted
  · cases accepted
  · cases accepted
  · rename_i instrument made
    split_ifs at accepted with other
    rw [made, not_not.mp other]

/-- The contract bar of an accepted row is of the instrument of the query. -/
theorem instrument_of_contractBarOf (accepted : storedBarReadError query bar = .ok ())
    (returned : contractBarOf query bar = .ok made) : made.instrument = query.instrument := by
  have own := storedBarReadError_ok accepted
  obtain ⟨exchange, market, symbol⟩ := InstrumentKey.make_named own
  rw [contractBarOf, orQuery, orQuery, orQuery, if_neg exchange, if_neg market, if_neg symbol, own,
    ok_bind] at returned
  obtain ⟨timeClose, -, returned⟩ := bind_eq_ok.mp returned
  unfold toContractBar at returned
  split_ifs at returned
  cases returned
  rfl

end Read

section WriteBack

variable [PyText] {F : Type} [PyFloat F] [CompatHash] {query : BarQuery} {stored : ClosedSeries F}
  {made : List (ContractBar F)} {start stop : Option Int}

/-- What a read of a series hands out, bar by bar. -/
structure HandsOut (query : BarQuery) (bars : List (MarketBar F)) (made : List (ContractBar F)) : Prop where
  accepted : ∀ bar ∈ bars, storedBarReadError query bar = .ok ()
  mapped : bars.mapM (contractBarOf query) = .ok made

variable {bars : List (MarketBar F)}

omit [CompatHash] in
theorem HandsOut.own (hands : HandsOut query bars made) :
    ∀ contract ∈ made, contract.instrument = query.instrument ∧ contract.timeframe = query.timeframe := by
  intro contract member
  obtain ⟨bar, inside, returned⟩ := of_mem_mapM hands.mapped contract member
  exact ⟨instrument_of_contractBarOf (hands.accepted bar inside) returned, (contractBarOf_fields returned).1⟩

omit [CompatHash] in
theorem HandsOut.writable (hands : HandsOut query bars made) (coverage : CoverageReport) :
    seriesWriteError ⟨query, made, coverage⟩ = none := by
  rw [seriesWriteError, List.findSome?_eq_none_iff]
  intro contract member
  obtain ⟨instrument, timeframe⟩ := hands.own contract member
  rw [if_neg (not_not.mpr instrument), if_neg (not_not.mpr timeframe)]

omit [CompatHash] in
theorem HandsOut.closed (hands : HandsOut query bars made) (closed : ∀ bar ∈ bars, bar.isClosed = true) :
    ∀ contract ∈ made, contract.closed = true := by
  intro contract member
  obtain ⟨bar, inside, returned⟩ := of_mem_mapM hands.mapped contract member
  rw [(contractBarOf_ok returned).2, closed bar inside]

theorem HandsOut.key (hands : HandsOut query bars made) :
    ∀ bar ∈ made.map contractToMarketBar, bar.key = query.key := by
  intro bar member
  obtain ⟨contract, inside, rfl⟩ := List.mem_map.mp member
  obtain ⟨instrument, timeframe⟩ := hands.own contract inside
  rw [BarQuery.key, ← instrument, ← timeframe]
  rfl

/-- Bars that are read back are written in bulk. -/
theorem HandsOut.bulk (hands : HandsOut query bars made) (closed : ∀ bar ∈ bars, bar.isClosed = true)
    {first : MarketBar F} {rest : List (MarketBar F)} (shape : made.map contractToMarketBar = first :: rest) :
    canBulkWriteClosed (made.map contractToMarketBar) = some (first, rest) := by
  have keys := hands.key
  have allClosed : ∀ bar ∈ made.map contractToMarketBar, bar.isClosed = true := by
    intro bar member
    obtain ⟨contract, inside, rfl⟩ := List.mem_map.mp member
    exact hands.closed closed contract inside
  rw [shape] at keys allClosed ⊢
  have head := keys first List.mem_cons_self
  rw [canBulkWriteClosed, if_pos]
  rw [Bool.and_eq_true, List.all_eq_true, List.all_eq_true]
  refine ⟨allClosed, ?_⟩
  intro bar member
  have own := (keys bar member).trans head.symm
  simp only [MarketBar.key, SeriesKey.mk.injEq] at own
  obtain ⟨exchange, market, symbol, timeframe, sourceKind⟩ := own
  simp [exchange, market, symbol, timeframe, sourceKind]

theorem HandsOut.known (hands : HandsOut query (stored.range start stop) made) :
    ∀ bar ∈ made.map contractToMarketBar, (barAt stored.bars bar.time).isSome = true := by
  intro back member
  obtain ⟨contract, inside, rfl⟩ := List.mem_map.mp member
  obtain ⟨bar, stands, returned⟩ := of_mem_mapM hands.mapped contract inside
  change (barAt stored.bars contract.time).isSome = true
  rw [(contractBarOf_ok returned).1, barAt_isSome_iff]
  exact List.mem_map_of_mem (List.mem_filter.mp stands).1

end WriteBack

section Noop

variable [PyText] {F : Type} [PyFloat F] [Sha256] [Parquet] {environment : Environment F} {store : SegmentStore}
  {normal : SeriesKey} {pending : Nat → Bool} {disk between : FileWorld F} {query : BarQuery} {series : BarSeries F}
  {directory : List String} {stored : Option (ClosedSeries F)} {state after : SeriesState} {start : Option Int}

variable [CompatHash]

section Bulk

variable {bars : List (MarketBar F)} {made : List (ContractBar F)} {first : MarketBar F} {rest : List (MarketBar F)}
  {coverage : CoverageReport}

omit [Sha256] [Parquet] in
/-- What is written back starts where the read started. -/
theorem HandsOut.heads (hands : HandsOut query bars made) (sorted : bars.Pairwise (·.time < ·.time))
    (shape : made.map contractToMarketBar = first :: rest) :
    ∃ head, bars.head? = some head ∧ first.time = head.time ∧ ∀ bar ∈ first :: rest, head.time ≤ bar.time := by
  have times : (first :: rest).map (·.time) = bars.map (·.time) := by
    rw [← shape, List.map_map, ← times_of_contractBars hands.mapped]
    rfl
  cases bars with
  | nil => cases times
  | cons head others =>
      have own : first.time = head.time := (List.cons.inj times).1
      refine ⟨head, rfl, own, fun bar member => ?_⟩
      have inside : bar.time ∈ (head :: others).map (·.time) := times ▸ List.mem_map_of_mem member
      obtain ⟨other, among, same⟩ := List.mem_map.mp inside
      rw [← same]
      rcases List.mem_cons.mp among with rfl | later
      · exact le_refl _
      · exact (List.rel_of_pairwise_cons sorted later).le

end Bulk

section Stored

variable {stored : Option (ClosedSeries F)} {made : List (ContractBar F)} {coverage : CoverageReport}
  (placed : seriesDirectory query.key = .ok directory) (held : Held store normal (disk.files directory) stored)
  (equality : FloatEquality F) (closed : ∀ bar ∈ storedBars stored, bar.isClosed = true)
  (hands : HandsOut query (rangeOf stored (some query.startMs) (some query.endMs)) made)
include placed held equality closed hands

end Stored

section Again

variable (placed : seriesDirectory query.key = .ok directory)
  (held : Held store normal (disk.files directory) stored)
  (returned : (CandleStoreAdapter.read query).run (handleFiles environment pending store) disk =
    (.ok series, between))
include placed held returned

variable (equality : FloatEquality F) (rounding : IntRounding F)
  (closed : ∀ bar ∈ storedBars stored, bar.isClosed = true)
include equality rounding closed

end Again

end Noop

end MarketdataProvider

namespace MarketdataProvider.Reference

open scoped Reference

scoped instance compatHash : CompatHash where
  contentHash payload := payload.instrumentId ++ "@" ++ toString payload.time

end MarketdataProvider.Reference

namespace MarketdataProvider

open Foundation Reference

open scoped Reference

/-- A source that has nothing. -/
def offline : Environment Whole := ⟨⟨true, true, "1m", 0⟩, 0, fun _ => ⟨fun _ _ => .ok [], fun _ => .ok []⟩⟩

def worldOf (series : ClosedSeries Whole) : World Whole := ⟨fun _ => some series, [], 0⟩

end MarketdataProvider
