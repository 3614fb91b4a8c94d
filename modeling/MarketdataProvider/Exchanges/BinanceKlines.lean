import MarketdataProvider.Exchanges.BinanceTrades
import MarketdataProvider.Exchanges.KlinePages

namespace MarketdataProvider

open Foundation

/-- `BINANCE_ENDPOINTS` -/
def binanceEndpoints : List (String × String) :=
  [("spot", "/api/v3/klines"), ("usdm", "/fapi/v1/klines"), ("coinm", "/dapi/v1/klines")]

/-- `_limit` -/
def binanceLimit (cfg : BinanceConfig) (market : String) : Int :=
  if market = "spot" then cfg.maxLimitSpot else cfg.maxLimitUsdm

def binanceTimeEndpoint (market : String) : String :=
  if market = "spot" then "/api/v3/time"
  else if market = "coinm" then "/dapi/v1/time"
  else "/fapi/v1/time"

structure BinanceKlineParams where
  symbol : String
  interval : String
  limit : Int
  startTime : Option Int
  endTime : Option Int

inductive BinanceKlinePayload where
  | list (rows : List (List Cell))
  | other

/-- The requests that a client makes with its retries, `_get_json`; `time` answers `serverTime`. -/
structure BinanceKlineClient where
  time : String → Except PyError (Option Cell)
  klines : String → BinanceKlineParams → Except PyError BinanceKlinePayload

section Requests

variable [PyText] {F : Type} [PyFloat F]

/-- `_server_time_ms` -/
def binanceServerTimeMs (client : BinanceKlineClient) (base market : String) : Except PyError Int := do
  let payload ← client.time (base ++ binanceTimeEndpoint market)
  match payload.map Cell.toInt with
  | some (.ok serverTime) => return serverTime
  | _ => .error (.mdInvalidExchangeResponse "Binance server time payload missing serverTime" [])

/-- What the requests of one call share. -/
structure BinanceKlineTarget where
  url : String
  ns : NormalizedSymbol
  interval : String
  limit : Int
  serverTime : Int

def binanceKlineTarget (client : BinanceKlineClient) (cfg : BinanceConfig) (symbol timeframe : String)
    (market : Option String) : Except PyError BinanceKlineTarget := do
  let ns ← normalizeSymbol symbol (some "BINANCE") market
  let interval ← toBinanceInterval timeframe
  let base ← baseUrl cfg ns.market
  match binanceEndpoints.lookup ns.market with
  | none => .error (.keyError ns.market)
  | some endpoint =>
      let serverTime ← binanceServerTimeMs client base ns.market
      return { url := base ++ endpoint, ns, interval, limit := binanceLimit cfg ns.market, serverTime }

/-- One request of the loop and what the normalizer makes of its answer. -/
def binanceKlinePage (client : BinanceKlineClient) (target : BinanceKlineTarget) (timeframe : String)
    (stop : Option Int) (includeOpenCandle : Bool) : KlineFetch F := fun cursor limit => do
  let params : BinanceKlineParams := {
    symbol := target.ns.exchangeSymbol
    interval := target.interval
    limit
    startTime := cursor
    endTime := stop.map (· - 1) }
  match ← client.klines target.url params with
  | .other => .error (.mdInvalidExchangeResponse "Binance kline payload must be a list" [])
  | .list rows =>
      let bars ← normalizeBinanceKlines rows target.ns.exchangeSymbol target.ns.market timeframe
        (some target.serverTime) includeOpenCandle
      return ⟨rows.length, bars⟩

/-- `fuel` bounds the number of pages. -/
def binanceGetBarsSync (client : BinanceKlineClient) (cfg : BinanceConfig) (symbol timeframe : String)
    (start stop : Option Int) (market : Option String) (maxBars : Option Int) (includeOpenCandle : Bool)
    (fuel : Nat) : Option (Except PyError (List (MarketBar F))) :=
  match binanceKlineTarget client cfg symbol timeframe market with
  | .error error => some (.error error)
  | .ok target =>
      (klinePages (binanceKlinePage client target timeframe stop includeOpenCandle)
        "Binance pagination cursor did not advance" timeframe start stop
        (perPage target.limit maxBars) maxBars fuel start []).map (· >>= finishPages maxBars)

end Requests

section History

variable [PyText] {F : Type} [PyFloat F]

/-- The server answers with the first klines of the asked range. -/
def BinanceKlineClient.Serves (client : BinanceKlineClient) (url symbol interval : String)
    (history : List (Kline F)) : Prop :=
  ∀ startTime endTime limit,
    client.klines url ⟨symbol, interval, limit, some startTime, some endTime⟩ =
      .ok (.list (((klinesWithin startTime (endTime + 1) history).take limit.toNat).map Kline.row))

variable {client : BinanceKlineClient} {cfg : BinanceConfig} {ticker timeframe interval base endpoint : String}
  {market : Option String} {ns : NormalizedSymbol} {history : List (Kline F)} {serverTime start stop : Int}

/-- A page of the server, with its closed klines. -/
theorem binanceKlinePage_serves (target : BinanceKlineTarget) (stop : Int)
    (serves : client.Serves target.url target.ns.exchangeSymbol target.interval history)
    (klines : KlineHistory (binanceKlineBar target.ns.exchangeSymbol target.ns.market timeframe
      (some target.serverTime)) timeframe history) (cursor size : Int) :
    binanceKlinePage client target timeframe (some stop) false (some cursor) size =
      .ok (pageOf target.serverTime ((klinesWithin cursor stop history).take size.toNat)) := by
  have page := (klines.within cursor stop).sublist (List.take_sublist size.toNat _)
  have answered := serves cursor (stop - 1) size
  rw [Int.sub_add_cancel] at answered
  have read : (((klinesWithin cursor stop history).take size.toNat).map Kline.row).mapM
      (binanceKlineBar target.ns.exchangeSymbol target.ns.market timeframe (some target.serverTime)) =
        .ok (((klinesWithin cursor stop history).take size.toNat).map Kline.bar) := by
    rw [mapM_eq_ok, List.forall₂_map_left_iff, List.forall₂_map_right_iff, List.forall₂_same]
    exact page.read
  have finished := finishKlines_klines page target.serverTime (List.Perm.refl _)
  simp only [binanceKlinePage, Option.map_some, answered, ok_bind, normalizeBinanceKlines, read, finished]
  rw [List.length_map]
  rfl

/-- The client ends, and it returns the closed klines of the range in ascending order, or the first of
them, whatever the size of a page. -/
theorem binance_klines_complete
    (normalized : normalizeSymbol ticker (some "BINANCE") market = .ok ns)
    (spelled : toBinanceInterval timeframe = .ok interval)
    (located : baseUrl cfg ns.market = .ok base)
    (served : binanceEndpoints.lookup ns.market = some endpoint)
    (clock : binanceServerTimeMs client base ns.market = .ok serverTime)
    (serves : client.Serves (base ++ endpoint) ns.exchangeSymbol interval history)
    (klines : KlineHistory (binanceKlineBar ns.exchangeSymbol ns.market timeframe (some serverTime))
      timeframe history)
    (maxBars : Option Int) (positive : 1 ≤ binanceLimit cfg ns.market)
    {fuel : Nat} (enough : history.length < fuel) :
    ∃ bars, binanceGetBarsSync client cfg ticker timeframe (some start) (some stop) market maxBars false
        fuel = some (.ok bars) ∧
      bars = firstKlines maxBars (closedBars serverTime (klinesWithin start stop history)) ∧
      bars.Pairwise (·.time < ·.time) := by
  let target : BinanceKlineTarget :=
    ⟨base ++ endpoint, ns, interval, binanceLimit cfg ns.market, serverTime⟩
  have found : binanceKlineTarget client cfg ticker timeframe market = .ok target := by
    simp only [binanceKlineTarget, normalized, spelled, located, served, clock, ok_bind]
    rfl
  have inside := klines.within start stop
  have few : (klinesWithin start stop history).length < fuel :=
    (List.length_filter_le _ _).trans_lt enough
  have pages := klinePages_forward "Binance pagination cursor did not advance" maxBars klines positive
    (binanceKlinePage_serves target stop serves klines) [] (le_refl start) few
  refine ⟨_, ?_, rfl, ?_⟩
  · simp only [binanceGetBarsSync, found]
    have same : (maxBars.map fun count => count - (([] : List (MarketBar F)).length : Int)) = maxBars := by
      simp
    rw [pages, same, List.nil_append, Option.map_some, ok_bind, finishPages_klines maxBars inside]
  · exact inside.ascending.sublist ((firstKlines_sublist maxBars _).trans closedBars_sublist)

end History

end MarketdataProvider

namespace MarketdataProvider

open Foundation Reference
open scoped Reference

namespace Reference

def binanceRow (openTime : Int) : List Cell :=
  [.int openTime, .text "1", .text "1", .text "1", .text "1", .text "1", .int (openTime + 59999)]

/-- A server of klines; its clock stands still. -/
def binanceKlineServer (serverTime : Int) (history : List (Kline Whole)) : BinanceKlineClient where
  time _ := .ok (some (.int serverTime))
  klines _ params := .ok (.list (((klinesWithin (params.startTime.getD 0) (params.endTime.getD 0 + 1)
    history).take params.limit.toNat).map Kline.row))

/-- Four minutes; the kline of the third one is missing, and the fourth one is still open. -/
def binanceMinutes : List (Kline Whole) := [0, 60000, 180000].map (servedMinute "binance" binanceRow 200000)

theorem binanceMinutes_history :
    KlineHistory (binanceKlineBar "BTCUSDT" "spot" "1m" (some 200000)) "1m" binanceMinutes where
  read := by decide +kernel
  wellFormed kline member := by
    obtain ⟨openTime, -, rfl⟩ := List.mem_map.mp member
    refine ⟨rfl, rfl, ?_⟩
    intro close closes
    cases closes
    change openTime ≤ openTime + 59999
    omega
  closes := by decide +kernel
  calendar kline member := by
    have times : ∀ kline ∈ binanceMinutes,
        (closeTimeMs kline.bar.time "1m").toOption = some kline.closeTime := by decide +kernel
    exact eq_ok_of_toOption (times kline member)
  apart := by decide +kernel

theorem minute_binance : toBinanceInterval "1m" = .ok "1m" := eq_ok_of_toOption (by decide +kernel)

/-- Pages of two klines at most. -/
def twoKlines : BinanceConfig := { binanceConfig with maxLimitSpot := 2 }

end Reference

theorem binance_klines_complete_minutes :
    ∃ bars, binanceGetBarsSync (binanceKlineServer 200000 binanceMinutes) twoKlines "BTCUSDT" "1m" (some 0)
        (some 240000) (some "spot") none false 4 = some (.ok bars) ∧
      bars = firstKlines none (closedBars 200000 (klinesWithin 0 240000 binanceMinutes)) ∧
      bars.Pairwise (·.time < ·.time) :=
  binance_klines_complete btcusdt_normalized minute_binance rfl rfl rfl
    (fun _ _ _ => rfl) binanceMinutes_history none (by decide) (by decide)

end MarketdataProvider
