import MarketdataProvider.Exchanges.KlinePages

namespace MarketdataProvider

open Foundation

structure BybitConfig where
  baseUrl : String
  maxLimit : Int

/-- `_category` -/
def bybitCategory (market : String) : Except PyError String :=
  if market = "spot" ∨ market = "linear" ∨ market = "inverse" then .ok market
  else .error (.mdSymbolUnsupported ("Unsupported Bybit market: " ++ market))

def bybitEndpoint : String := "/v5/market/kline"

structure BybitKlineParams where
  category : String
  symbol : String
  interval : String
  limit : Int
  start : Option Int
  stop : Option Int

/-- A payload that is a dict has `retCode` and `result.list`, and each of them may be missing. -/
inductive BybitKlinePayload where
  | dict (retCode : Option Cell) (list : Option (List (List Cell)))
  | other

/-- `result.timeNano` and `result.timeSecond` -/
structure BybitTimePayload where
  timeNano : Option Cell
  timeSecond : Option Cell

/-- The requests that a client makes with its retries, `_get_json`. -/
structure BybitKlineClient where
  time : String → Except PyError BybitTimePayload
  klines : String → BybitKlineParams → Except PyError BybitKlinePayload

section Requests

variable [PyText] {F : Type} [PyFloat F]

/-- `cell not in (None, "")`, for a cell that may be missing. -/
def givenCell (cell : Option Cell) : Option Cell :=
  match cell with
  | none => none
  | some .null => none
  | some (.text "") => none
  | some given => some given

def bybitTimeMs (payload : BybitTimePayload) : Except PyError Int :=
  let timeNano := (givenCell payload.timeNano).filter (· ≠ .int 0)
  match timeNano, givenCell payload.timeSecond with
  | some nanoseconds, _ => (· / 1000000) <$> nanoseconds.toInt
  | none, some seconds => (· * 1000) <$> seconds.toInt
  | none, none => .error (.keyError "timeNano/timeSecond")

/-- `_server_time_ms` -/
def bybitServerTimeMs (client : BybitKlineClient) (baseUrl : String) : Except PyError Int := do
  let payload ← client.time (baseUrl ++ "/v5/market/time")
  match bybitTimeMs payload with
  | .ok serverTime => return serverTime
  | .error _ =>
      .error (.mdInvalidExchangeResponse
        "Bybit server time payload missing result.timeNano/timeSecond" [])

/-- What the requests of one call share. -/
structure BybitKlineTarget where
  url : String
  category : String
  ns : NormalizedSymbol
  interval : String
  serverTime : Int

def bybitKlineTarget (client : BybitKlineClient) (cfg : BybitConfig) (symbol timeframe : String)
    (market : Option String) : Except PyError BybitKlineTarget := do
  let ns ← normalizeSymbol symbol (some "BYBIT") market
  let category ← bybitCategory ns.market
  let interval ← toBybitInterval timeframe
  let serverTime ← bybitServerTimeMs client cfg.baseUrl
  return { url := cfg.baseUrl ++ bybitEndpoint, category, ns, interval, serverTime }

/-- One request of the loop and what the normalizer makes of its answer. -/
def bybitKlinePage (client : BybitKlineClient) (target : BybitKlineTarget) (timeframe : String)
    (stop : Option Int) (includeOpenCandle : Bool) : KlineFetch F := fun cursor limit => do
  let params : BybitKlineParams := {
    category := target.category
    symbol := target.ns.exchangeSymbol
    interval := target.interval
    limit
    start := cursor
    stop := stop.map (· - 1) }
  let refused := PyError.mdInvalidExchangeResponse "Bybit kline request returned non-zero retCode" []
  match ← client.klines target.url params with
  | .other => .error refused
  | .dict retCode list =>
      let code ← (retCode.getD (.int 0)).toInt
      if code ≠ 0 then .error refused
      else do
        let bars ← normalizeBybitKlines (.result list) target.ns.exchangeSymbol target.ns.market timeframe
          (some target.serverTime) includeOpenCandle
        return ⟨(list.getD []).length, bars⟩

/-- `fuel` bounds the number of pages. -/
def bybitGetBarsSync (client : BybitKlineClient) (cfg : BybitConfig) (symbol timeframe : String)
    (start stop : Option Int) (market : Option String) (maxBars : Option Int) (includeOpenCandle : Bool)
    (fuel : Nat) : Option (Except PyError (List (MarketBar F))) :=
  match bybitKlineTarget client cfg symbol timeframe market with
  | .error error => some (.error error)
  | .ok target =>
      (klinePages (bybitKlinePage client target timeframe stop includeOpenCandle)
        "Bybit pagination cursor did not advance" timeframe start stop
        (perPage cfg.maxLimit maxBars) maxBars fuel start []).map (· >>= finishPages maxBars)

end Requests

section History

variable [PyText] {F : Type} [PyFloat F]

/-- The server answers with the last klines of the asked range, newest first. -/
def BybitKlineClient.Serves (client : BybitKlineClient) (url category symbol interval : String)
    (history : List (Kline F)) : Prop :=
  ∀ start stop limit, client.klines url ⟨category, symbol, interval, limit, some start, some stop⟩ =
    .ok (.dict (some (.int 0))
      (some (((klinesWithin start (stop + 1) history).reverse.take limit.toNat).map Kline.row)))

variable {client : BybitKlineClient} {cfg : BybitConfig} {ticker timeframe category interval : String}
  {market : Option String} {ns : NormalizedSymbol} {history : List (Kline F)} {serverTime start stop : Int}

/-- A page of the server, with its closed klines. -/
theorem bybitKlinePage_serves (target : BybitKlineTarget) (stop : Int)
    (serves : client.Serves target.url target.category target.ns.exchangeSymbol target.interval history)
    (klines : KlineHistory (normalizeBybitRow target.ns.exchangeSymbol target.ns.market timeframe
      (some target.serverTime)) timeframe history) (cursor size : Int) :
    bybitKlinePage client target timeframe (some stop) false (some cursor) size =
      .ok (pageOf target.serverTime ((klinesWithin cursor stop history).drop
        ((klinesWithin cursor stop history).length - size.toNat))) := by
  have page := (klines.within cursor stop).sublist
    (List.drop_sublist ((klinesWithin cursor stop history).length - size.toNat) _)
  have answered := serves cursor (stop - 1) size
  rw [Int.sub_add_cancel, List.take_reverse] at answered
  have read : (((klinesWithin cursor stop history).drop
      ((klinesWithin cursor stop history).length - size.toNat)).reverse.map Kline.row).mapM
      (normalizeBybitRow target.ns.exchangeSymbol target.ns.market timeframe (some target.serverTime)) =
        .ok (((klinesWithin cursor stop history).drop
          ((klinesWithin cursor stop history).length - size.toNat)).reverse.map Kline.bar) := by
    rw [mapM_eq_ok, List.forall₂_map_left_iff, List.forall₂_map_right_iff, List.forall₂_same]
    intro kline member
    exact page.read kline (List.mem_reverse.mp member)
  have finished := finishKlines_klines page target.serverTime
    ((List.reverse_perm _).map Kline.bar)
  simp only [bybitKlinePage, Option.map_some, answered, ok_bind, Option.getD_some, Cell.toInt, ne_eq,
    not_true_eq_false, if_false, normalizeBybitKlines, extractRows, read, finished]
  rw [List.length_map, List.length_reverse]
  rfl

/-- Of the range, the client returns the closed klines of the last page. -/
theorem bybitGetBarsSync_run
    (normalized : normalizeSymbol ticker (some "BYBIT") market = .ok ns)
    (listed : bybitCategory ns.market = .ok category)
    (spelled : toBybitInterval timeframe = .ok interval)
    (clock : bybitServerTimeMs client cfg.baseUrl = .ok serverTime)
    (serves : client.Serves (cfg.baseUrl ++ bybitEndpoint) category ns.exchangeSymbol interval history)
    (klines : KlineHistory (normalizeBybitRow ns.exchangeSymbol ns.market timeframe (some serverTime))
      timeframe history)
    {fuel : Nat} (enough : 2 ≤ fuel) :
    bybitGetBarsSync client cfg ticker timeframe (some start) (some stop) market none false fuel =
      some (.ok (closedBars serverTime ((klinesWithin start stop history).drop
        ((klinesWithin start stop history).length - cfg.maxLimit.toNat)))) := by
  let target : BybitKlineTarget := ⟨cfg.baseUrl ++ bybitEndpoint, category, ns, interval, serverTime⟩
  have found : bybitKlineTarget client cfg ticker timeframe market = .ok target := by
    simp only [bybitKlineTarget, normalized, listed, spelled, clock, ok_bind]
    rfl
  have inside := klines.within start stop
  have pages := klinePages_backward "Bybit pagination cursor did not advance" klines start
    cfg.maxLimit (bybitKlinePage_serves target stop serves klines) enough
  have part := List.drop_sublist ((klinesWithin start stop history).length - cfg.maxLimit.toNat)
    (klinesWithin start stop history)
  have whole : perPage cfg.maxLimit none = cfg.maxLimit := min_self _
  simp only [bybitGetBarsSync, found, whole]
  rw [pages, Option.map_some, ok_bind]
  exact congrArg some (finishPages_klines none (inside.sublist part))

/-- The client ends, and it returns all closed klines of the range exactly when the range has a page of
klines at most, or no closed one. -/
theorem bybit_klines_complete_iff
    (normalized : normalizeSymbol ticker (some "BYBIT") market = .ok ns)
    (listed : bybitCategory ns.market = .ok category)
    (spelled : toBybitInterval timeframe = .ok interval)
    (clock : bybitServerTimeMs client cfg.baseUrl = .ok serverTime)
    (serves : client.Serves (cfg.baseUrl ++ bybitEndpoint) category ns.exchangeSymbol interval history)
    (klines : KlineHistory (normalizeBybitRow ns.exchangeSymbol ns.market timeframe (some serverTime))
      timeframe history)
    {fuel : Nat} (enough : 2 ≤ fuel) :
    ∃ bars, bybitGetBarsSync client cfg ticker timeframe (some start) (some stop) market none false
        fuel = some (.ok bars) ∧
      (bars = closedBars serverTime (klinesWithin start stop history) ↔
        (klinesWithin start stop history).length ≤ cfg.maxLimit.toNat ∨
          ∀ kline ∈ klinesWithin start stop history, serverTime < kline.closeTime) := by
  refine ⟨_, bybitGetBarsSync_run normalized listed spelled clock serves klines enough, ?_⟩
  have inside := klines.within start stop
  rw [closedBars_eq_iff (List.drop_sublist _ _), closedKlines, closedKlines,
    Spans.ended_last_iff inside.ordered]
  apply or_congr_right
  rw [Spans.ended, List.filter_eq_nil_iff]
  apply forall₂_congr
  intro kline _
  rw [decide_eq_true_eq, not_le]

end History

end MarketdataProvider

namespace MarketdataProvider

open Foundation Reference
open scoped Reference

namespace Reference

def bybitRow (openTime : Int) : List Cell :=
  [.text (toString openTime), .text "1", .text "1", .text "1", .text "1", .text "1"]

def bybitKlineServer (serverTime : Int) (history : List (Kline Whole)) : BybitKlineClient where
  time _ := .ok ⟨some (.int (serverTime * 1000000)), none⟩
  klines _ params := .ok (.dict (some (.int 0)) (some (((klinesWithin (params.start.getD 0)
    (params.stop.getD 0 + 1) history).reverse.take params.limit.toNat).map Kline.row)))

/-- Three minutes, all closed at the server's time. -/
def bybitMinutes : List (Kline Whole) := [0, 60000, 120000].map (servedMinute "bybit" bybitRow 180000)

theorem bybitMinutes_history :
    KlineHistory (normalizeBybitRow "BTCUSDT" "spot" "1m" (some 180000)) "1m" bybitMinutes where
  read := by decide +kernel
  wellFormed kline member := by
    obtain ⟨openTime, -, rfl⟩ := List.mem_map.mp member
    refine ⟨rfl, rfl, ?_⟩
    intro close closes
    cases closes
    change openTime ≤ openTime + 59999
    omega
  closes := by decide +kernel
  calendar kline member := by
    have times : ∀ kline ∈ bybitMinutes,
        (closeTimeMs kline.bar.time "1m").toOption = some kline.closeTime := by decide +kernel
    exact eq_ok_of_toOption (times kline member)
  apart := by decide +kernel

def bybitConfig : BybitConfig where
  baseUrl := "https://api.bybit.com"
  maxLimit := 1000

def bybitBtcSpot : NormalizedSymbol :=
  ⟨"bybit", "spot", "BTC", "BYBIT:BTCUSDT", "BTCUSDT", false⟩

theorem bybitBtcSpot_normalized :
    normalizeSymbol "BTCUSDT" (some "BYBIT") (some "spot") = .ok bybitBtcSpot :=
  eq_ok_of_toOption (by decide +kernel)

theorem minute_bybit : toBybitInterval "1m" = .ok "1" := eq_ok_of_toOption (by decide +kernel)

end Reference

/-- Three klines fit on a page, so that they are all returned. -/
theorem bybit_klines_complete_minutes :
    ∃ bars, bybitGetBarsSync (bybitKlineServer 180000 bybitMinutes) bybitConfig "BTCUSDT" "1m" (some 0)
        (some 180000) (some "spot") none false 2 = some (.ok bars) ∧
      (bars = closedBars 180000 (klinesWithin 0 180000 bybitMinutes) ↔
        (klinesWithin 0 180000 bybitMinutes).length ≤ bybitConfig.maxLimit.toNat ∨
          ∀ kline ∈ klinesWithin 0 180000 bybitMinutes, 180000 < kline.closeTime) :=
  bybit_klines_complete_iff bybitBtcSpot_normalized rfl minute_bybit rfl
    (fun _ _ _ => rfl) bybitMinutes_history (by decide)

/-- With pages of two klines, the first one of three is never asked for again. -/
theorem bybit_first_kline_lost :
    ∃ bars, bybitGetBarsSync (bybitKlineServer 180000 bybitMinutes) { bybitConfig with maxLimit := 2 }
        "BTCUSDT" "1m" (some 0) (some 180000) (some "spot") none false 4 = some (.ok bars) ∧
      bars ≠ closedBars 180000 (klinesWithin 0 180000 bybitMinutes) := by
  refine ⟨_, bybitGetBarsSync_run bybitBtcSpot_normalized rfl minute_bybit rfl
    (fun _ _ _ => rfl) bybitMinutes_history (by decide), ?_⟩
  decide +kernel

end MarketdataProvider
