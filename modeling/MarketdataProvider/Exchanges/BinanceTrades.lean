import MarketdataProvider.Contracts.Footprint
import MarketdataProvider.Core.Symbols
import MarketdataProvider.Foundation.Keyed
import MarketdataProvider.Foundation.Paging

namespace MarketdataProvider

open Foundation

structure BinanceConfig where
  spotBaseUrl : String
  usdmBaseUrl : String
  coinmBaseUrl : String
  maxLimitSpot : Int
  maxLimitUsdm : Int

def binanceAggTradesEndpoint (market : String) : Option String :=
  if market = "spot" then some "/api/v3/aggTrades"
  else if market = "usdm" then some "/fapi/v1/aggTrades"
  else none

/-- `_base_url` -/
def baseUrl (cfg : BinanceConfig) (market : String) : Except PyError String :=
  if market = "spot" then .ok cfg.spotBaseUrl
  else if market = "usdm" then .ok cfg.usdmBaseUrl
  else if market = "coinm" then .ok cfg.coinmBaseUrl
  else .error (.mdSymbolUnsupported ("Unsupported Binance market: " ++ market))

/-- A row of the payload; each key may be missing. -/
structure AggTradeRow where
  a : Option Int
  T : Option Int
  p : Option String
  q : Option String
  m : Option Bool

inductive AggTradePayload where
  | list (rows : List AggTradeRow)
  | other

structure AggTradeParams where
  symbol : String
  startTime : Int
  endTime : Int
  limit : Int

section Pages

variable {F : Type} [PyFloat F]

def aggTradeOfRow (row : AggTradeRow) : Except PyError (AggTrade F) :=
  match row.a, row.T, row.p.bind PyFloat.ofStr, row.q.bind PyFloat.ofStr, row.m with
  | some tradeId, some time, some price, some quantity, some buyerMaker =>
      .ok { tradeId, time, price, quantity, buyerMaker }
  | _, _, _, _, _ => .error (.mdInvalidExchangeResponse "Binance aggTrade row is invalid" [])

/-- The order of the pairs `(trade.time, trade.trade_id)`. -/
def tradeOrder (left right : AggTrade F) : Prop :=
  left.time < right.time ∨ left.time = right.time ∧ left.tradeId ≤ right.tradeId

instance : DecidableRel (tradeOrder (F := F)) := fun left right =>
  inferInstanceAs (Decidable (left.time < right.time ∨ left.time = right.time ∧ left.tradeId ≤ right.tradeId))

def normalizeBinanceAggTrades (payload : AggTradePayload) : Except PyError (List (AggTrade F)) :=
  match payload with
  | .other => .error (.mdInvalidExchangeResponse "Binance aggTrades payload must be a list" [])
  | .list rows => do
      let trades ← rows.mapM aggTradeOfRow
      return trades.insertionSort tradeOrder

/-- The requests that a client makes with its retries, `_get_json`. -/
abbrev TradeClient := String → AggTradeParams → Except PyError AggTradePayload

/-- `max_trades - len(out)` trades at most are asked for, and a page at most. -/
def pageLimit (maxTrades : Option Int) (taken : Nat) : Option Int :=
  let perPage := match maxTrades with
    | some count => if count = 0 then 1000 else min 1000 count
    | none => 1000
  match maxTrades with
  | none => some perPage
  | some count => if count - taken ≤ 0 then none else some (min perPage (count - taken))

/-- The loop over the pages; it is `none` when the fuel does not suffice. -/
def aggTradePages (client : TradeClient) (url symbol : String) (start stop : Int)
    (maxTrades : Option Int) : Nat → Int → List (AggTrade F) →
      Option (Except PyError (List (AggTrade F)))
  | 0, _, _ => none
  | fuel + 1, cursor, out =>
      if stop ≤ cursor then some (.ok out)
      else
        match pageLimit maxTrades out.length with
        | none => some (.ok out)
        | some limit =>
            match client url ⟨symbol, cursor, stop - 1, limit⟩ >>= normalizeBinanceAggTrades with
            | .error error => some (.error error)
            | .ok payload =>
                let page := payload.filter fun trade => start ≤ trade.time ∧ trade.time < stop
                match page.getLast? with
                | none => some (.ok out)
                | some last =>
                    if page.length < limit then some (.ok (out ++ page))
                    else aggTradePages client url symbol start stop maxTrades fuel (last.time + 1)
                      (out ++ page)

/-- `by_id` and the trades of its sorted keys -/
def tradesById (trades : List (AggTrade F)) : List (AggTrade F) :=
  Keyed.byKey (fun trade : AggTrade F => trade.tradeId) trades

variable [PyText]

def binanceGetAggTrades (client : TradeClient) (cfg : BinanceConfig) (symbol : String)
    (start stop : Int) (market : Option String) (maxTrades : Option Int) (fuel : Nat) :
    Option (Except PyError (List (AggTrade F))) :=
  match normalizeSymbol symbol (some "BINANCE") market with
  | .error error => some (.error error)
  | .ok ns =>
      match binanceAggTradesEndpoint ns.market with
      | none => some (.ok [])
      | some endpoint =>
          match baseUrl cfg ns.market with
          | .error error => some (.error error)
          | .ok base =>
              (aggTradePages client (base ++ endpoint) ns.exchangeSymbol start stop maxTrades fuel
                start []).map fun pages => tradesById <$> pages

end Pages

section History

variable {F : Type} [PyFloat F]

/-- The trades of `[start, stop)`. -/
def tradesWithin (start stop : Int) (history : List (AggTrade F)) : List (AggTrade F) :=
  history.filter fun trade => start ≤ trade.time ∧ trade.time < stop

/-- Ids ascend with time; any number of trades may share one millisecond. -/
def AscendingTrades (history : List (AggTrade F)) : Prop :=
  history.Pairwise fun left right => left.tradeId < right.tradeId ∧ left.time ≤ right.time

/-- The server answers with the first trades of the asked range. -/
def Publishes (client : TradeClient) (url symbol : String) (history : List (AggTrade F)) : Prop :=
  ∀ startTime endTime limit, ∃ rows,
    client url ⟨symbol, startTime, endTime, limit⟩ = .ok (.list rows) ∧
      rows.mapM aggTradeOfRow =
        .ok ((tradesWithin startTime (endTime + 1) history).take limit.toNat)

variable {client : TradeClient} {url symbol : String} {history : List (AggTrade F)}
  {start stop cursor : Int}

omit [PyFloat F] in
theorem AscendingTrades.within (ascending : AscendingTrades history) (start stop : Int) :
    AscendingTrades (tradesWithin start stop history) :=
  ascending.sublist List.filter_sublist

omit [PyFloat F] in
theorem AscendingTrades.byTime (ascending : AscendingTrades history) :
    history.Pairwise fun left right => left.time ≤ right.time :=
  ascending.imp fun both => both.2

omit [PyFloat F] in
theorem AscendingTrades.ordered (ascending : AscendingTrades history) :
    history.Pairwise tradeOrder := by
  apply ascending.imp
  intro left right both
  rcases both.2.lt_or_eq with before | same
  · exact .inl before
  · exact .inr ⟨same, both.1.le⟩

omit [PyFloat F] in
/-- Ascending trades are already in the order of their ids. -/
theorem tradesById_eq_self (ascending : AscendingTrades history) : tradesById history = history :=
  Keyed.byKey_eq_self (ascending.imp fun both => both.1)

/-- The page behind a cursor, as the loop keeps it. -/
theorem page_of_publishes (publishes : Publishes client url symbol history)
    (ascending : AscendingTrades history) (stop limit : Int) (from_start : start ≤ cursor) :
    ∃ payload, (client url ⟨symbol, cursor, stop - 1, limit⟩ >>= normalizeBinanceAggTrades) =
        .ok payload ∧
      payload.filter (fun trade => start ≤ trade.time ∧ trade.time < stop) =
        (tradesWithin cursor stop history).take limit.toNat := by
  obtain ⟨rows, answered, decoded⟩ := publishes cursor (stop - 1) limit
  rw [Int.sub_add_cancel] at decoded
  have ordered : ((tradesWithin cursor stop history).take limit.toNat).Pairwise tradeOrder :=
    (ascending.within cursor stop).ordered.sublist (List.take_sublist _ _)
  refine ⟨(tradesWithin cursor stop history).take limit.toNat, ?_, ?_⟩
  · rw [answered, ok_bind]
    simp only [normalizeBinanceAggTrades, decoded, ok_bind]
    rw [ordered.insertionSort_eq]
    rfl
  · rw [List.filter_eq_self]
    intro trade member
    have inside := (List.mem_filter.mp (List.mem_of_mem_take member)).2
    rw [decide_eq_true_eq] at inside ⊢
    omega

omit [PyFloat F] in
/-- The trades behind the last time of a page are those that the next request asks for. -/
theorem tradesWithin_behind (last : AggTrade F) (later : cursor ≤ last.time) :
    tradesWithin (last.time + 1) stop history =
      (tradesWithin cursor stop history).filter fun trade => last.time < trade.time := by
  rw [tradesWithin, tradesWithin, List.filter_filter]
  apply List.filter_congr
  intro trade _
  rw [← Bool.decide_and]
  apply decide_eq_decide.mpr
  omega

/-- The loop collects the pages of the trades that it has not passed. -/
theorem aggTradePages_run (publishes : Publishes client url symbol history)
    (ascending : AscendingTrades history) {fuel : Nat} (out : List (AggTrade F))
    (from_start : start ≤ cursor) (enough : (tradesWithin cursor stop history).length < fuel) :
    aggTradePages client url symbol start stop none fuel cursor out =
      some (.ok (out ++ Paging.collect (fun trade : AggTrade F => trade.time) 1000 fuel
        (tradesWithin cursor stop history))) := by
  induction fuel generalizing cursor out with
  | zero => omega
  | succ fuel ih =>
      unfold aggTradePages Paging.collect
      split
      · rename_i passed
        have none : tradesWithin cursor stop history = [] := by
          rw [tradesWithin, List.filter_eq_nil_iff]
          intro trade _
          rw [decide_eq_true_eq]
          omega
        simp [none]
      · obtain ⟨payload, answered, kept⟩ :=
          page_of_publishes publishes ascending stop 1000 from_start
        have limit : pageLimit none out.length = some 1000 := rfl
        simp only [limit, answered, kept, Int.reduceToNat]
        cases ends : ((tradesWithin cursor stop history).take 1000).getLast? with
        | none => simp
        | some last =>
            dsimp only
            have short : (((tradesWithin cursor stop history).take 1000).length : Int) < 1000 ↔
                ((tradesWithin cursor stop history).take 1000).length < 1000 := by omega
            rw [if_congr short rfl rfl]
            split
            · rfl
            · rename_i full
              have member := List.mem_of_mem_take (List.mem_of_getLast? ends)
              have inside := (List.mem_filter.mp member).2
              rw [decide_eq_true_eq] at inside
              rw [← tradesWithin_behind last inside.1]
              have fewer : (tradesWithin (last.time + 1) stop history).length < fuel := by
                rw [tradesWithin_behind last inside.1,
                  Paging.filter_behind (ascending.within cursor stop).byTime ends]
                have filtered := List.length_filter_le (fun trade : AggTrade F =>
                  decide (last.time < trade.time)) ((tradesWithin cursor stop history).drop 1000)
                rw [List.length_drop] at filtered
                rw [List.length_take] at full
                omega
              rw [ih _ (by omega) fewer, List.append_assoc]

variable [PyText] {cfg : BinanceConfig} {market : Option String} {ns : NormalizedSymbol}
  {endpoint base : String}

/-- The pages of the range, read by the key of a trade's time. -/
theorem binanceGetAggTrades_run {ticker : String}
    (normalized : normalizeSymbol ticker (some "BINANCE") market = .ok ns)
    (served : binanceAggTradesEndpoint ns.market = some endpoint)
    (located : baseUrl cfg ns.market = .ok base)
    (publishes : Publishes client (base ++ endpoint) ns.exchangeSymbol history)
    (ascending : AscendingTrades history) {fuel : Nat} (enough : history.length < fuel) :
    binanceGetAggTrades client cfg ticker start stop market none fuel =
      some (.ok (Paging.collect (fun trade : AggTrade F => trade.time) 1000 fuel
        (tradesWithin start stop history))) := by
  have few : (tradesWithin start stop history).length < fuel :=
    (List.length_filter_le _ _).trans_lt enough
  have pages := aggTradePages_run publishes ascending [] (le_refl start) few
  have part := Paging.collect_sublist 1000 (ascending.within start stop).byTime fuel
  simp only [binanceGetAggTrades, normalized, served, located, pages, Option.map_some, List.nil_append]
  have sorted := tradesById_eq_self ((ascending.within start stop).sublist part)
  exact congrArg (fun trades => some (Except.ok trades)) sorted

/-- The client ends, and it returns all trades of the range exactly when no page of 1000 trades ends
between two trades of one millisecond. -/
theorem aggTrades_complete_iff {ticker : String}
    (normalized : normalizeSymbol ticker (some "BINANCE") market = .ok ns)
    (served : binanceAggTradesEndpoint ns.market = some endpoint)
    (located : baseUrl cfg ns.market = .ok base)
    (publishes : Publishes client (base ++ endpoint) ns.exchangeSymbol history)
    (ascending : AscendingTrades history) {fuel : Nat} (enough : history.length < fuel) :
    ∃ trades, binanceGetAggTrades client cfg ticker start stop market none fuel = some (.ok trades) ∧
      (trades = tradesWithin start stop history ↔
        Paging.CutsClean (fun trade : AggTrade F => trade.time) 1000
          (tradesWithin start stop history)) := by
  refine ⟨_, binanceGetAggTrades_run normalized served located publishes ascending enough, ?_⟩
  have few : (tradesWithin start stop history).length < fuel :=
    (List.length_filter_le _ _).trans_lt enough
  exact Paging.collect_eq_self_iff (ascending.within start stop).byTime (by decide) few

end History

end MarketdataProvider

namespace MarketdataProvider

open Foundation Reference
open scoped Reference

namespace Reference

def binanceConfig : BinanceConfig where
  spotBaseUrl := "https://api.binance.com"
  usdmBaseUrl := "https://fapi.binance.com"
  coinmBaseUrl := "https://dapi.binance.com"
  maxLimitSpot := 1000
  maxLimitUsdm := 1500

def btcusdtSpot : NormalizedSymbol :=
  ⟨"binance", "spot", "BTC", "BINANCE:BTCUSDT", "BTCUSDT", false⟩

theorem btcusdt_normalized :
    normalizeSymbol "BTCUSDT" (some "BINANCE") (some "spot") = .ok btcusdtSpot :=
  eq_ok_of_toOption (by decide +kernel)

theorem spot_served : binanceAggTradesEndpoint btcusdtSpot.market = some "/api/v3/aggTrades" := rfl

theorem spot_located : baseUrl binanceConfig btcusdtSpot.market = .ok binanceConfig.spotBaseUrl := rfl

/-- A trade at the price of one. -/
def tradeAt (trade : Int × Int) : AggTrade Whole := ⟨trade.1, trade.2, ⟨1⟩, ⟨1⟩, false⟩

def tradeRow (trade : Int × Int) : AggTradeRow :=
  ⟨some trade.1, some trade.2, some "1", some "1", some false⟩

/-- A server of trades that are given by their ids and times. -/
def tradeServer (history : List (Int × Int)) : TradeClient := fun _ params =>
  .ok (.list (((history.filter fun trade =>
    params.startTime ≤ trade.2 ∧ trade.2 < params.endTime + 1).take params.limit.toNat).map tradeRow))

theorem tradeServer_publishes (url symbol : String) (history : List (Int × Int)) :
    Publishes (tradeServer history) url symbol (history.map tradeAt) := by
  intro startTime endTime limit
  refine ⟨_, rfl, ?_⟩
  have decoded (trade : Int × Int) : aggTradeOfRow (tradeRow trade) = .ok (tradeAt trade) := rfl
  rw [tradesWithin, List.filter_map, ← List.map_take, mapM_eq_ok, List.forall₂_map_left_iff,
    List.forall₂_map_right_iff]
  exact List.forall₂_same.mpr fun trade _ => decoded trade

/-- One trade more than a page holds, all in one millisecond. -/
def tied : List (Int × Int) := (List.range 1001).map fun index : Nat => (index, 0)

theorem tied_ascending : AscendingTrades (tied.map tradeAt) := by
  rw [AscendingTrades, tied, List.map_map, List.pairwise_map]
  apply List.pairwise_lt_range.imp
  intro left right before
  exact ⟨Int.ofNat_lt.mpr before, le_rfl⟩

theorem tied_within : tradesWithin 0 1 (tied.map tradeAt) = tied.map tradeAt := by
  rw [tradesWithin, List.filter_eq_self]
  intro trade member
  obtain ⟨pair, inside, rfl⟩ := List.mem_map.mp member
  obtain ⟨index, -, rfl⟩ := List.mem_map.mp inside
  rfl

/-- One trade more than a page holds, each in a millisecond of its own. -/
def ladder : List (Int × Int) := (List.range 1001).map fun index : Nat => (index, index)

theorem ladder_ascending : AscendingTrades (ladder.map tradeAt) := by
  rw [AscendingTrades, ladder, List.map_map, List.pairwise_map]
  apply List.pairwise_lt_range.imp
  intro left right before
  exact ⟨Int.ofNat_lt.mpr before, (Int.ofNat_lt.mpr before).le⟩

theorem ladder_within : tradesWithin 0 1001 (ladder.map tradeAt) = ladder.map tradeAt := by
  rw [tradesWithin, List.filter_eq_self]
  intro trade member
  obtain ⟨pair, inside, rfl⟩ := List.mem_map.mp member
  obtain ⟨index, below, rfl⟩ := List.mem_map.mp inside
  exact decide_eq_true ⟨Int.natCast_nonneg index, Int.ofNat_lt.mpr (List.mem_range.mp below)⟩

end Reference

/-- Of 1001 trades at times of their own a page ends between two times, so that both pages are returned. -/
theorem aggTrades_complete_ladder :
    binanceGetAggTrades (tradeServer ladder) binanceConfig "BTCUSDT" 0 1001 (some "spot") none 1002 =
      some (.ok (ladder.map tradeAt)) := by
  have few : (ladder.map tradeAt).length < 1002 := by simp [ladder]
  obtain ⟨trades, answered, complete⟩ := aggTrades_complete_iff btcusdt_normalized spot_served spot_located
    (tradeServer_publishes _ _ ladder) ladder_ascending few
  rw [ladder_within] at complete
  rw [answered, complete.mpr]
  intro page inside
  simp [ladder, tradeAt]

/-- Of 1001 trades of one millisecond the client returns fewer, although the server has them all. -/
theorem tied_trades_lost :
    ∃ trades, binanceGetAggTrades (tradeServer tied) binanceConfig "BTCUSDT" 0 1 (some "spot") none
        1002 = some (.ok trades) ∧ trades ≠ tradesWithin 0 1 (tied.map tradeAt) := by
  have few : (tied.map tradeAt).length < 1002 := by simp [tied]
  refine ⟨_, binanceGetAggTrades_run btcusdt_normalized spot_served spot_located
    (tradeServer_publishes _ _ tied) tied_ascending few, ?_⟩
  rw [tied_within]
  rw [Ne, Paging.collect_eq_self_iff tied_ascending.byTime (by decide) few]
  intro clean
  have cut := clean 0 (by simp [tied])
  apply cut
  simp [tied, tradeAt]

end MarketdataProvider
