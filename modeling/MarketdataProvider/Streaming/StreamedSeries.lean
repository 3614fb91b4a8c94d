import MarketdataProvider.Streaming.Kline
import MarketdataProvider.Store.SegmentAppend

namespace MarketdataProvider

open Foundation

section Topic

theorem bybitIntervals_plain :
    (bybitIntervals.all fun entry => entry.2.toList.all Char.isAlphanum) = true := by decide

theorem no_dot_of_isAlphanum {text : String} (plain : text.toList.all Char.isAlphanum = true) :
    '.' ∉ text.toList := by
  intro member
  have dot := List.all_eq_true.mp plain '.' member
  revert dot
  decide

/-- Outside of the hours an interval of Bybit has the canonical form of its timeframe. -/
theorem bybitIntervals_round_trip : (bybitIntervals.all fun entry =>
    (@canonicalTimeframe Reference.asciiText entry.1).toOption.bind timeframeLetter = some 'h' ||
      (@canonicalTimeframe Reference.asciiText entry.2).toOption =
        (@canonicalTimeframe Reference.asciiText entry.1).toOption) = true := by decide +kernel

variable [PyText]

/-- The parts of a topic, for a symbol without a dot. -/
theorem topicParts_of_bybitTopic {payload : BybitKlineEvent} {timeframe symbol interval topic : String}
    (mapped : toBybitInterval timeframe = .ok interval) (topical : bybitTopic timeframe symbol = .ok topic)
    (received : payload.topic = some topic) (undotted : '.' ∉ (PyText.upper symbol).toList) :
    topicParts payload = (interval, PyText.upper symbol) := by
  obtain ⟨entry, member, rfl, -⟩ := spelled_of_exchangeInterval mapped
  have clean := no_dot_of_isAlphanum (List.all_eq_true.mp bybitIntervals_plain entry member)
  rw [bybitTopic, mapped, ok_bind] at topical
  obtain rfl := pure_eq_ok.mp topical
  have split : ("kline." ++ entry.2 ++ "." ++ PyText.upper symbol).toList =
      ['k', 'l', 'i', 'n', 'e'] ++ '.' :: (entry.2.toList ++ '.' :: (PyText.upper symbol).toList) := by
    simp
  rw [topicParts, received, Option.getD_some, split, List.splitOn_append_cons_self,
    List.splitOn_append_cons_self, List.splitOn_eq_singleton clean, List.splitOn_eq_singleton undotted,
    List.splitOn_eq_singleton (by decide)]
  simp

theorem canonical_of_toBybitInterval {timeframe interval canonical : String}
    (mapped : toBybitInterval timeframe = .ok interval)
    (accepted : canonicalTimeframe timeframe = .ok canonical)
    (notHours : timeframeLetter canonical ≠ some 'h') : canonicalTimeframe interval = .ok canonical := by
  obtain ⟨entry, member, rfl, same⟩ := spelled_of_exchangeInterval mapped
  have spelling := List.all_eq_true.mp bybitIntervals_spelledOnce.plain entry member
  have plain := List.all_eq_true.mp bybitIntervals_plain entry member
  have known := List.all_eq_true.mp bybitIntervals_round_trip entry member
  rw [accepted, canonicalTimeframe_ascii _ spelling] at same
  rw [canonicalTimeframe_ascii _ plain]
  rw [same] at known
  have letters : ((Except.ok canonical : Except PyError String).toOption.bind timeframeLetter =
      some 'h') ↔ False := iff_false_intro notHours
  rw [decide_eq_false letters.mp, Bool.false_or, decide_eq_true_eq] at known
  exact eq_ok_of_toOption known

end Topic

section Series

variable [PyText] {F : Type} [PyFloat F] [StreamHash]

/-- A streamed candle has the identity of its topic. -/
theorem key_of_bybitUpdate {payload : BybitKlineEvent} {market sourceKind : String}
    {receivedAt downloadedAt : Option Int} {updates : List (KlineUpdate F)} {update : KlineUpdate F}
    {bar : MarketBar F} {canonical : String}
    (normalized : normalizeBybitKline payload market sourceKind receivedAt = .ok updates)
    (member : update ∈ updates) (converted : update.toMarketBar downloadedAt = .ok bar)
    (accepted : canonicalTimeframe (topicParts payload).1 = .ok canonical) :
    bar.key = ⟨PyText.lower "bybit", PyText.lower market, PyText.upper (topicParts payload).2, canonical,
      sourceKind⟩ := by
  obtain ⟨item, -, made⟩ := of_mem_mapM normalized update member
  simp only [bybitUpdate, bind_eq_ok, pure_eq_ok] at made
  obtain ⟨_, -, _, -, _, -, _, -, _, -, _, -, _, -, rfl⟩ := made
  simp only [KlineUpdate.toMarketBar, accepted, ok_bind, pure_eq_ok] at converted
  subst converted
  simp only [MarketBar.key, PyText.upper_upper]

/-- Outside of the hours a candle streamed from Bybit lands in the series that its query reads. -/
theorem streamed_series {timeframe topic canonical : String} {payload : BybitKlineEvent}
    {receivedAt downloadedAt : Option Int} {updates : List (KlineUpdate F)} {update : KlineUpdate F}
    {bar : MarketBar F} {query : BarQuery}
    (bybit : query.instrument.exchange = "bybit") (undotted : '.' ∉ query.instrument.symbol.toList)
    (parsed : parseTimeframe timeframe = .ok query.timeframe)
    (accepted : canonicalTimeframe timeframe = .ok canonical)
    (notHours : timeframeLetter canonical ≠ some 'h')
    (topical : bybitTopic timeframe query.instrument.symbol = .ok topic)
    (received : payload.topic = some topic)
    (normalized : normalizeBybitKline payload query.instrument.market "trade_kline" receivedAt =
      .ok updates)
    (member : update ∈ updates) (converted : update.toMarketBar downloadedAt = .ok bar) :
    bar.key = query.key := by
  obtain ⟨interval, mapped, -⟩ := bind_eq_ok.mp topical
  have upper := query.instrument.upperSymbol
  have parts := topicParts_of_bybitTopic mapped topical received (by rwa [upper])
  have same : canonicalTimeframe (topicParts payload).1 = .ok canonical := by
    rw [parts]
    exact canonical_of_toBybitInterval mapped accepted notHours
  rw [key_of_bybitUpdate normalized member converted same, BarQuery.key, parts,
    canonical_of_parseTimeframe accepted parsed, ← bybit, query.instrument.lowerExchange,
    query.instrument.lowerMarket, upper, upper]

/-- A canonical timeframe is a fixed point with the same duration. Timeframes of one interval share
their canonical form exactly when it has one unit, and then also the parsed timeframe and the series.
-/
theorem timeframes_share_series {first second canonical other : String}
    (accepted : canonicalTimeframe first = .ok canonical)
    (acceptedOther : canonicalTimeframe second = .ok other) :
    (canonicalTimeframe canonical = .ok canonical ∧ timeframeMs canonical = timeframeMs first) ∧
      (SameInterval first second →
        (canonical = other ↔ timeframeLetter canonical = timeframeLetter other) ∧
          (timeframeLetter canonical = timeframeLetter other →
            parseTimeframe first = parseTimeframe second ∧
              ∀ exchange market symbol sourceKind,
                seriesDirectory ⟨exchange, market, symbol, first, sourceKind⟩ =
                  seriesDirectory ⟨exchange, market, symbol, second, sourceKind⟩)) ∧
      ∀ (query : BarQuery) (payload : BybitKlineEvent) (topic : String)
        (receivedAt downloadedAt : Option Int) (updates : List (KlineUpdate F))
        (update : KlineUpdate F) (bar : MarketBar F),
        timeframeLetter canonical ≠ some 'h' → query.instrument.exchange = "bybit" →
        '.' ∉ query.instrument.symbol.toList → parseTimeframe first = .ok query.timeframe →
        bybitTopic first query.instrument.symbol = .ok topic → payload.topic = some topic →
        normalizeBybitKline payload query.instrument.market "trade_kline" receivedAt = .ok updates →
        update ∈ updates → update.toMarketBar downloadedAt = .ok bar →
          seriesDirectory bar.key = seriesDirectory query.key := by
  refine ⟨⟨canonicalTimeframe_idempotent accepted, timeframeMs_canonical accepted⟩, ?_, ?_⟩
  · intro interval
    have shared := canonical_eq_iff interval accepted acceptedOther
    refine ⟨shared, fun letter => ?_⟩
    obtain rfl := shared.mpr letter
    refine ⟨parseTimeframe_congr accepted acceptedOther, fun exchange market symbol sourceKind => ?_⟩
    simp only [seriesDirectory, accepted, acceptedOther]
  · intro query payload topic receivedAt downloadedAt updates update bar notHours bybit undotted parsed
      topical received normalized member converted
    rw [streamed_series bybit undotted parsed accepted notHours topical received normalized member
      converted]

end Series

end MarketdataProvider

namespace MarketdataProvider

open Foundation Reference
open scoped Reference

namespace Reference

scoped instance streamHash : StreamHash where
  contentHash payload := payload.symbol ++ toString payload.openTime

def quarter : Timeframe where
  canonical := "15m"
  durationMs := some 900000
  fixedPoint := eq_ok_of_toOption (by decide +kernel)
  duration := eq_ok_of_toOption (by decide +kernel)

def bybitBtcusdt : InstrumentKey where
  exchange := "bybit"
  market := "linear"
  symbol := "BTCUSDT"
  lowerExchange := by decide +kernel
  lowerMarket := by decide +kernel
  upperSymbol := upper_btcusdt
  named := by decide +kernel

def quarterQuery : BarQuery := ⟨bybitBtcusdt, quarter, 0, 900000, .fail, by decide⟩

/-- A closed candle of fifteen minutes at the price of one. -/
def quarterEvent : BybitKlineEvent where
  topic := some "kline.15.BTCUSDT"
  ts := some 900000
  symbol := none
  data := [⟨0, some 899999, "1", "1", "1", "1", "1", some "1", some true, some 900000⟩]

def quarterUpdate : KlineUpdate Whole where
  exchange := "bybit"
  market := "linear"
  symbol := "BTCUSDT"
  timeframe := "15"
  eventTime := 900000
  openTime := 0
  closeTime := 899999
  openPrice := ⟨1⟩
  high := ⟨1⟩
  low := ⟨1⟩
  close := ⟨1⟩
  volume := ⟨1⟩
  sourceKind := "trade_kline"
  quoteVolume := none
  turnover := some ⟨1⟩
  tradesCount := none
  takerBuyBaseVolume := none
  takerBuyQuoteVolume := none
  isClosed := true
  rawSource := "ws"
  rawEventId := some "kline.15.BTCUSDT:900000"
  receivedAt := none
  openText := some "1"
  highText := some "1"
  lowText := some "1"
  closeText := some "1"
  volumeText := some "1"

end Reference

/-- Two spellings of fifteen minutes share their series, and so does their stream. -/
theorem timeframes_share_series_quarter :
    SameInterval "15" "15m" ∧
      parseTimeframe "15" = parseTimeframe "15m" ∧
        seriesDirectory ⟨"bybit", "linear", "BTCUSDT", "15", "trade_kline"⟩ =
          seriesDirectory ⟨"bybit", "linear", "BTCUSDT", "15m", "trade_kline"⟩ ∧
          ∃ bar, quarterUpdate.toMarketBar none = .ok bar ∧
            seriesDirectory bar.key = seriesDirectory quarterQuery.key := by
  have first : canonicalTimeframe "15" = .ok "15m" := eq_ok_of_toOption (by decide +kernel)
  have second : canonicalTimeframe "15m" = .ok "15m" := eq_ok_of_toOption (by decide +kernel)
  have interval : SameInterval "15" "15m" :=
    .inl ⟨900000, eq_ok_of_toOption (by decide +kernel), eq_ok_of_toOption (by decide +kernel)⟩
  obtain ⟨-, shared, streamed⟩ := @timeframes_share_series _ Whole _ _ _ _ _ _ first second
  obtain ⟨parsed, directory⟩ := (shared interval).2 rfl
  obtain ⟨bar, converted⟩ : ∃ bar, quarterUpdate.toMarketBar none = .ok bar :=
    eq_ok_of_toBool (by decide +kernel)
  have query : parseTimeframe "15" = .ok quarter := eq_ok_of_toOption (by decide +kernel)
  have topic : bybitTopic "15" "BTCUSDT" = .ok "kline.15.BTCUSDT" :=
    eq_ok_of_toOption (by decide +kernel)
  have normalized : normalizeBybitKline quarterEvent "linear" "trade_kline" none = .ok [quarterUpdate] :=
    eq_ok_of_toOption (by decide +kernel)
  exact ⟨interval, parsed, directory _ _ _ _, bar, converted,
    streamed quarterQuery quarterEvent "kline.15.BTCUSDT" none none [quarterUpdate] quarterUpdate bar
      (by decide) rfl (by decide) query topic rfl normalized List.mem_cons_self converted⟩

/-- Sixty minutes and one hour have one duration and two canonical forms. -/
theorem sixty_and_hour_differ :
    ∃ first second, canonicalTimeframe "60" = .ok first ∧ canonicalTimeframe "1h" = .ok second ∧
      SameInterval "60" "1h" ∧ first ≠ second :=
  ⟨"60m", "1h", eq_ok_of_toOption (by decide +kernel), eq_ok_of_toOption (by decide +kernel),
    .inl ⟨3600000, eq_ok_of_toOption (by decide +kernel), eq_ok_of_toOption (by decide +kernel)⟩,
    by decide⟩

end MarketdataProvider
