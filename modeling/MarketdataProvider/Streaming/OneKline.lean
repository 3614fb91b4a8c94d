import MarketdataProvider.Exchanges.BinanceArchive
import MarketdataProvider.Exchanges.KlineRows
import MarketdataProvider.Store.SegmentChecksums
import MarketdataProvider.Streaming.StreamedSeries

namespace MarketdataProvider

open Foundation

/-- A closed Binance kline: its times, and its decimal values as the exchange writes them. -/
structure BinanceCandle where
  openTime : Int
  closeTime : Int
  openText : String
  highText : String
  lowText : String
  closeText : String
  volumeText : String
  quoteVolume : String
  tradesCount : Int
  takerBuyBase : String
  takerBuyQuote : String

namespace BinanceCandle

/-- The row of the REST interface. -/
def restRow (kline : BinanceCandle) : List Cell :=
  [.int kline.openTime, .text kline.openText, .text kline.highText, .text kline.lowText,
    .text kline.closeText, .text kline.volumeText, .int kline.closeTime, .text kline.quoteVolume,
    .int kline.tradesCount, .text kline.takerBuyBase, .text kline.takerBuyQuote, .text "0"]

/-- The record of the archive file. -/
def archiveRow (kline : BinanceCandle) : List String :=
  [toString kline.openTime, kline.openText, kline.highText, kline.lowText, kline.closeText,
    kline.volumeText, toString kline.closeTime, kline.quoteVolume, toString kline.tradesCount,
    kline.takerBuyBase, kline.takerBuyQuote, "0"]

/-- The last event of the stream. -/
def event (kline : BinanceCandle) (symbol interval : String) (eventTime : Int) : BinanceKlineEvent where
  e := some "kline"
  E := some eventTime
  s := some symbol
  k := {
    t := kline.openTime
    T := kline.closeTime
    s := some symbol
    i := some interval
    o := kline.openText
    h := kline.highText
    l := kline.lowText
    c := kline.closeText
    v := kline.volumeText
    q := some kline.quoteVolume
    n := some kline.tradesCount
    V := some kline.takerBuyBase
    Q := some kline.takerBuyQuote
    x := some true }

end BinanceCandle

/-- A closed Bybit kline. -/
structure BybitCandle where
  openTime : Int
  openText : String
  highText : String
  lowText : String
  closeText : String
  volumeText : String
  turnover : String

namespace BybitCandle

def restRow (kline : BybitCandle) : List Cell :=
  [.text (toString kline.openTime), .text kline.openText, .text kline.highText, .text kline.lowText,
    .text kline.closeText, .text kline.volumeText, .text kline.turnover]

def event (kline : BybitCandle) (topic : String) (stop timestamp : Int) : BybitKlineEvent where
  topic := some topic
  ts := some timestamp
  symbol := none
  data := [{
    start := kline.openTime
    stop := some stop
    openText := kline.openText
    high := kline.highText
    low := kline.lowText
    close := kline.closeText
    volume := kline.volumeText
    turnover := some kline.turnover
    confirm := some true
    timestamp := some timestamp }]

end BybitCandle

section Paths

variable [PyText] {F : Type} [PyFloat F]

/-- The bars of REST rows on their way to the store. -/
def binanceRestBars (query : BarQuery) (serverTime : Option Int) (includeOpenCandle : Bool)
    (rows : List (List Cell)) : Except PyError (List (MarketBar F)) := do
  let bars ← normalizeBinanceKlines rows query.instrument.symbol query.instrument.market
    query.timeframe.canonical serverTime includeOpenCandle
  bars.mapM (marketBarFromCore query "rest")

def bybitRestBars (query : BarQuery) (serverTime : Option Int) (includeOpenCandle : Bool)
    (payload : BybitPayload) : Except PyError (List (MarketBar F)) := do
  let bars ← normalizeBybitKlines payload query.instrument.symbol query.instrument.market
    query.timeframe.canonical serverTime includeOpenCandle
  bars.mapM (marketBarFromCore query "rest")

def binanceArchiveBars (D : Type) [PyDecimal D] [DecimalFloat D F] (query : BarQuery)
    (records : Option (List (List String))) : Except PyError (List (MarketBar F)) := do
  let bars ← loadArchiveFile D records query.instrument.symbol query.instrument.market
    query.timeframe.canonical query.startMs query.endMs
  bars.mapM (marketBarFromCore query "archive")

variable [StreamHash]

def binanceStreamBar (query : BarQuery) (receivedAt : Option Int) (payload : BinanceKlineEvent) :
    Except PyError (MarketBar F) := do
  let update ← normalizeBinanceKline payload query.instrument.market (some query.timeframe.canonical)
    "trade_kline" receivedAt
  update.toMarketBar none

def bybitStreamBars (query : BarQuery) (receivedAt : Option Int) (payload : BybitKlineEvent) :
    Except PyError (List (MarketBar F)) := do
  let updates ← normalizeBybitKline payload query.instrument.market "trade_kline" receivedAt
  updates.mapM fun update => update.toMarketBar none

/-- Any two of the bars are the same canonical candle. -/
def OneCandle (bars : List (MarketBar F)) : Prop :=
  bars.Pairwise fun left right => sameCanonicalCandle left right = true

end Paths

section Fields

variable [PyText] {F : Type} [PyFloat F]

omit [PyText] in
theorem tradesCount_of_same {left right : MarketBar F} (same : sameCanonicalCandle left right = true) :
    left.tradesCount = right.tradesCount := by
  simp only [sameCanonicalCandle, Bool.and_eq_true, decide_eq_true_eq] at same
  exact same.1.1.2

omit [PyText] in
theorem turnover_of_same {left right : MarketBar F} (same : sameCanonicalCandle left right = true) :
    left.turnover.isSome = right.turnover.isSome := by
  simp only [sameCanonicalCandle, Bool.and_eq_true, decide_eq_true_eq] at same
  have turnover := same.1.1.1.2
  unfold sameCanonicalCandle.sameFloat at turnover
  split at turnover
  · simp [*]
  · simp [*]
  · cases turnover

omit [PyFloat F] in
/-- The core conversion keeps what a bar says of volumes and trades. -/
theorem marketBarFromCore_keeps {query : BarQuery} {transport : String} {bar made : MarketBar F}
    (converted : marketBarFromCore query transport bar = .ok made) :
    made.turnover = bar.turnover ∧ made.tradesCount = bar.tradesCount := by
  rw [marketBarFromCore] at converted
  split at converted
  · cases converted
  · cases converted
    exact ⟨rfl, rfl⟩

omit [PyText] in
/-- The last steps of a normalizer drop bars and change none. -/
theorem mem_of_finishKlines {bars kept : List (MarketBar F)} {serverTime : Option Int}
    {includeOpenCandle : Bool} (finished : finishKlines bars serverTime includeOpenCandle = .ok kept) :
    ∀ bar ∈ kept, bar ∈ bars := by
  simp only [finishKlines, bind_eq_ok, pure_eq_ok] at finished
  obtain ⟨closed, excluded, _, -, rfl⟩ := finished
  intro bar member
  apply mem_sortByTime.mp
  rw [keptKlines] at excluded
  split at excluded
  · cases excluded
    exact member
  · unfold excludeOpenCandle at excluded
    split at excluded
    · cases excluded
    · have subset : ∀ bar ∈ closed, bar ∈ sortByTime bars := by
        apply foldlM_keeps _ _ excluded
        · intro value inside before after known added
          split at added
          · cases added
          · cases added
            intro other found
            split at found
            · rcases List.mem_append.mp found with old | new
              · exact known other old
              · exact List.mem_singleton.mp new ▸ inside
            · exact known other found
        · intro other found
          cases found
      exact subset bar member

/-- A REST bar of Binance counts the trades of its kline. -/
theorem tradesCount_of_restRow {symbol market timeframe : String} {serverTime : Option Int}
    {kline : BinanceCandle} {bar : MarketBar F}
    (made : binanceKlineBar symbol market timeframe serverTime kline.restRow = .ok bar) :
    bar.tradesCount = some kline.tradesCount := by
  have counted : optionalCell kline.restRow 8 Cell.toInt = .ok (some kline.tradesCount) := rfl
  rw [binanceKlineBar, if_neg (by simp [BinanceCandle.restRow]), counted] at made
  simp only [bind_eq_ok, pure_eq_ok, Except.ok.injEq] at made
  obtain ⟨_, -, _, -, _, -, _, -, _, -, _, -, _, -, _, -, _, -, _, -, _, -, _, -, _, -, _, -, _, -,
    _, rfl, _, -, _, -, rfl⟩ := made
  rfl

theorem tradesCount_of_binanceRestBars {query : BarQuery} {serverTime : Option Int}
    {includeOpenCandle : Bool} {kline : BinanceCandle} {bars : List (MarketBar F)}
    (made : binanceRestBars query serverTime includeOpenCandle [kline.restRow] = .ok bars) :
    ∀ bar ∈ bars, bar.tradesCount = some kline.tradesCount := by
  intro bar member
  simp only [binanceRestBars, normalizeBinanceKlines, bind_eq_ok] at made
  obtain ⟨core, ⟨rows, read, finished⟩, converted⟩ := made
  obtain ⟨source, inside, conversion⟩ := of_mem_mapM converted bar member
  obtain ⟨row, single, made⟩ := of_mem_mapM read source (mem_of_finishKlines finished source inside)
  rw [List.mem_singleton.mp single] at made
  rw [(marketBarFromCore_keeps conversion).2, tradesCount_of_restRow made]

/-- An archive bar counts no trades. -/
theorem tradesCount_of_binanceArchiveBars (D : Type) [PyDecimal D] [DecimalFloat D F] {query : BarQuery}
    {records : Option (List (List String))} {bars : List (MarketBar F)}
    (made : binanceArchiveBars D query records = .ok bars) : ∀ bar ∈ bars, bar.tradesCount = none := by
  intro bar member
  simp only [binanceArchiveBars, bind_eq_ok] at made
  obtain ⟨core, loaded, converted⟩ := made
  obtain ⟨source, inside, conversion⟩ := of_mem_mapM converted bar member
  rw [(marketBarFromCore_keeps conversion).2, (loadArchiveFile_bare D loaded source inside).tradesCount]

/-- A REST bar of Bybit has no turnover. -/
theorem turnover_of_bybitRestBars {query : BarQuery} {serverTime : Option Int} {includeOpenCandle : Bool}
    {payload : BybitPayload} {bars : List (MarketBar F)}
    (made : bybitRestBars query serverTime includeOpenCandle payload = .ok bars) :
    ∀ bar ∈ bars, bar.turnover = none := by
  intro bar member
  simp only [bybitRestBars, normalizeBybitKlines, bind_eq_ok] at made
  obtain ⟨core, ⟨rows, extracted, normal, read, finished⟩, converted⟩ := made
  obtain ⟨source, inside, conversion⟩ := of_mem_mapM converted bar member
  obtain ⟨row, -, made⟩ := of_mem_mapM read source (mem_of_finishKlines finished source inside)
  rw [(marketBarFromCore_keeps conversion).1]
  rw [normalizeBybitRow] at made
  cases built : bybitKlineBar (F := F) query.instrument.symbol query.instrument.market
      query.timeframe.canonical serverTime row with
  | error error =>
      rw [built] at made
      cases made
  | ok bar =>
      rw [built] at made
      cases made
      simp only [bybitKlineBar, bind_eq_ok, pure_eq_ok] at built
      obtain ⟨_, -, _, -, _, -, _, -, _, -, _, -, _, -, _, -, _, -, _, -, _, -, _, -, _, -, _, -, _, -,
        rfl⟩ := built
      rfl

variable [StreamHash]

theorem toMarketBar_fields {update : KlineUpdate F} {downloadedAt : Option Int} {bar : MarketBar F}
    (made : update.toMarketBar downloadedAt = .ok bar) :
    bar.turnover = update.turnover ∧ bar.tradesCount = update.tradesCount := by
  simp only [KlineUpdate.toMarketBar, bind_eq_ok, pure_eq_ok] at made
  obtain ⟨_, -, rfl⟩ := made
  exact ⟨rfl, rfl⟩

/-- A streamed bar of Bybit has the turnover of its kline. -/
theorem turnover_of_bybitStreamBars {query : BarQuery} {receivedAt : Option Int} {kline : BybitCandle}
    {topic : String} {stop timestamp : Int} {bars : List (MarketBar F)}
    (made : bybitStreamBars query receivedAt (kline.event topic stop timestamp) = .ok bars) :
    ∀ bar ∈ bars, bar.turnover.isSome := by
  intro bar member
  simp only [bybitStreamBars, normalizeBybitKline, bind_eq_ok] at made
  obtain ⟨updates, read, converted⟩ := made
  obtain ⟨update, inside, conversion⟩ := of_mem_mapM converted bar member
  obtain ⟨item, single, normal⟩ := of_mem_mapM read update inside
  rw [(toMarketBar_fields conversion).1]
  have own : item.turnover = some kline.turnover := by
    rw [List.mem_singleton.mp single]
  rw [bybitUpdate, own] at normal
  simp only [bind_eq_ok, pure_eq_ok, optionalFloat, map_eq_ok] at normal
  obtain ⟨_, -, _, -, _, -, _, -, _, -, _, -, _, ⟨value, -, rfl⟩, rfl⟩ := normal
  rfl

/-- A decimal text of an exchange: it is not empty, and its value is no NaN. -/
def DecimalText (F : Type) [PyFloat F] (text : String) : Prop :=
  text ≠ "" ∧ ∀ value : F, PyFloat.parse text = .ok value → PyFloat.eq value value = true

/-- The decimal texts of a kline. -/
def BinanceCandle.texts (kline : BinanceCandle) : List String :=
  [kline.openText, kline.highText, kline.lowText, kline.closeText, kline.volumeText, kline.quoteVolume,
    kline.takerBuyBase, kline.takerBuyQuote]

/-- The parsed values of a kline, which both interfaces read from the same texts. -/
structure BinanceCandle.Values (kline : BinanceCandle) (bar : MarketBar F) : Prop where
  openPrice : PyFloat.parse kline.openText = .ok bar.openPrice
  high : PyFloat.parse kline.highText = .ok bar.high
  low : PyFloat.parse kline.lowText = .ok bar.low
  close : PyFloat.parse kline.closeText = .ok bar.close
  volume : PyFloat.parse kline.volumeText = .ok bar.volume
  quoteVolume : ∃ value, PyFloat.parse kline.quoteVolume = .ok value ∧ bar.quoteVolume = some value
  takerBuyBase : ∃ value, PyFloat.parse kline.takerBuyBase = .ok value ∧
    bar.takerBuyBaseVolume = some value
  takerBuyQuote : ∃ value, PyFloat.parse kline.takerBuyQuote = .ok value ∧
    bar.takerBuyQuoteVolume = some value
  tradesCount : bar.tradesCount = some kline.tradesCount
  turnover : bar.turnover = none
  time : bar.time = kline.openTime
  timeClose : bar.timeClose = some kline.closeTime
  sourceKind : bar.sourceKind = "trade_kline"
  texts : [bar.openText, bar.highText, bar.lowText, bar.closeText, bar.volumeText] =
    [some kline.openText, some kline.highText, some kline.lowText, some kline.closeText,
      some kline.volumeText]

omit [StreamHash] [PyText] in
theorem optionalCell_text {row : List Cell} {index : Nat} {text : String} {value : Option F}
    (cell : row[index]? = some (.text text)) (nonempty : text ≠ "")
    (read : optionalCell row index Cell.toFloat = .ok value) :
    ∃ number, PyFloat.parse text = .ok number ∧ value = some number := by
  rw [optionalCell, cell] at read
  dsimp only at read
  rw [if_neg (by simp [nonempty]), map_eq_ok] at read
  obtain ⟨number, parsed, same⟩ := read
  exact ⟨number, parsed, same.symm⟩

omit [StreamHash] in
theorem values_of_restRow {symbol market timeframe : String} {serverTime : Option Int}
    {kline : BinanceCandle} {bar : MarketBar F} (closes : kline.openTime < kline.closeTime)
    (decimals : ∀ text ∈ kline.texts, text ≠ "")
    (made : binanceKlineBar symbol market timeframe serverTime kline.restRow = .ok bar) :
    kline.Values bar := by
  have counted := tradesCount_of_restRow made
  have closeTime : binanceCloseTime kline.restRow kline.openTime timeframe = .ok kline.closeTime := by
    have late : ¬ kline.closeTime ≤ kline.openTime := by omega
    simp [binanceCloseTime, BinanceCandle.restRow, Cell.toInt, late]
  have cell (index : Nat) (known : Cell) (found : kline.restRow[index]? = some known) :
      cellAt kline.restRow index = .ok known := by
    rw [cellAt, found]
  rw [binanceKlineBar, if_neg (by simp [BinanceCandle.restRow]), cell 0 _ rfl, cell 1 _ rfl, cell 2 _ rfl,
    cell 3 _ rfl, cell 4 _ rfl, cell 5 _ rfl] at made
  simp only [ok_bind, Cell.toInt, Cell.toFloat, closeTime, bind_eq_ok, pure_eq_ok] at made
  obtain ⟨closed, -, openPrice, opens, high, highs, low, lows, close, closing, volume, volumes, quote, quotes,
    trades, -, base, bases, taker, takers, rfl⟩ := made
  exact {
    openPrice := opens
    high := highs
    low := lows
    close := closing
    volume := volumes
    quoteVolume := optionalCell_text rfl (decimals _ (by simp [BinanceCandle.texts])) quotes
    takerBuyBase := optionalCell_text rfl (decimals _ (by simp [BinanceCandle.texts])) bases
    takerBuyQuote := optionalCell_text rfl (decimals _ (by simp [BinanceCandle.texts])) takers
    tradesCount := counted
    turnover := rfl
    time := rfl
    timeClose := rfl
    sourceKind := rfl
    texts := rfl }

theorem values_of_event {query : BarQuery} {receivedAt : Option Int} {kline : BinanceCandle}
    {symbol interval : String} {eventTime : Int} {bar : MarketBar F}
    (made : binanceStreamBar query receivedAt (kline.event symbol interval eventTime) = .ok bar) :
    kline.Values bar := by
  simp only [binanceStreamBar, normalizeBinanceKline, BinanceCandle.event, optionalFloat, bind_eq_ok,
    pure_eq_ok, map_eq_ok] at made
  obtain ⟨_, ⟨openPrice, opens, high, highs, low, lows, close, closing, volume, volumes, _,
    ⟨quote, quotes, rfl⟩, _, ⟨base, bases, rfl⟩, _, ⟨taker, takers, rfl⟩, rfl⟩, converted⟩ := made
  simp only [KlineUpdate.toMarketBar, bind_eq_ok, pure_eq_ok] at converted
  obtain ⟨_, -, rfl⟩ := converted
  exact {
    openPrice := opens
    high := highs
    low := lows
    close := closing
    volume := volumes
    quoteVolume := ⟨quote, quotes, rfl⟩
    takerBuyBase := ⟨base, bases, rfl⟩
    takerBuyQuote := ⟨taker, takers, rfl⟩
    tradesCount := rfl
    turnover := rfl
    time := rfl
    timeClose := rfl
    sourceKind := rfl
    texts := rfl }

omit [StreamHash] [PyText] in
/-- Bars of one kline with one identity are one candle. -/
theorem same_of_values {kline : BinanceCandle} {left right : MarketBar F} (first : kline.Values left)
    (second : kline.Values right) (decimals : ∀ text ∈ kline.texts, DecimalText F text)
    (identity : left.exchange = right.exchange ∧ left.market = right.market ∧
      left.symbol = right.symbol ∧ left.timeframe = right.timeframe ∧ left.isClosed = right.isClosed) :
    sameCanonicalCandle left right = true := by
  have same {text : String} {value other : F} (member : text ∈ kline.texts)
      (parsed : PyFloat.parse text = .ok value) (again : PyFloat.parse text = .ok other) :
      PyFloat.eq value other = true := by
    cases parsed.symm.trans again
    exact (decimals text member).2 value parsed
  have optional {text : String} {value other : Option F} (member : text ∈ kline.texts)
      (parsed : ∃ number, PyFloat.parse text = .ok number ∧ value = some number)
      (again : ∃ number, PyFloat.parse text = .ok number ∧ other = some number) :
      sameCanonicalCandle.sameFloat value other = true := by
    obtain ⟨number, read, rfl⟩ := parsed
    obtain ⟨second, reread, rfl⟩ := again
    exact same member read reread
  obtain ⟨exchange, market, symbol, timeframe, isClosed⟩ := identity
  have texts := first.texts.trans second.texts.symm
  simp only [List.cons.injEq, and_true] at texts
  obtain ⟨openText, highText, lowText, closeText, volumeText⟩ := texts
  have turnover : sameCanonicalCandle.sameFloat left.turnover right.turnover = true := by
    rw [first.turnover, second.turnover]
    rfl
  simp only [sameCanonicalCandle, Bool.and_eq_true, decide_eq_true_eq]
  simp only [exchange, market, symbol, timeframe, isClosed, openText, highText, lowText, closeText,
    volumeText, turnover, first.time.trans second.time.symm, first.timeClose.trans second.timeClose.symm,
    first.sourceKind.trans second.sourceKind.symm, first.tradesCount.trans second.tradesCount.symm,
    same (by simp [BinanceCandle.texts]) first.openPrice second.openPrice,
    same (by simp [BinanceCandle.texts]) first.high second.high,
    same (by simp [BinanceCandle.texts]) first.low second.low,
    same (by simp [BinanceCandle.texts]) first.close second.close,
    same (by simp [BinanceCandle.texts]) first.volume second.volume,
    optional (by simp [BinanceCandle.texts]) first.quoteVolume second.quoteVolume,
    optional (by simp [BinanceCandle.texts]) first.takerBuyBase second.takerBuyBase,
    optional (by simp [BinanceCandle.texts]) first.takerBuyQuote second.takerBuyQuote, and_self]

omit [StreamHash] in
/-- The core conversion changes the identity of a bar and nothing of its values. -/
theorem BinanceCandle.Values.converted {kline : BinanceCandle} {query : BarQuery} {transport : String}
    {bar made : MarketBar F} (values : kline.Values bar)
    (conversion : marketBarFromCore query transport bar = .ok made) : kline.Values made := by
  rw [marketBarFromCore, values.timeClose] at conversion
  cases conversion
  exact {
    openPrice := values.openPrice
    high := values.high
    low := values.low
    close := values.close
    volume := values.volume
    quoteVolume := values.quoteVolume
    takerBuyBase := values.takerBuyBase
    takerBuyQuote := values.takerBuyQuote
    tradesCount := values.tradesCount
    turnover := values.turnover
    time := values.time
    timeClose := rfl
    sourceKind := values.sourceKind
    texts := values.texts }

omit [PyText] [StreamHash] [PyFloat F] in
theorem canonical_nonempty [PyText] (timeframe : Timeframe) : timeframe.canonical ≠ "" := by
  have form := canonicalForm_of_accepted timeframe.fixedPoint
  intro empty
  rw [empty] at form
  generalize same : "" = text at form
  cases form with
  | day => exact absurd same (by decide)
  | week => exact absurd same (by decide)
  | month => exact absurd same (by decide)
  | fixed count canonical =>
      have characters := congrArg String.toList same
      simp at characters

/-- A streamed bar has the identity of the query whose stream it comes from. -/
theorem identity_of_event {query : BarQuery} {receivedAt : Option Int} {kline : BinanceCandle}
    {interval : String} {eventTime : Int} {bar : MarketBar F}
    (made : binanceStreamBar query receivedAt (kline.event query.instrument.symbol interval eventTime) =
      .ok bar) :
    bar.exchange = "binance" ∧ bar.market = query.instrument.market ∧ bar.symbol = query.instrument.symbol ∧
      bar.timeframe = query.timeframe.canonical ∧ bar.isClosed = true := by
  have timeframe : binanceUpdateTimeframe (some query.timeframe.canonical) (some interval) =
      query.timeframe.canonical := by
    simp [binanceUpdateTimeframe, firstText, canonical_nonempty]
  have exchange : PyText.lower "binance" = "binance" := by
    rw [PyText.lower_ascii _ (by decide)]
    decide
  have symbol : PyText.upper (PyText.upper query.instrument.symbol) = query.instrument.symbol := by
    rw [PyText.upper_upper, query.instrument.upperSymbol]
  have named : textOrNone (some query.instrument.symbol) (some query.instrument.symbol) =
      query.instrument.symbol := by
    simp [textOrNone, query.instrument.named.2.2]
  simp only [binanceStreamBar, normalizeBinanceKline, BinanceCandle.event, bind_eq_ok, pure_eq_ok] at made
  obtain ⟨_, ⟨_, -, _, -, _, -, _, -, _, -, _, -, _, -, _, -, rfl⟩, converted⟩ := made
  simp only [KlineUpdate.toMarketBar, timeframe, query.timeframe.fixedPoint, ok_bind, pure_eq_ok] at converted
  cases converted
  exact ⟨exchange, query.instrument.lowerMarket, by rw [named, symbol], rfl, rfl⟩

/-- A closed Binance kline is one candle on its way through REST and through the stream. -/
theorem binance_rest_matches_stream {kline : BinanceCandle} {query : BarQuery}
    {serverTime receivedAt : Option Int} {includeOpenCandle : Bool} {interval : String} {eventTime : Int}
    {restBar streamBar : MarketBar F} (binance : query.instrument.exchange = "binance")
    (closes : kline.openTime < kline.closeTime) (decimals : ∀ text ∈ kline.texts, DecimalText F text)
    (rest : binanceRestBars query serverTime includeOpenCandle [kline.restRow] = .ok [restBar])
    (closed : restBar.isClosed = true)
    (stream : binanceStreamBar query receivedAt (kline.event query.instrument.symbol interval eventTime) =
      .ok streamBar) :
    sameCanonicalCandle restBar streamBar = true := by
  have second := values_of_event stream
  simp only [binanceRestBars, normalizeBinanceKlines, bind_eq_ok] at rest
  obtain ⟨core, ⟨rows, read, finished⟩, converted⟩ := rest
  obtain ⟨source, inside, conversion⟩ := of_mem_mapM converted restBar (List.mem_singleton_self _)
  obtain ⟨row, single, made⟩ := of_mem_mapM read source (mem_of_finishKlines finished source inside)
  rw [List.mem_singleton.mp single] at made
  have first := (values_of_restRow closes (fun text member => (decimals text member).1) made).converted
    conversion
  apply same_of_values first second decimals
  have identity : restBar.exchange = query.instrument.exchange ∧ restBar.market = query.instrument.market ∧
      restBar.symbol = query.instrument.symbol ∧ restBar.timeframe = query.timeframe.canonical := by
    rw [marketBarFromCore] at conversion
    split at conversion
    · cases conversion
    · cases conversion
      exact ⟨rfl, rfl, rfl, rfl⟩
  obtain ⟨exchange, market, symbol, timeframe, final⟩ := identity_of_event stream
  exact ⟨identity.1.trans (binance.trans exchange.symm), identity.2.1.trans market.symm,
    identity.2.2.1.trans symbol.symm, identity.2.2.2.trans timeframe.symm, closed.trans final.symm⟩

/-- No kline is one candle on all of its paths. Of Binance the archive has fewer values than REST and
the stream have; of Bybit the turnover is the quote volume of REST and the turnover of the stream. -/
theorem kline_never_one_candle (D : Type) [PyDecimal D] [DecimalFloat D F] :
    (∀ (kline : BinanceCandle) (query : BarQuery) (serverTime receivedAt : Option Int)
        (includeOpenCandle : Bool) (interval : String) (eventTime : Int)
        (restBar archiveBar streamBar : MarketBar F),
      binanceRestBars query serverTime includeOpenCandle [kline.restRow] = .ok [restBar] →
      binanceArchiveBars D query (some [kline.archiveRow]) = .ok [archiveBar] →
      binanceStreamBar query receivedAt (kline.event query.instrument.symbol interval eventTime) =
        .ok streamBar →
      ¬ OneCandle [restBar, archiveBar, streamBar]) ∧
    ∀ (kline : BybitCandle) (query : BarQuery) (serverTime receivedAt : Option Int)
        (includeOpenCandle : Bool) (topic : String) (stop timestamp : Int)
        (restBar streamBar : MarketBar F),
      bybitRestBars query serverTime includeOpenCandle (.rows [kline.restRow]) = .ok [restBar] →
      bybitStreamBars query receivedAt (kline.event topic stop timestamp) = .ok [streamBar] →
      ¬ OneCandle [restBar, streamBar] := by
  constructor
  · intro kline query serverTime receivedAt includeOpenCandle interval eventTime restBar archiveBar
      streamBar rest archive _ one
    have counted := tradesCount_of_binanceRestBars rest restBar (List.mem_singleton_self _)
    have bare := tradesCount_of_binanceArchiveBars D archive archiveBar (List.mem_singleton_self _)
    have same := tradesCount_of_same (List.rel_of_pairwise_cons one List.mem_cons_self)
    rw [counted, bare] at same
    cases same
  · intro kline query serverTime receivedAt includeOpenCandle topic stop timestamp restBar streamBar rest
      stream one
    have none := turnover_of_bybitRestBars rest restBar (List.mem_singleton_self _)
    have some := turnover_of_bybitStreamBars stream streamBar (List.mem_singleton_self _)
    have same := turnover_of_same (List.rel_of_pairwise_cons one List.mem_cons_self)
    rw [none, some] at same
    cases same

end Fields

end MarketdataProvider

namespace MarketdataProvider

open Foundation Reference
open scoped Reference

namespace Reference

def minuteKline : BinanceCandle where
  openTime := 60000
  closeTime := 119999
  openText := "1"
  highText := "1"
  lowText := "1"
  closeText := "1"
  volumeText := "2"
  quoteVolume := "2"
  tradesCount := 3
  takerBuyBase := "1"
  takerBuyQuote := "1"

def quarterKline : BybitCandle where
  openTime := 0
  openText := "1"
  highText := "1"
  lowText := "1"
  closeText := "1"
  volumeText := "2"
  turnover := "2"

def minuteRestBars : Except PyError (List (MarketBar Whole)) :=
  binanceRestBars (minuteQuery 0 172800000 (by decide)) (some 120000) false [minuteKline.restRow]

def minuteArchiveBars : Except PyError (List (MarketBar Whole)) :=
  binanceArchiveBars Whole (minuteQuery 0 172800000 (by decide)) (some [minuteKline.archiveRow])

def minuteStreamBar : Except PyError (MarketBar Whole) :=
  binanceStreamBar (minuteQuery 0 172800000 (by decide)) none (minuteKline.event "BTCUSDT" "1m" 120000)

def quarterRestBars : Except PyError (List (MarketBar Whole)) :=
  bybitRestBars quarterQuery (some 900000) false (.rows [quarterKline.restRow])

def quarterStreamBars : Except PyError (List (MarketBar Whole)) :=
  bybitStreamBars quarterQuery none (quarterKline.event "kline.15.BTCUSDT" 899999 900000)

theorem single_of_length {Value : Type} {outcome : Except PyError (List Value)}
    (one : outcome.toOption.map List.length = some 1) : ∃ value, outcome = .ok [value] := by
  obtain ⟨values, returned, length⟩ := Option.map_eq_some_iff.mp one
  obtain ⟨value, rfl⟩ := List.length_eq_one_iff.mp length
  exact ⟨value, eq_ok_of_toOption returned⟩

end Reference

/-- The three bars of a Binance kline, and the two of a Bybit kline. -/
theorem kline_never_one_candle_minute :
    (∃ restBar archiveBar streamBar, minuteRestBars = .ok [restBar] ∧ minuteArchiveBars = .ok [archiveBar] ∧
      minuteStreamBar = .ok streamBar ∧ ¬ OneCandle [restBar, archiveBar, streamBar]) ∧
    ∃ restBar streamBar, quarterRestBars = .ok [restBar] ∧ quarterStreamBars = .ok [streamBar] ∧
      ¬ OneCandle [restBar, streamBar] := by
  obtain ⟨restBar, rest⟩ : ∃ bar, minuteRestBars = .ok [bar] := single_of_length (by decide +kernel)
  obtain ⟨archiveBar, archive⟩ : ∃ bar, minuteArchiveBars = .ok [bar] :=
    single_of_length (by decide +kernel)
  obtain ⟨streamBar, stream⟩ : ∃ bar, minuteStreamBar = .ok bar := eq_ok_of_toBool (by decide +kernel)
  obtain ⟨bybitRest, rows⟩ : ∃ bar, quarterRestBars = .ok [bar] := single_of_length (by decide +kernel)
  obtain ⟨bybitStream, items⟩ : ∃ bar, quarterStreamBars = .ok [bar] :=
    single_of_length (by decide +kernel)
  obtain ⟨binance, bybit⟩ := @kline_never_one_candle _ Whole _ _ Whole _ _
  exact ⟨⟨restBar, archiveBar, streamBar, rest, archive, stream,
    binance minuteKline _ _ _ _ _ _ _ _ _ rest archive stream⟩, bybitRest, bybitStream, rows, items,
    bybit quarterKline _ _ _ _ _ _ _ _ _ rows items⟩

/-- The archive's bar of a kline conflicts with the one that REST delivered. -/
theorem archive_conflicts_with_rest :
    ∃ restBar archiveBar, minuteRestBars = .ok [restBar] ∧ minuteArchiveBars = .ok [archiveBar] ∧
      sameCanonicalCandle restBar archiveBar = false := by
  obtain ⟨restBar, rest⟩ : ∃ bar, minuteRestBars = .ok [bar] := single_of_length (by decide +kernel)
  obtain ⟨archiveBar, archive⟩ : ∃ bar, minuteArchiveBars = .ok [bar] :=
    single_of_length (by decide +kernel)
  refine ⟨restBar, archiveBar, rest, archive, Bool.eq_false_iff.mpr fun same => ?_⟩
  have counted := tradesCount_of_same same
  rw [tradesCount_of_binanceRestBars rest restBar (List.mem_singleton_self _),
    tradesCount_of_binanceArchiveBars Whole archive archiveBar (List.mem_singleton_self _)] at counted
  cases counted

end MarketdataProvider
