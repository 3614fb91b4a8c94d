import MarketdataProvider.Contracts.Query
import MarketdataProvider.Core.Bar

namespace MarketdataProvider

open Foundation

/-- A cell of a JSON row: an exchange sends integers and texts. -/
inductive Cell where
  | null
  | int (value : Int)
  | text (value : String)
  deriving DecidableEq, Repr

section Cells

variable [PyText]

/-- `int(cell)` -/
def Cell.toInt (cell : Cell) : Except PyError Int :=
  match cell with
  | .null => .error .typeError
  | .int value => .ok value
  | .text value =>
      match pyInt value.toList with
      | some number => .ok number
      | none => .error (.valueError ("invalid literal for int() with base 10: " ++ value))

omit [PyText] in
/-- `str(cell)` -/
def Cell.toText (cell : Cell) : String :=
  match cell with
  | .null => "None"
  | .int value => toString value
  | .text value => value

omit [PyText] in
/-- `float(cell)` -/
def Cell.toFloat {F : Type} [PyFloat F] (cell : Cell) : Except PyError F :=
  match cell with
  | .null => .error .typeError
  | .int value => PyFloat.parse (toString value)
  | .text value => PyFloat.parse value

omit [PyText] in
/-- `row[index]` -/
def cellAt (row : List Cell) (index : Nat) : Except PyError Cell :=
  match row[index]? with
  | some cell => .ok cell
  | none => .error .indexError

omit [PyText] in
/-- `convert(row[index]) if len(row) > index and row[index] not in (None, "") else None` -/
def optionalCell {Value : Type} (row : List Cell) (index : Nat) (convert : Cell → Except PyError Value) :
    Except PyError (Option Value) :=
  match row[index]? with
  | none => .ok none
  | some cell => if cell = .null ∨ cell = .text "" then .ok none else some <$> convert cell

end Cells

section Normalize

variable [PyText] {F : Type} [PyFloat F]

/-- `bar_finality(...) is Finality.FINAL` -/
def isFinal (closeTime : Int) (serverTime : Option Int) : Except PyError Bool :=
  match serverTime with
  | none => .error (.mdValidationError "server_time_ms required")
  | some now => .ok (closeTime ≤ now)

def excludeOpenCandle (bars : List (MarketBar F)) (serverTime : Option Int) :
    Except PyError (List (MarketBar F)) :=
  match serverTime with
  | none => .error (.mdValidationError "server_time_ms required")
  | some now =>
      bars.foldlM (fun kept bar =>
        match bar.timeClose with
        | none => .error (.mdValidationError "time_close required to decide finality")
        | some close => .ok (if close ≤ now then kept ++ [bar] else kept)) []

def keptKlines (bars : List (MarketBar F)) (serverTime : Option Int) (includeOpenCandle : Bool) :
    Except PyError (List (MarketBar F)) :=
  if includeOpenCandle then .ok bars else excludeOpenCandle bars serverTime

/-- The last steps of both normalizers: open candles go and the others are checked. -/
def finishKlines (bars : List (MarketBar F)) (serverTime : Option Int) (includeOpenCandle : Bool) :
    Except PyError (List (MarketBar F)) := do
  let kept ← keptKlines (sortByTime bars) serverTime includeOpenCandle
  validateBars (kept.map MarketBar.toBar)
  return kept

/-- The close time of a row, unless it is missing or not behind the open time. -/
def binanceCloseTime (row : List Cell) (openTime : Int) (timeframe : String) : Except PyError Int := do
  let closeTime ← match row[6]? with
    | none => closeTimeMs openTime timeframe
    | some .null => closeTimeMs openTime timeframe
    | some cell => cell.toInt
  if closeTime ≤ openTime then closeTimeMs openTime timeframe else return closeTime

def binanceKlineBar (symbol market timeframe : String) (serverTime : Option Int) (row : List Cell) :
    Except PyError (MarketBar F) :=
  if row.length < 6 then .error (.mdInvalidExchangeResponse "Binance kline row too short" [])
  else do
    let openTime ← (← cellAt row 0).toInt
    let closeTime ← binanceCloseTime row openTime timeframe
    let isClosed ← isFinal closeTime serverTime
    let openPrice ← (← cellAt row 1).toFloat
    let high ← (← cellAt row 2).toFloat
    let low ← (← cellAt row 3).toFloat
    let close ← (← cellAt row 4).toFloat
    let volume ← (← cellAt row 5).toFloat
    let quoteVolume ← optionalCell row 7 Cell.toFloat
    let tradesCount ← optionalCell row 8 Cell.toInt
    let takerBuyBaseVolume ← optionalCell row 9 Cell.toFloat
    let takerBuyQuoteVolume ← optionalCell row 10 Cell.toFloat
    return {
      time := openTime
      openPrice, high, low, close, volume
      timeClose := some closeTime
      exchange := "binance"
      market
      symbol := PyText.upper symbol
      timeframe
      sourceTransport := "rest"
      sourceKind := "trade_kline"
      source := "fixture"
      isClosed
      provider := ""
      providerRevision := none
      revisionState := .original
      revision := 0
      openText := some (row.getD 1 .null).toText
      highText := some (row.getD 2 .null).toText
      lowText := some (row.getD 3 .null).toText
      closeText := some (row.getD 4 .null).toText
      volumeText := some (row.getD 5 .null).toText
      quoteVolume
      turnover := none
      tradesCount, takerBuyBaseVolume, takerBuyQuoteVolume
      downloadedAt := none
      metadata := []
      lineage := RevisionState.original_admits }

def normalizeBinanceKlines (rows : List (List Cell)) (symbol market timeframe : String)
    (serverTime : Option Int) (includeOpenCandle : Bool) : Except PyError (List (MarketBar F)) := do
  let bars ← rows.mapM (binanceKlineBar symbol market timeframe serverTime)
  finishKlines bars serverTime includeOpenCandle

inductive BybitPayload where
  | rows (rows : List (List Cell))
  | result (list : Option (List (List Cell)))

/-- `_extract_rows` -/
def extractRows (payload : BybitPayload) : Except PyError (List (List Cell)) :=
  match payload with
  | .rows rows => .ok rows
  | .result (some rows) => .ok rows
  | .result none => .error (.mdInvalidExchangeResponse "Bybit payload missing result.list" [])

/-- An index, type or value error of a row is an invalid response. -/
def invalidRow (error : PyError) : PyError :=
  match error with
  | .indexError => .mdInvalidExchangeResponse "Bybit kline row is invalid" []
  | .typeError => .mdInvalidExchangeResponse "Bybit kline row is invalid" []
  | .valueError _ => .mdInvalidExchangeResponse "Bybit kline row is invalid" []
  | other => other

def bybitKlineBar (symbol market timeframe : String) (serverTime : Option Int) (row : List Cell) :
    Except PyError (MarketBar F) := do
  let openTime ← (← cellAt row 0).toInt
  let closeTime ← closeTimeMs openTime timeframe
  let openPrice ← (← cellAt row 1).toFloat
  let high ← (← cellAt row 2).toFloat
  let low ← (← cellAt row 3).toFloat
  let close ← (← cellAt row 4).toFloat
  let volume ← (← cellAt row 5).toFloat
  let isClosed ← isFinal closeTime serverTime
  let quoteVolume ← optionalCell row 6 Cell.toFloat
  return {
    time := openTime
    openPrice, high, low, close, volume
    timeClose := some closeTime
    exchange := "bybit"
    market
    symbol := PyText.upper symbol
    timeframe
    sourceTransport := "rest"
    sourceKind := "trade_kline"
    source := "fixture"
    isClosed
    provider := ""
    providerRevision := none
    revisionState := .original
    revision := 0
    openText := some (row.getD 1 .null).toText
    highText := some (row.getD 2 .null).toText
    lowText := some (row.getD 3 .null).toText
    closeText := some (row.getD 4 .null).toText
    volumeText := some (row.getD 5 .null).toText
    quoteVolume
    turnover := none
    tradesCount := none
    takerBuyBaseVolume := none
    takerBuyQuoteVolume := none
    downloadedAt := none
    metadata := []
    lineage := RevisionState.original_admits }

/-- `_normalize_row` -/
def normalizeBybitRow (symbol market timeframe : String) (serverTime : Option Int) (row : List Cell) :
    Except PyError (MarketBar F) :=
  (bybitKlineBar symbol market timeframe serverTime row).mapError invalidRow

def normalizeBybitKlines (payload : BybitPayload) (symbol market timeframe : String)
    (serverTime : Option Int) (includeOpenCandle : Bool) : Except PyError (List (MarketBar F)) := do
  let rows ← extractRows payload
  let bars ← rows.mapM (normalizeBybitRow symbol market timeframe serverTime)
  finishKlines bars serverTime includeOpenCandle

omit [PyFloat F] in
/-- `_market_bar_from_core`; the sources give it bars with a finality of their own. -/
def marketBarFromCore (query : BarQuery) (sourceTransport : String) (bar : MarketBar F) :
    Except PyError (MarketBar F) :=
  match bar.timeClose with
  | none => .error (.mdValidationError "source bar is missing explicit close time")
  | some closeTime => .ok {
      bar with
      timeClose := some closeTime
      exchange := query.instrument.exchange
      market := query.instrument.market
      symbol := query.instrument.symbol
      timeframe := query.timeframe.canonical
      sourceTransport
      source := ""
      metadata := [] }

end Normalize

end MarketdataProvider
