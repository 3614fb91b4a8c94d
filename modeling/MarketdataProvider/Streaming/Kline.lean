import MarketdataProvider.Contracts.Query
import MarketdataProvider.Core.Bar
import MarketdataProvider.Core.Intervals
import MarketdataProvider.Core.Symbols

namespace MarketdataProvider

open Foundation

/-- What `content_hash` is given of one update. -/
structure StreamRevision where
  exchange : String
  market : String
  symbol : String
  timeframe : String
  eventTime : Int
  openTime : Int
  closeTime : Int
  openPrice : String
  high : String
  low : String
  close : String
  volume : String
  isClosed : Bool
  deriving DecidableEq

/-- `content_hash` of the contract package. -/
class StreamHash where
  contentHash : StreamRevision → String

structure KlineUpdate (F : Type) where
  exchange : String
  market : String
  symbol : String
  timeframe : String
  eventTime : Int
  openTime : Int
  closeTime : Int
  openPrice : F
  high : F
  low : F
  close : F
  volume : F
  sourceKind : String
  quoteVolume : Option F
  turnover : Option F
  tradesCount : Option Int
  takerBuyBaseVolume : Option F
  takerBuyQuoteVolume : Option F
  isClosed : Bool
  rawSource : String
  rawEventId : Option String
  receivedAt : Option Int
  openText : Option String
  highText : Option String
  lowText : Option String
  closeText : Option String
  volumeText : Option String
  deriving DecidableEq

/-- The kline in a Binance event; the decimal values are texts. -/
structure BinanceKline where
  t : Int
  T : Int
  s : Option String
  i : Option String
  o : String
  h : String
  l : String
  c : String
  v : String
  q : Option String
  n : Option Int
  V : Option String
  Q : Option String
  x : Option Bool

structure BinanceKlineEvent where
  e : Option String
  E : Option Int
  s : Option String
  k : BinanceKline

structure BybitKline where
  start : Int
  stop : Option Int
  openText : String
  high : String
  low : String
  close : String
  volume : String
  turnover : Option String
  confirm : Option Bool
  timestamp : Option Int

structure BybitKlineEvent where
  topic : Option String
  ts : Option Int
  symbol : Option String
  data : List BybitKline

/-- `str(payload.get(key, ""))` of an integer. -/
def intText (value : Option Int) : String :=
  match value with
  | some value => toString value
  | none => ""

section Updates

variable [PyText] {F : Type} [PyFloat F]

namespace KlineUpdate

def revisionPayload (update : KlineUpdate F) : StreamRevision where
  exchange := update.exchange
  market := update.market
  symbol := update.symbol
  timeframe := update.timeframe
  eventTime := update.eventTime
  openTime := update.openTime
  closeTime := update.closeTime
  openPrice := PyFloat.str update.openPrice
  high := PyFloat.str update.high
  low := PyFloat.str update.low
  close := PyFloat.str update.close
  volume := PyFloat.str update.volume
  isClosed := update.isClosed

def providerRevision [StreamHash] (update : KlineUpdate F) : String :=
  match update.rawEventId with
  | some id => if id = "" then StreamHash.contentHash update.revisionPayload else id
  | none => StreamHash.contentHash update.revisionPayload

def toMarketBar [StreamHash] (update : KlineUpdate F) (downloadedAt : Option Int) :
    Except PyError (MarketBar F) := do
  let timeframe ← canonicalTimeframe update.timeframe
  return {
    time := update.openTime
    openPrice := update.openPrice
    high := update.high
    low := update.low
    close := update.close
    volume := update.volume
    timeClose := some update.closeTime
    exchange := PyText.lower update.exchange
    market := PyText.lower update.market
    symbol := PyText.upper update.symbol
    timeframe
    sourceTransport := update.rawSource
    sourceKind := update.sourceKind
    source := ""
    isClosed := update.isClosed
    provider := PyText.lower update.exchange
    providerRevision := some update.providerRevision
    revisionState := .original
    revision := 0
    openText := update.openText
    highText := update.highText
    lowText := update.lowText
    closeText := update.closeText
    volumeText := update.volumeText
    quoteVolume := update.quoteVolume
    turnover := update.turnover
    tradesCount := update.tradesCount
    takerBuyBaseVolume := update.takerBuyBaseVolume
    takerBuyQuoteVolume := update.takerBuyQuoteVolume
    downloadedAt := downloadedAt.or update.receivedAt
    metadata := []
    lineage := RevisionState.original_admits }

end KlineUpdate

/-- `float(text) if text is not None else None` -/
def optionalFloat (text : Option String) : Except PyError (Option F) :=
  match text with
  | none => .ok none
  | some text => some <$> PyFloat.parse text

/-- The first text that is not empty, or else `str(None)`. -/
def textOrNone (left right : Option String) : String :=
  match left, right with
  | some left, _ => if left = "" then right.getD "None" else left
  | none, right => right.getD "None"

def binanceUpdateTimeframe (timeframe interval : Option String) : String :=
  if firstText timeframe interval = "" then "1m" else firstText timeframe interval

def normalizeBinanceKline (payload : BinanceKlineEvent) (market : String) (timeframe : Option String)
    (sourceKind : String) (receivedAt : Option Int) : Except PyError (KlineUpdate F) := do
  let k := payload.k
  let openPrice ← PyFloat.parse k.o
  let high ← PyFloat.parse k.h
  let low ← PyFloat.parse k.l
  let close ← PyFloat.parse k.c
  let volume ← PyFloat.parse k.v
  let quoteVolume ← optionalFloat k.q
  let takerBuyBaseVolume ← optionalFloat k.V
  let takerBuyQuoteVolume ← optionalFloat k.Q
  return {
    exchange := "binance"
    market
    symbol := PyText.upper (textOrNone k.s payload.s)
    timeframe := binanceUpdateTimeframe timeframe k.i
    eventTime := intOr payload.E 0
    openTime := k.t
    closeTime := k.T
    openPrice, high, low, close, volume, sourceKind, quoteVolume
    turnover := none
    tradesCount := k.n
    takerBuyBaseVolume, takerBuyQuoteVolume
    isClosed := k.x.getD false
    rawSource := "ws"
    rawEventId := some (payload.e.getD "kline" ++ ":" ++ intText payload.E)
    receivedAt
    openText := some k.o
    highText := some k.h
    lowText := some k.l
    closeText := some k.c
    volumeText := some k.v }

/-- The interval and the symbol of a topic. -/
def topicParts (payload : BybitKlineEvent) : String × String :=
  match (payload.topic.getD "").toList.splitOn '.' with
  | _ :: interval :: symbol :: _ => (String.ofList interval, String.ofList symbol)
  | _ => ("1", payload.symbol.getD "")

def bybitCloseTime (item : BybitKline) (interval : String) : Except PyError Int :=
  match item.stop with
  | some stop => if stop = 0 then closeTimeMs item.start interval else .ok stop
  | none => closeTimeMs item.start interval

def bybitUpdate (payload : BybitKlineEvent) (market sourceKind : String) (receivedAt : Option Int)
    (item : BybitKline) : Except PyError (KlineUpdate F) := do
  let parts := topicParts payload
  let closeTime ← bybitCloseTime item parts.1
  let openPrice ← PyFloat.parse item.openText
  let high ← PyFloat.parse item.high
  let low ← PyFloat.parse item.low
  let close ← PyFloat.parse item.close
  let volume ← PyFloat.parse item.volume
  let turnover ← optionalFloat item.turnover
  return {
    exchange := "bybit"
    market
    symbol := PyText.upper parts.2
    timeframe := parts.1
    eventTime := intOr item.timestamp (intOr payload.ts 0)
    openTime := item.start
    closeTime, openPrice, high, low, close, volume, sourceKind
    quoteVolume := none
    turnover
    tradesCount := none
    takerBuyBaseVolume := none
    takerBuyQuoteVolume := none
    isClosed := item.confirm.getD false
    rawSource := "ws"
    rawEventId := some (payload.topic.getD "" ++ ":" ++ intText payload.ts)
    receivedAt
    openText := some item.openText
    highText := some item.high
    lowText := some item.low
    closeText := some item.close
    volumeText := some item.volume }

def normalizeBybitKline (payload : BybitKlineEvent) (market sourceKind : String)
    (receivedAt : Option Int) : Except PyError (List (KlineUpdate F)) :=
  payload.data.mapM (bybitUpdate payload market sourceKind receivedAt)

def bybitTopic (timeframe symbol : String) : Except PyError String := do
  let interval ← toBybitInterval timeframe
  return "kline." ++ interval ++ "." ++ PyText.upper symbol

end Updates

end MarketdataProvider
