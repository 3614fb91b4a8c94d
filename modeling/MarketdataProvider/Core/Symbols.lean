import MarketdataProvider.Core.Python
import Mathlib.Data.List.Sort

namespace MarketdataProvider

variable [PyText]

def defaultStableQuoteAssets : List String :=
  ["USDT", "USDC", "FDUSD", "BUSD", "TUSD", "USDP", "DAI", "USD"]

structure NormalizedSymbol where
  exchange : String
  market : String
  baseSymbol : String
  tvSymbol : String
  exchangeSymbol : String
  isPerpetual : Bool
  deriving DecidableEq, Repr

def exchanges : List String :=
  ["BINANCE", "BYBIT", "OKX", "COINBASE", "KRAKEN", "KUCOIN", "BITGET", "GATEIO", "HTX", "MEXC"]

def binanceMarketAliases : List (String × String) :=
  [("spot", "spot"), ("margin", "spot"), ("cash", "spot"), ("usdm", "usdm"), ("linear", "usdm"),
    ("futures", "usdm"), ("usdt_futures", "usdm"), ("usdt-futures", "usdm"),
    ("usdc_futures", "usdm"), ("usdc-futures", "usdm"), ("swap", "usdm"), ("coinm", "coinm"),
    ("inverse", "coinm"), ("coin_futures", "coinm"), ("coin-futures", "coinm"),
    ("delivery", "coinm"), ("delivery_futures", "coinm"), ("delivery-futures", "coinm")]

def bybitMarketAliases : List (String × String) :=
  [("spot", "spot"), ("margin", "spot"), ("linear", "linear"), ("usdm", "linear"),
    ("futures", "linear"), ("usdt_futures", "linear"), ("usdt-futures", "linear"),
    ("usdc_futures", "linear"), ("usdc-futures", "linear"), ("swap", "linear"),
    ("inverse", "inverse"), ("coinm", "inverse"), ("coin_futures", "inverse"),
    ("coin-futures", "inverse"), ("delivery", "inverse"), ("delivery_futures", "inverse"),
    ("delivery-futures", "inverse")]

def derivativeMarketAliases : List (String × String) :=
  [("linear", "linear"), ("usdm", "linear"), ("futures", "linear"), ("usdt_futures", "linear"),
    ("usdt-futures", "linear"), ("usdc_futures", "linear"), ("usdc-futures", "linear"),
    ("swap", "linear"), ("inverse", "inverse"), ("coinm", "inverse"),
    ("coin_futures", "inverse"), ("coin-futures", "inverse"), ("delivery", "inverse"),
    ("delivery_futures", "delivery_futures"), ("delivery-futures", "delivery_futures"),
    ("dated_futures", "delivery_futures"), ("dated-futures", "delivery_futures")]

def marginMarketAliases : List (String × String) :=
  [("spot", "spot"), ("cash", "spot"), ("margin", "margin")]

def marketAliases (exchange : String) : List (String × String) :=
  if exchange = "BINANCE" then binanceMarketAliases
  else if exchange = "BYBIT" then bybitMarketAliases
  else if exchange ∈ ["OKX", "KRAKEN", "KUCOIN", "BITGET", "GATEIO", "HTX"] then
    marginMarketAliases ++ derivativeMarketAliases
  else if exchange = "COINBASE" then [("spot", "spot"), ("cash", "spot")]
  else if exchange = "MEXC" then [("spot", "spot"), ("cash", "spot")] ++ derivativeMarketAliases
  else []

/-- `text.replace(old, new)` of one character. -/
def replaceChar (old new : Char) (text : String) : String :=
  String.ofList (text.toList.map fun character => if character = old then new else character)

/-- `_provider_market` -/
def providerMarket (exchange market : String) : Except PyError String :=
  match (marketAliases exchange).lookup (replaceChar '-' '_' (PyText.lower market)) with
  | some provider => .ok provider
  | none => .error (.mdSymbolUnsupported ("Unsupported " ++ exchange ++ " market: " ++ market))

/-- `text.removesuffix(".P")`, and whether there was one. -/
def splitPerpetual (text : List Char) : List Char × Bool :=
  if ['.', 'P'].isSuffixOf text then (text.take (text.length - 2), true) else (text, false)

/-- The text behind the first colon, if there is one. -/
def behindColon (text : List Char) : List Char :=
  if ':' ∈ text then (text.dropWhile (· ≠ ':')).drop 1 else text

/-- `quote_asset`; longer quotes are tried first, and the sort is stable. -/
def quoteAsset (symbol : String) (quoteAssets : List String) : Option String :=
  let raw := (PyText.upper (String.ofList (strip symbol.toList))).toList
  let root := (splitPerpetual (behindColon raw)).1.takeWhile (· ≠ '_')
  ((quoteAssets.map PyText.upper).insertionSort fun left right => right.length ≤ left.length).find?
    fun quote => quote.toList.isSuffixOf root

/-- The exchange in front of the first colon, and the rest. -/
def splitExchange (raw : List Char) : Except PyError (Option String × List Char) :=
  if ':' ∈ raw then
    let parsed := String.ofList (raw.takeWhile (· ≠ ':'))
    if parsed ∈ exchanges then .ok (some parsed, (raw.dropWhile (· ≠ ':')).drop 1)
    else .error (.mdSymbolUnsupported ("Unsupported exchange: " ++ parsed))
  else .ok (none, raw)

/-- The first text that is not empty. -/
def firstText (left right : Option String) : String :=
  match left with
  | some text => if text = "" then right.getD "" else text
  | none => right.getD ""

def derivativeMarkets : List String := ["usdm", "linear", "coinm", "inverse"]

def symbolMarket (exchange : String) (market : Option String) (perpetual : Bool) :
    Except PyError String :=
  let requested := replaceChar '-' '_' (replaceChar ' ' '_'
    (PyText.lower (String.ofList (strip (market.getD "").toList))))
  if requested ≠ "" then providerMarket exchange requested
  else if perpetual then .ok (if exchange = "BINANCE" then "usdm" else "linear")
  else .ok "spot"

def normalizeSymbol (symbol : String) (exchange market : Option String) :
    Except PyError NormalizedSymbol := do
  let raw := (PyText.upper (String.ofList (strip symbol.toList))).toList
  if raw = [] then .error (.mdSymbolUnsupported "Empty symbol")
  else
    let split ← splitExchange raw
    let ex := PyText.upper (firstText exchange split.1)
    if ex = "" then .error (.mdSymbolAmbiguous
      "Symbol without exchange is ambiguous; pass exchange='BINANCE' or use BINANCE:BTCUSDT")
    else if ex ∉ exchanges then .error (.mdSymbolUnsupported ("Unsupported exchange: " ++ ex))
    else
      let contract := splitPerpetual split.2
      let contractSymbol := String.ofList contract.1
      let mkt ← symbolMarket ex market contract.2
      let base := match quoteAsset contractSymbol defaultStableQuoteAssets with
        | some quote => contract.1.take (contract.1.length - quote.length)
        | none => contract.1
      let derivative := mkt ∈ derivativeMarkets
      .ok {
        exchange := PyText.lower ex
        market := mkt
        baseSymbol := String.ofList base
        tvSymbol := ex ++ ":" ++ contractSymbol ++ if contract.2 ∨ derivative then ".P" else ""
        exchangeSymbol := contractSymbol
        isPerpetual := derivative }

end MarketdataProvider
