import MarketdataProvider.Contracts.Footprint
import MarketdataProvider.Foundation.Grouping
import MarketdataProvider.Foundation.WindowedMerge
import MarketdataProvider.Store.SegmentCsv
import MarketdataProvider.Store.SegmentChecksums

namespace MarketdataProvider

open Foundation

structure FootprintManifest (F : Type) where
  schemaVersion : String
  exchange : String
  market : String
  symbol : String
  rawSource : String
  timeframe : String
  priceBucket : F
  startTime : Option Int
  endTime : Option Int
  rowsCount : Nat
  checksum : String
  deriving DecidableEq, Repr

/-- The files of one instrument, timeframe and bucket size. -/
structure FootprintFiles (F : Type) where
  data : Option (List UInt8)
  manifest : Option (FootprintManifest F)

def FootprintFiles.empty {F : Type} : FootprintFiles F := ⟨none, none⟩

def footprintFields : List String :=
  ["time", "time_close", "price_low", "price_high", "buy_volume", "sell_volume", "buy_count",
    "sell_count", "trades_count"]

/-- What one row of the file says. -/
structure FootprintEntry (F : Type) where
  time : Int
  timeClose : Int
  tradesCount : Int
  level : FootprintLevel F
  deriving DecidableEq, Repr

section Read

variable [PyText] {F : Type} [PyFloat F]

/-- A row outside of the range is passed over before its other columns are read. -/
def footprintEntry (start stop : Int) (row : CsvRow) : Except PyError (Option (FootprintEntry F)) := do
  let time ← row.intColumn "time"
  if start ≤ time ∧ time < stop then do
    let timeClose ← row.intColumn "time_close"
    let tradesCount ← row.intColumn "trades_count"
    let priceLow ← row.floatColumn "price_low"
    let priceHigh ← row.floatColumn "price_high"
    let buyVolume ← row.floatColumn "buy_volume"
    let sellVolume ← row.floatColumn "sell_volume"
    let buyCount ← row.intColumn "buy_count"
    let sellCount ← row.intColumn "sell_count"
    return some ⟨time, timeClose, tradesCount,
      { priceLow, priceHigh, buyVolume, sellVolume, buyCount, sellCount }⟩
  else return none

omit [PyText] in
/-- `sorted(levels, key=lambda item: item.price_low)` -/
def sortLevels (levels : List (FootprintLevel F)) : List (FootprintLevel F) :=
  levels.insertionSort fun left right => PyFloat.lt right.priceLow left.priceLow = false

omit [PyText] in
/-- The later rows of a bar overwrite its close time and its count. -/
def footprintBarOf (group : Int × List (FootprintEntry F)) : FootprintBar F where
  time := group.1
  timeClose := (group.2.getLast?.map FootprintEntry.timeClose).getD 0
  levels := sortLevels (group.2.map FootprintEntry.level)
  tradesCount := (group.2.getLast?.map FootprintEntry.tradesCount).getD 0

omit [PyText] in
def footprintBarsOf (entries : List (FootprintEntry F)) : List (FootprintBar F) :=
  ((Grouping.groupBy FootprintEntry.time entries).map footprintBarOf).insertionSort (·.time ≤ ·.time)

def readFootprintBars (data : Option (List UInt8)) (start stop : Int) :
    Except PyError (List (FootprintBar F)) :=
  match data with
  | none => .ok []
  | some bytes => do
      let stream ← csvStream bytes
      let entries ← (dictRows stream).mapM (footprintEntry start stop)
      endOfStream stream
      return footprintBarsOf entries.reduceOption

/-- `FootprintStore.read` -/
def readFootprint (files : FootprintFiles F) (query : FootprintQuery F) :
    Except PyError (FootprintSeries F) := do
  let bars ← readFootprintBars files.data query.startMs query.endMs
  let coverage ← footprintCoverage query bars
  return { query, bars, coverage }

end Read

section Write

variable {F : Type} [PyFloat F]

def footprintRow (bar : FootprintBar F) (level : FootprintLevel F) : List (String × String) :=
  [("time", toString bar.time), ("time_close", toString bar.timeClose),
    ("price_low", PyFloat.str level.priceLow), ("price_high", PyFloat.str level.priceHigh),
    ("buy_volume", PyFloat.str level.buyVolume), ("sell_volume", PyFloat.str level.sellVolume),
    ("buy_count", toString level.buyCount), ("sell_count", toString level.sellCount),
    ("trades_count", toString bar.tradesCount)]

def footprintRows (bars : List (FootprintBar F)) : List (List (String × String)) :=
  bars.flatMap fun bar => bar.levels.map (footprintRow bar)

/-- `_atomic_write_csv` -/
def footprintFile (bars : List (FootprintBar F)) : List UInt8 :=
  encodeUtf8 ((footprintFields :: (footprintRows bars).map (·.map Prod.snd)).flatMap Csv.encodeRecord)

/-- `json.dumps` of a level with sorted keys, and a line feed. -/
def footprintJson (bar : FootprintBar F) (level : FootprintLevel F) : String :=
  "\x7b\"buy_count\":" ++ toString level.buyCount ++ ",\"buy_volume\":" ++ PyFloat.str level.buyVolume ++
    ",\"price_high\":" ++ PyFloat.str level.priceHigh ++ ",\"price_low\":" ++
    PyFloat.str level.priceLow ++ ",\"sell_count\":" ++ toString level.sellCount ++
    ",\"sell_volume\":" ++ PyFloat.str level.sellVolume ++ ",\"time\":" ++ toString bar.time ++
    ",\"time_close\":" ++ toString bar.timeClose ++ "\x7d\n"

/-- `_checksum` -/
def footprintChecksum [Sha256] (bars : List (FootprintBar F)) : String :=
  hexDigest (bars.flatMap fun bar => bar.levels.flatMap fun level =>
    encodeUtf8 (footprintJson bar level).toList)

variable [PyText] [Sha256]

def footprintManifest (query : FootprintQuery F) (bars : List (FootprintBar F)) : FootprintManifest F where
  schemaVersion := "footprint-v1-csv-1"
  exchange := query.instrument.exchange
  market := query.instrument.market
  symbol := query.instrument.symbol
  rawSource := "agg_trades"
  timeframe := query.timeframe.canonical
  priceBucket := query.bucketSize
  startTime := bars.head?.map FootprintBar.time
  endTime := bars.getLast?.map FootprintBar.timeClose
  rowsCount := (bars.map fun bar => bar.levels.length).sum
  checksum := footprintChecksum bars

/-- `FootprintStore.write`: the bars of the query's range are read, merged and written as the file. -/
def writeFootprint (files : FootprintFiles F) (query : FootprintQuery F) (bars : List (FootprintBar F)) :
    Except PyError (FootprintFiles F) := do
  let existing ← readFootprint files query
  let merged := Keyed.byKey FootprintBar.time (existing.bars ++ bars)
  return ⟨some (footprintFile merged), some (footprintManifest query merged)⟩

end Write

end MarketdataProvider
