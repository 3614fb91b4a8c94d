import MarketdataProvider.Foundation.Crash
import MarketdataProvider.Foundation.Json
import MarketdataProvider.Store.SegmentCsv
import MarketdataProvider.Store.SegmentManifest

namespace MarketdataProvider.LocalCache

open Foundation Foundation.Crash

/-- Files under the parts of their paths. -/
abbrev Files := List String → Option (List UInt8)

/-- The arguments that name a segment. -/
structure CacheKey where
  exchange : String
  market : String
  symbol : String
  timeframe : String
  deriving DecidableEq, Repr

structure CacheSegmentMetadata where
  runtimeContractVersion : String
  exchange : String
  market : String
  symbol : String
  timeframe : String
  start : Option Int
  stop : Option Int
  bars : Nat
  firstTime : Option Int
  lastTime : Option Int
  checksum : String
  dataFormat : String := "csv"
  deriving DecidableEq, Repr

/-- `str(value)` and `int.__repr__` refuse more than 4300 digits. -/
def intText (value : Int) : Except PyError String :=
  if 4300 < (Nat.toDigits 10 value.natAbs).length then
    .error (.valueError ("Exceeds the limit (4300 digits) for integer string conversion; " ++
      "use sys.set_int_max_str_digits() to increase the limit"))
  else .ok (toString value)

def barsPath (seg : List String) : List String := seg ++ ["bars.csv"]

def metadataPath (seg : List String) : List String := seg ++ ["metadata.json"]

section Paths

variable [PyText]

def cacheSegmentDir (root : String) (key : CacheKey) : Except PyError (List String) := do
  let timeframe ← canonicalTimeframe key.timeframe
  return [root, PyText.lower key.exchange, PyText.lower key.market, safePathPart key.symbol, timeframe]

end Paths

section Checksum

variable {F : Type} [PyFloat F]

/-- `json.dumps(value)` of a float. -/
def jsonFloat (value : F) : Json.Scalar :=
  if PyFloat.str value = "nan" then .number "NaN".toList
  else if PyFloat.str value = "inf" then .number "Infinity".toList
  else if PyFloat.str value = "-inf" then .number "-Infinity".toList
  else .number (PyFloat.str value).toList

def jsonInt (value : Int) : Except PyError Json.Scalar := do
  return .number (← intText value).toList

def jsonOptInt (value : Option Int) : Except PyError Json.Scalar :=
  match value with
  | none => .ok .null
  | some number => jsonInt number

def jsonText (value : String) : Json.Scalar := .text value.toList

/-- The row of `bars_checksum`, with its keys sorted. -/
def checksumRow (bar : Bar F) : Except PyError (List (List Char × Json.Scalar)) := do
  let time ← jsonInt bar.time
  let timeClose ← jsonOptInt bar.timeClose
  return [("close".toList, jsonFloat bar.close), ("high".toList, jsonFloat bar.high),
    ("low".toList, jsonFloat bar.low), ("open".toList, jsonFloat bar.openPrice),
    ("time".toList, time), ("time_close".toList, timeClose), ("volume".toList, jsonFloat bar.volume)]

/-- The text of one row and its line feed. -/
def checksumText (bar : Bar F) : Except PyError (List Char) := do
  return Json.dumps .compact (← checksumRow bar) ++ ['\n']

/-- All that `bars_checksum` feeds to the hash. -/
def checksumInput (bars : List (Bar F)) : Except PyError (List UInt8) := do
  return encodeUtf8 (← bars.mapM checksumText).flatten

def barsChecksum [Sha256] (bars : List (Bar F)) : Except PyError String := do
  return hexOfBytes (Sha256.digest (← checksumInput bars))

end Checksum

section Write

variable {F : Type} [PyFloat F]

def cacheFields : List String := ["time", "open", "high", "low", "close", "volume", "time_close"]

def closeText : Option Int → Except PyError String
  | none => .ok ""
  | some close => intText close

/-- One row of the data file. -/
def cacheRecord (bar : Bar F) : Except PyError (List String) := do
  let time ← intText bar.time
  let timeClose ← closeText bar.timeClose
  return [time, PyFloat.str bar.openPrice, PyFloat.str bar.high, PyFloat.str bar.low,
    PyFloat.str bar.close, PyFloat.str bar.volume, timeClose]

/-- `asdict(meta)`, with its keys sorted. -/
def metadataMembers (metadata : CacheSegmentMetadata) :
    Except PyError (List (List Char × Json.Scalar)) := do
  let bars ← jsonInt metadata.bars
  let stop ← jsonOptInt metadata.stop
  let firstTime ← jsonOptInt metadata.firstTime
  let lastTime ← jsonOptInt metadata.lastTime
  let start ← jsonOptInt metadata.start
  return [("bars".toList, bars), ("checksum".toList, jsonText metadata.checksum),
    ("data_format".toList, jsonText metadata.dataFormat), ("end".toList, stop),
    ("exchange".toList, jsonText metadata.exchange), ("first_time".toList, firstTime),
    ("last_time".toList, lastTime), ("market".toList, jsonText metadata.market),
    ("runtime_contract_version".toList, jsonText metadata.runtimeContractVersion),
    ("start".toList, start), ("symbol".toList, jsonText metadata.symbol),
    ("timeframe".toList, jsonText metadata.timeframe)]

def metadataText (metadata : CacheSegmentMetadata) : Except PyError (List Char) := do
  return Json.dumps .indented (← metadataMembers metadata) ++ ['\n']

def setFile (path : List String) (content : List UInt8) (files : Files) : Files :=
  Function.update files path (some content)

/-- `path.open("w")` truncates the file. -/
def openFile (path : List String) : Prog Files PyError Unit := Prog.modify (setFile path [])

/-- The bytes reach the file one after the other. -/
def appendBytes (path : List String) : List UInt8 → Prog Files PyError Unit
  | [] => .done ()
  | byte :: rest =>
      .step (fun files => setFile path ((files path).getD [] ++ [byte]) files) fun _ => appendBytes path rest

/-- A row that has no text stops the writer behind the rows before it. -/
def writeRows (path : List String) : List (Bar F) → Prog Files PyError Unit
  | [] => .done ()
  | bar :: rest => do
      let record ← Prog.ofExcept (cacheRecord bar)
      appendBytes path (encodeUtf8 (Csv.encodeRecord record))
      writeRows path rest

variable [PyText]

/-- The metadata that a write leaves next to its bars. -/
def segmentMetadata (bars : List (Bar F)) (key : CacheKey) (start stop : Option Int)
    (timeframe checksum : String) : CacheSegmentMetadata where
  runtimeContractVersion
  exchange := PyText.lower key.exchange
  market := PyText.lower key.market
  symbol := PyText.upper key.symbol
  timeframe
  start
  stop
  bars := bars.length
  firstTime := bars.head?.map Bar.time
  lastTime := bars.getLast?.map Bar.time
  checksum

variable [Sha256]

def writeCacheSegment (root : String) (bars : List (Bar F)) (key : CacheKey) (start stop : Option Int) :
    Prog Files PyError CacheSegmentMetadata := do
  Prog.ofExcept (validateBars bars)
  let seg ← Prog.ofExcept (cacheSegmentDir root key)
  openFile (barsPath seg)
  appendBytes (barsPath seg) (encodeUtf8 (Csv.encodeRecord cacheFields))
  writeRows (barsPath seg) bars
  let timeframe ← Prog.ofExcept (canonicalTimeframe key.timeframe)
  let checksum ← Prog.ofExcept (barsChecksum bars)
  let metadata := segmentMetadata bars key start stop timeframe checksum
  let text ← Prog.ofExcept (metadataText metadata)
  openFile (metadataPath seg)
  appendBytes (metadataPath seg) (encodeUtf8 text)
  return metadata

end Write

section Read

variable [PyText] {F : Type} [PyFloat F]

omit [PyText] in
/-- `float(r.get("volume") or 0)` -/
def volumeColumn (row : CsvRow) : Except PyError F :=
  match row.optText "volume" with
  | none => .ok PyFloat.zero
  | some text => PyFloat.parse text

/-- `int(r["time_close"]) if r.get("time_close") else None` -/
def closeColumn (row : CsvRow) : Except PyError (Option Int) :=
  match row.optText "time_close" with
  | none => .ok none
  | some _ => some <$> row.intColumn "time_close"

def cacheBar (row : CsvRow) : Except PyError (Bar F) := do
  let time ← row.intColumn "time"
  let openPrice ← row.floatColumn "open"
  let high ← row.floatColumn "high"
  let low ← row.floatColumn "low"
  let close ← row.floatColumn "close"
  let volume ← volumeColumn row
  let timeClose ← closeColumn row
  return { time, openPrice, high, low, close, volume, timeClose }

/-- All rows are read before the first of them is converted. -/
def storedBars (F : Type) [PyFloat F] (data : List UInt8) : Except PyError (List (Bar F)) := do
  let stream ← csvStream data
  endOfStream stream
  (dictRows stream).mapM cacheBar

/-- `json.loads(meta_path.read_text())`, of which only an object has a `get`. -/
def loadMetadata (metadata : List UInt8) : Except PyError (List (List Char × Json.Document)) :=
  match decodeUtf8 metadata with
  | none => .error .unicodeDecodeError
  | some text =>
      match Json.loads text with
      | none => .error (.valueError "JSONDecodeError")
      | some (.object members) => .ok members
      | some _ => .error .attributeError

/-- `meta.get(name)`: the last of several members with one name wins. -/
def getMember (members : List (List Char × Json.Document)) (name : String) : Option Json.Document :=
  members.reverse.lookup name.toList

def isText (found : Option Json.Document) (text : String) : Bool :=
  match found with
  | some (.scalar (.text value)) => value = text.toList
  | _ => false

/-- What an error says about a member. A number stands as it is written, a list or a dictionary by its
kind only. -/
def memberDetail (found : Option Json.Document) : Detail :=
  match found with
  | none => .none
  | some (.scalar .null) => .none
  | some (.scalar (.bool value)) => .text (if value then "True" else "False")
  | some (.scalar (.number token)) => .text (String.ofList token)
  | some (.scalar (.text value)) => .text (String.ofList value)
  | some (.array _) => .text "list"
  | some (.object _) => .text "dict"

def detailText : Detail → String
  | .none => "None"
  | .int value => toString value
  | .text value => value

/-- `bars[:max_bars]`: a negative number counts from the end. -/
def firstBars (maxBars : Int) (bars : List (Bar F)) : List (Bar F) :=
  if 0 ≤ maxBars then bars.take maxBars.toNat else bars.take (bars.length - maxBars.natAbs)

def selectBars (start stop maxBars : Option Int) (bars : List (Bar F)) : List (Bar F) :=
  let out := bars.filter fun bar => start.all (· ≤ bar.time) && stop.all (bar.time < ·)
  match maxBars with
  | none => out
  | some count => firstBars count out

variable [Sha256]

/-- The part of the read behind the two files. -/
def readSegment (data metadata : List UInt8) (start stop maxBars : Option Int) :
    Except PyError (List (Bar F)) := do
  let bars ← storedBars F data
  validateBars bars
  let members ← loadMetadata metadata
  let version := getMember members "runtime_contract_version"
  if isText version runtimeContractVersion = false then
    .error (.mdInvalidExchangeResponse
      ("Unsupported cache runtime_contract_version: " ++ detailText (memberDetail version)) [])
  else do
    let actual ← barsChecksum bars
    let expected := getMember members "checksum"
    if isText expected actual = false then
      .error (.mdInvalidExchangeResponse "Cache checksum mismatch"
        [("expected", memberDetail expected), ("actual", .text actual)])
    else return selectBars start stop maxBars bars

def readCacheSegment (root : String) (key : CacheKey) (start stop maxBars : Option Int) (files : Files) :
    Except PyError (List (Bar F)) := do
  let seg ← cacheSegmentDir root key
  match files (barsPath seg), files (metadataPath seg) with
  | some data, some metadata => readSegment data metadata start stop maxBars
  | _, _ => .error (.mdUnsupportedFeature ("Cache segment not found: " ++ "/".intercalate seg))

end Read

end MarketdataProvider.LocalCache
