import Mathlib.Algebra.Group.Int.Defs
import Mathlib.Algebra.Group.Nat.Defs
import MarketdataProvider.Store.SegmentRows

namespace MarketdataProvider

/-- Each digest version covers more of a row than the one before. -/
inductive ChecksumVersion where
  | v1
  | v2
  | v3
  | v4
  deriving DecidableEq, Repr

/-- A canonical checksum is one digest, a tail chain extends a base digest row by row. -/
inductive ChecksumAlgorithm where
  | canonical (version : ChecksumVersion)
  | tailChain (version : ChecksumVersion)
  deriving DecidableEq, Repr

namespace ChecksumAlgorithm

def version : ChecksumAlgorithm → ChecksumVersion
  | canonical version => version
  | tailChain version => version

def name : ChecksumAlgorithm → String
  | canonical .v1 => "sha256-canonical-v1"
  | tailChain .v1 => "sha256-tail-chain-v1"
  | canonical .v2 => "sha256-canonical-v2"
  | tailChain .v2 => "sha256-tail-chain-v2"
  | canonical .v3 => "sha256-canonical-v3"
  | tailChain .v3 => "sha256-tail-chain-v3"
  | canonical .v4 => "sha256-canonical-v4"
  | tailChain .v4 => "sha256-tail-chain-v4"

def supported : List ChecksumAlgorithm :=
  [canonical .v1, tailChain .v1, canonical .v2, tailChain .v2, canonical .v3, tailChain .v3,
    canonical .v4, tailChain .v4]

def ofName (text : String) : Option ChecksumAlgorithm := supported.find? (·.name = text)

@[simp] theorem ofName_name (algorithm : ChecksumAlgorithm) : ofName algorithm.name = some algorithm := by
  rcases algorithm with (version | version) <;> cases version <;> decide

end ChecksumAlgorithm

def legacyCanonicalChecksum : String := ChecksumAlgorithm.name (.canonical .v1)

def canonicalChecksum : String := ChecksumAlgorithm.name (.canonical .v4)

def tailChainChecksum : String := ChecksumAlgorithm.name (.tailChain .v4)

/-- The most significant byte comes first. -/
def bigEndian : Nat → Nat → List UInt8
  | 0, _ => []
  | width + 1, value => UInt8.ofNat (value / 256 ^ width) :: bigEndian width (value % 256 ^ width)

theorem length_bigEndian (width value : Nat) : (bigEndian width value).length = width := by
  induction width generalizing value with
  | zero => rfl
  | succ width ih => simp [bigEndian, ih]

/-- `struct.pack(">q", value)` -/
def packInt (value : Int) : Except PyError (List UInt8) :=
  if -(2 ^ 63) ≤ value ∧ value < 2 ^ 63 then .ok (bigEndian 8 (value % 2 ^ 64).toNat)
  else .error .structError

def packInts (values : List Int) : Except PyError (List UInt8) := List.flatten <$> values.mapM packInt

def packBools (values : List Bool) : List UInt8 := values.map fun value => if value then 1 else 0

/-- The length prefix keeps two neighbouring texts apart. -/
def updateText (value : String) : Except PyError (List UInt8) :=
  let encoded := encodeUtf8 value.toList
  if encoded.length < 2 ^ 32 then .ok (bigEndian 4 encoded.length ++ encoded) else .error .structError

def updateOptionalText (value : Option String) : Except PyError (List UInt8) :=
  match value with
  | none => .ok [0]
  | some text => (1 :: ·) <$> updateText text

section Digest

variable [PyText] {F : Type} [PyFloat F]

/-- Canonical candle values, without transport and download provenance. -/
def sameCanonicalCandle (left right : MarketBar F) : Bool :=
  left.time = right.time && left.timeClose = right.timeClose &&
    PyFloat.eq left.openPrice right.openPrice && PyFloat.eq left.high right.high &&
    PyFloat.eq left.low right.low && PyFloat.eq left.close right.close &&
    PyFloat.eq left.volume right.volume && left.exchange = right.exchange &&
    left.market = right.market && left.symbol = right.symbol && left.timeframe = right.timeframe &&
    left.sourceKind = right.sourceKind && left.isClosed = right.isClosed &&
    left.openText = right.openText && left.highText = right.highText &&
    left.lowText = right.lowText && left.closeText = right.closeText &&
    left.volumeText = right.volumeText && sameFloat left.quoteVolume right.quoteVolume &&
    sameFloat left.turnover right.turnover && left.tradesCount = right.tradesCount &&
    sameFloat left.takerBuyBaseVolume right.takerBuyBaseVolume &&
    sameFloat left.takerBuyQuoteVolume right.takerBuyQuoteVolume
where
  sameFloat (left right : Option F) : Bool :=
    match left, right with
    | none, none => true
    | some left, some right => PyFloat.eq left right
    | _, _ => false

def updateChecksumIdentity (b : MarketBar F) : Except PyError (List UInt8) := do
  let exchange ← updateText (PyText.lower b.exchange)
  let market ← updateText (PyText.lower b.market)
  let symbol ← updateText (PyText.upper b.symbol)
  let sourceKind ← updateText b.sourceKind
  let sourceTransport ← updateText b.sourceTransport
  let timeframe ← updateText (← canonicalTimeframe b.timeframe)
  return exchange ++ market ++ symbol ++ sourceKind ++ sourceTransport ++ timeframe

def updateChecksumProvenance (b : MarketBar F) : Except PyError (List UInt8) := do
  let provider ← updateText b.provider
  let providerRevision ← updateText (b.providerRevision.getD "")
  let revisionState ← updateText b.revisionState.value
  let revision ← packInt b.revision
  return provider ++ providerRevision ++ revisionState ++ revision

def updateDecimalTexts (b : MarketBar F) : Except PyError (List UInt8) := do
  let openText ← updateOptionalText b.openText
  let highText ← updateOptionalText b.highText
  let lowText ← updateOptionalText b.lowText
  let closeText ← updateOptionalText b.closeText
  let volumeText ← updateOptionalText b.volumeText
  return openText ++ highText ++ lowText ++ closeText ++ volumeText

def packFloats (values : List F) : List UInt8 := values.flatMap PyFloat.pack

def prices (b : MarketBar F) : List F := [b.openPrice, b.high, b.low, b.close, b.volume]

def optionalVolumes (b : MarketBar F) : List F :=
  [b.quoteVolume.getD PyFloat.zero, b.turnover.getD PyFloat.zero,
    b.takerBuyBaseVolume.getD PyFloat.zero, b.takerBuyQuoteVolume.getD PyFloat.zero]

/-- `struct.pack(">qqqqddddddddd????????", …)` with one presence flag for each optional value -/
def packPresenceAware (b : MarketBar F) : Except PyError (List UInt8) := do
  let times ← packInts [b.time, b.timeClose.getD 0, b.tradesCount.getD 0, b.downloadedAt.getD 0]
  return times ++ packFloats (prices b ++ optionalVolumes b) ++
    packBools [b.timeClose.isSome, b.tradesCount.isSome, b.downloadedAt.isSome, b.quoteVolume.isSome,
      b.turnover.isSome, b.takerBuyBaseVolume.isSome, b.takerBuyQuoteVolume.isSome, b.isClosed]

def updateChecksumV4 (b : MarketBar F) : Except PyError (List UInt8) := do
  let identity ← updateChecksumIdentity b
  let provenance ← updateChecksumProvenance b
  let texts ← updateDecimalTexts b
  let values ← packPresenceAware b
  return identity ++ provenance ++ texts ++ values ++ [10]

def updateChecksumV3 (b : MarketBar F) : Except PyError (List UInt8) := do
  let identity ← updateChecksumIdentity b
  let provenance ← updateChecksumProvenance b
  let values ← packPresenceAware b
  return identity ++ provenance ++ values ++ [10]

def updateChecksumV2 (b : MarketBar F) : Except PyError (List UInt8) := do
  let identity ← updateChecksumIdentity b
  let times ←
    packInts [b.time, b.timeClose.getD (-1), b.tradesCount.getD (-1), b.downloadedAt.getD (-1)]
  return identity ++ times ++ packFloats (prices b ++ optionalVolumes b) ++
    packBools [b.quoteVolume.isSome, b.turnover.isSome, b.takerBuyBaseVolume.isSome,
      b.takerBuyQuoteVolume.isSome, b.isClosed] ++ [10]

/-- The first digest has no length prefixes and leaves out the provenance. -/
def updateChecksumV1 (b : MarketBar F) : Except PyError (List UInt8) := do
  let timeframe ← canonicalTimeframe b.timeframe
  let times ← packInts [b.time, b.timeClose.getD 0, b.tradesCount.getD (-1)]
  return [PyText.lower b.exchange, PyText.lower b.market, PyText.upper b.symbol, b.sourceKind,
      b.sourceTransport, timeframe].flatMap (fun text => encodeUtf8 text.toList) ++ times ++
    packFloats (prices b ++ [b.quoteVolume.getD PyFloat.zero, b.turnover.getD PyFloat.zero]) ++
    packBools [b.isClosed] ++ [10]

def updateChecksum (version : ChecksumVersion) (b : MarketBar F) : Except PyError (List UInt8) :=
  match version with
  | .v1 => updateChecksumV1 b
  | .v2 => updateChecksumV2 b
  | .v3 => updateChecksumV3 b
  | .v4 => updateChecksumV4 b

variable [Sha256]

def hexDigest (bytes : List UInt8) : String := hexOfBytes (Sha256.digest bytes)

/-- The digest of the rows in the order of the list. -/
def rowsDigest (version : ChecksumVersion) (bars : List (MarketBar F)) : Except PyError String := do
  let rows ← bars.mapM (updateChecksum version)
  return hexDigest rows.flatten

def versionedBarsChecksum (version : ChecksumVersion) (bars : List (MarketBar F)) :
    Except PyError String := rowsDigest version (sortByTime bars)

def barsChecksum (bars : List (MarketBar F)) : Except PyError String := versionedBarsChecksum .v4 bars

def legacyBarsChecksum (bars : List (MarketBar F)) : Except PyError String :=
  versionedBarsChecksum .v1 bars

def presenceUnawareBarsChecksum (bars : List (MarketBar F)) : Except PyError String :=
  versionedBarsChecksum .v2 bars

def provenanceBarsChecksum (bars : List (MarketBar F)) : Except PyError String :=
  versionedBarsChecksum .v3 bars

def marketBarChecksum (bar : MarketBar F) : Except PyError String := barsChecksum [bar]

/-- Extend a versioned, domain-separated checksum chain. -/
def extendTailChain (version : ChecksumVersion) (checksum : String) (bar : MarketBar F) :
    Except PyError String :=
  match bytesOfHex checksum with
  | none => .error (.mdInvalidExchangeResponse "Invalid segment checksum encoding" [])
  | some previous =>
      if previous.length ≠ 32 then
        .error (.mdInvalidExchangeResponse "Invalid segment checksum length" [])
      else do
        let row ← updateChecksum version bar
        return hexDigest (encodeUtf8 (ChecksumAlgorithm.tailChain version).name.toList ++ [0] ++
          previous ++ Sha256.digest row)

def extendTailChainAll (version : ChecksumVersion) (checksum : String) (bars : List (MarketBar F)) :
    Except PyError String := bars.foldlM (extendTailChain version) checksum

omit [PyText] [PyFloat F] [Sha256] in
def negativeOptional (field : String) (value : Option Int) (time : Int) : Except PyError Unit :=
  match value with
  | none => .ok ()
  | some number =>
      if number < 0 then
        .error (.mdInvalidExchangeResponse "Persisted bar has negative optional integer"
          [("field", .text field), ("value", .int number), ("time", .int time)])
      else .ok ()

/-- Reject sentinel values that collide in legacy presence-unaware digests. -/
def validatePersistedBarSemantics (bar : MarketBar F) : Except PyError Unit := do
  negativeOptional "time_close" bar.timeClose bar.time
  negativeOptional "trades_count" bar.tradesCount bar.time
  negativeOptional "downloaded_at" bar.downloadedAt bar.time

end Digest

end MarketdataProvider
