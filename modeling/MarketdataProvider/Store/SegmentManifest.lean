import MarketdataProvider.Store.SegmentChecksums

namespace MarketdataProvider

inductive SegmentFormat where
  | csv
  | parquet
  deriving DecidableEq, Repr

/-- The identity of one physical series; the transport is not part of it. -/
structure SeriesKey where
  exchange : String
  market : String
  symbol : String
  timeframe : String
  sourceKind : String
  deriving DecidableEq, Repr

/-- The manifest fields that have no default. -/
structure ManifestHeader where
  runtimeContractVersion : String
  schemaVersion : String
  exchange : String
  market : String
  symbol : String
  timeframe : String
  sourceTransport : String
  sourceKind : String
  rowsCount : Int
  startTime : Option Int
  endTime : Option Int
  checksum : String
  deriving DecidableEq, Repr

def ManifestHeader.key (header : ManifestHeader) : SeriesKey :=
  ⟨header.exchange, header.market, header.symbol, header.timeframe, header.sourceKind⟩

structure SegmentManifest extends ManifestHeader where
  dataFormat : SegmentFormat := .csv
  checksumAlgorithm : String := canonicalChecksum
  baseChecksum : Option String := none
  baseRowsCount : Option Int := none
  deriving DecidableEq, Repr

/-- The JSON object of `manifest.json`: a field with a default can be absent, or null. -/
structure RawManifest extends ManifestHeader where
  dataFormat : Option SegmentFormat
  checksumAlgorithm : Option String
  baseChecksum : Option (Option String)
  baseRowsCount : Option (Option Int)
  deriving DecidableEq, Repr

/-- `SegmentManifest(**payload)` fills every absent field with its default. -/
def RawManifest.toManifest (raw : RawManifest) : SegmentManifest where
  toManifestHeader := raw.toManifestHeader
  dataFormat := raw.dataFormat.getD .csv
  checksumAlgorithm := raw.checksumAlgorithm.getD canonicalChecksum
  baseChecksum := raw.baseChecksum.getD none
  baseRowsCount := raw.baseRowsCount.getD none

/-- `asdict(manifest)` writes every field. -/
def SegmentManifest.asdict (manifest : SegmentManifest) : RawManifest where
  toManifestHeader := manifest.toManifestHeader
  dataFormat := some manifest.dataFormat
  checksumAlgorithm := some manifest.checksumAlgorithm
  baseChecksum := some manifest.baseChecksum
  baseRowsCount := some manifest.baseRowsCount

@[simp] theorem toManifest_asdict (manifest : SegmentManifest) : manifest.asdict.toManifest = manifest :=
  rfl

theorem asdict_injective : Function.Injective SegmentManifest.asdict := by
  intro left right same
  rw [← toManifest_asdict left, same, toManifest_asdict]

@[simp] theorem asdict_inj {left right : SegmentManifest} : left.asdict = right.asdict ↔ left = right :=
  asdict_injective.eq_iff

section Paths

variable [PyText]

def safeCharacter (character : Char) : Bool :=
  ('A' ≤ character && character ≤ 'Z') || ('0' ≤ character && character ≤ '9') ||
    character = '.' || character = '_' || character = '-'

/-- `re.sub(r"[^A-Z0-9._-]+", "_", text)`: a run of other characters becomes one underscore. -/
def collapseUnsafe : Bool → List Char → List Char
  | _, [] => []
  | inRun, character :: rest =>
      if safeCharacter character then character :: collapseUnsafe false rest
      else if inRun then collapseUnsafe true rest
      else '_' :: collapseUnsafe true rest

def safePathPart (value : String) : String :=
  let upper := (PyText.upper (String.ofList (strip value.toList))).toList
  let edge (character : Char) : Bool := character = '.' || character = '_'
  let sanitized :=
    (((collapseUnsafe false upper).dropWhile edge).reverse.dropWhile edge).reverse
  if sanitized = [] then "UNKNOWN" else String.ofList sanitized

/-- The directory of a series below the store root. -/
def seriesDirectory (key : SeriesKey) : Except PyError (List String) := do
  let timeframe ← canonicalTimeframe key.timeframe
  return ["v1", "exchange=" ++ PyText.lower (safePathPart key.exchange),
    "market=" ++ PyText.lower (safePathPart key.market), "symbol=" ++ safePathPart key.symbol,
    "source=" ++ PyText.lower (safePathPart key.sourceKind), "timeframe=" ++ timeframe]

end Paths

end MarketdataProvider
