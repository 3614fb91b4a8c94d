import MarketdataProvider.Store.SegmentTree

namespace MarketdataProvider

/-- `json.dumps` with sorted keys and `json.loads`, for the payloads of an exchange. -/
class RawJson (Payload : Type) where
  dumps : Payload → String
  loads : String → Except PyError Payload

/-- The optional `zstandard` package. -/
class Zstandard where
  compress : List UInt8 → List UInt8
  decompress : List UInt8 → Except PyError (List UInt8)

inductive Compression where
  | plain
  | zstd
  deriving DecidableEq, Repr

/-- The identity of a raw batch; a root batch has no partition. -/
structure RawKey where
  exchange : String
  market : String
  symbol : String
  sourceTransport : String
  sourceKind : String
  partition : Option String
  deriving DecidableEq, Repr

structure RawBatchManifest where
  schemaVersion : String
  exchange : String
  market : String
  symbol : String
  sourceTransport : String
  sourceKind : String
  compression : Compression
  rowsCount : Nat
  checksum : String
  fileName : String
  deriving DecidableEq, Repr

structure RawDirectory where
  manifest : Option RawBatchManifest
  files : String → Option (List UInt8)

/-- The directories below one root; only the listed ones exist. -/
structure RawTree where
  places : List (List String)
  directory : List String → RawDirectory

def RawTree.empty : RawTree := ⟨[], fun _ => ⟨none, fun _ => none⟩⟩

section Text

/-- The characters at which `str.splitlines` ends a line. -/
def isLineBreak (character : Char) : Bool :=
  character.toNat ∈ [10, 11, 12, 13, 28, 29, 30, 133, 8232, 8233]

/-- `text.splitlines()`; the line read so far comes in reverse. -/
def splitLines (line : List Char) : List Char → List (List Char)
  | [] => if line = [] then [] else [line.reverse]
  | '\r' :: '\n' :: rest => line.reverse :: splitLines [] rest
  | character :: rest =>
      if isLineBreak character then line.reverse :: splitLines [] rest
      else splitLines (character :: line) rest

end Text

section Store

variable [PyText]

/-- The directory of a raw series without its partitions. -/
def rawRoot (key : RawKey) : List String :=
  ["raw-v1", "exchange=" ++ PyText.lower (safePathPart key.exchange),
    "market=" ++ PyText.lower (safePathPart key.market), "symbol=" ++ safePathPart key.symbol,
    "transport=" ++ PyText.lower (safePathPart key.sourceTransport),
    "source=" ++ PyText.lower (safePathPart key.sourceKind)]

/-- An empty partition is no partition. -/
def RawKey.namedPartition (key : RawKey) : Option String := key.partition.filter (· ≠ "")

/-- `RawStore._dir` -/
def rawDirectory (key : RawKey) : List String :=
  rawRoot key ++ (key.namedPartition.map fun name => "partition=" ++ safePathPart name).toList

variable {Payload : Type} [RawJson Payload] [Zstandard] [Sha256]

omit [PyText] in
def rawBody (payloads : List Payload) : List UInt8 :=
  encodeUtf8 (payloads.flatMap fun payload => (RawJson.dumps payload).toList ++ ['\n'])

def Compression.suffix : Compression → String
  | .plain => ".ndjson"
  | .zstd => ".ndjson.zst"

def Compression.pack (compression : Compression) (body : List UInt8) : List UInt8 :=
  match compression with
  | .plain => body
  | .zstd => Zstandard.compress body

def Compression.unpack (compression : Compression) (data : List UInt8) : Except PyError (List UInt8) :=
  match compression with
  | .plain => .ok data
  | .zstd => Zstandard.decompress data

def rawManifest (compression : Compression) (key : RawKey) (payloads : List Payload) : RawBatchManifest :=
  let checksum := hexDigest (rawBody payloads)
  { schemaVersion := "stage-d-raw-1"
    exchange := PyText.lower key.exchange
    market := PyText.lower key.market
    symbol := PyText.upper key.symbol
    sourceTransport := key.sourceTransport
    sourceKind := key.sourceKind
    compression
    rowsCount := payloads.length
    checksum
    fileName := "payloads-" ++ String.ofList (checksum.toList.take 16) ++ compression.suffix }

/-- `write_batch`: the data file comes first, then the manifest that names it. -/
def RawTree.writeBatch (tree : RawTree) (compression : Compression) (key : RawKey)
    (payloads : List Payload) : RawTree :=
  let place := rawDirectory key
  let manifest := rawManifest compression key payloads
  let files := Function.update (tree.directory place).files manifest.fileName
    (some (compression.pack (rawBody payloads)))
  { places := if place ∈ tree.places then tree.places else place :: tree.places
    directory := Function.update tree.directory place ⟨some manifest, files⟩ }

def rawPayloads (Payload : Type) [RawJson Payload] (text : List Char) : Except PyError (List Payload) :=
  ((splitLines [] text).filter (strip · ≠ [])).mapM fun line => RawJson.loads (String.ofList line)

/-- `read_batch` -/
def RawTree.readBatch (Payload : Type) [RawJson Payload] (tree : RawTree) (key : RawKey) :
    Except PyError (List Payload) :=
  let found := tree.directory (rawDirectory key)
  match found.manifest with
  | none => .ok []
  | some manifest =>
      match found.files manifest.fileName with
      | none => .error .fileNotFoundError
      | some data => do
          let body ← manifest.compression.unpack data
          if hexDigest body = manifest.checksum then do
            let text ← decodeText body
            rawPayloads Payload text
          else .error (.mdUnsupportedFeature "RawStore checksum mismatch")

/-- `path.parent.name.removeprefix("partition=")` for a directory right below the root. -/
def partitionName (root place : List String) : Option String :=
  match place.drop root.length with
  | [name] =>
      if place.take root.length = root ∧ "partition=".toList <+: name.toList then
        some (String.ofList (name.toList.drop "partition=".length))
      else none
  | _ => none

/-- `sorted(root.glob("partition=*/manifest.json"))` -/
def RawTree.partitions (tree : RawTree) (root : List String) : List String :=
  ((tree.places.filter fun place => (tree.directory place).manifest.isSome).filterMap
    (partitionName root)).insertionSort (· ≤ ·)

/-- `read_partitions`: the root batch comes first, then the partitions by name. -/
def RawTree.readPartitions (Payload : Type) [RawJson Payload] (tree : RawTree) (key : RawKey) :
    Except PyError (List Payload) := do
  let root ← tree.readBatch Payload { key with partition := none }
  let parts ← (tree.partitions (rawRoot key)).mapM fun name =>
    tree.readBatch Payload { key with partition := some name }
  return root ++ parts.flatten

end Store

end MarketdataProvider
