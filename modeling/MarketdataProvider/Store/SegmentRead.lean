import Mathlib.Algebra.Group.Int.Defs
import Mathlib.Algebra.Group.Nat.Defs
import MarketdataProvider.Store.SegmentStore

namespace MarketdataProvider

open Foundation Foundation.Crash

section Text

/-- `handle.readline()` of a text without newline translation. -/
def takeLine : List Char → List Char
  | [] => []
  | character :: rest =>
      if character = '\n' then ['\n']
      else if character = '\r' then if rest.head? = some '\n' then ['\r', '\n'] else ['\r']
      else character :: takeLine rest

/-- The line at a byte position and the position after it.
A position inside a character cannot be decoded. -/
def readLineAt (bytes : List UInt8) (position : Nat) : Except PyError (List Char × Nat) := do
  let line := takeLine (← decodeText (bytes.drop position))
  return (line, position + (encodeUtf8 line).length)

/-- `handle.tell()`: the decoder can hold back a carriage return at some positions, and packs that
state above the position. -/
def tell (pending : Nat → Bool) (position : Nat) : Nat :=
  if pending position then position + 2 ^ 64 else position

/-- `line.split(",", 1)[0]` -/
def firstCell (line : List Char) : List Char := line.takeWhile (· ≠ ',')

end Text

section Seek

variable [PyText]

/-- What a step of the bisection finds: nothing, a line without a time, or the time of a line. -/
inductive Probe where
  | past
  | text
  | row (time : Int) (position next : Nat)

omit [PyText] in
/-- Behind the header the rest of the line into which a probe falls is read first. -/
def candidateAt (bytes : List UInt8) (headerEnd mid : Nat) : Except PyError Nat :=
  if headerEnd < mid then Prod.snd <$> readLineAt bytes mid else .ok mid

def probeLine (pending : Nat → Bool) (candidate : Nat) (line : List Char) (next : Nat) : Probe :=
  if line = [] then .past
  else
    match pyInt (firstCell line) with
    | none => .text
    | some time => .row time candidate (tell pending next)

def probeAt (pending : Nat → Bool) (bytes : List UInt8) (headerEnd mid : Nat) :
    Except PyError Probe := do
  let candidate ← candidateAt bytes headerEnd mid
  let line ← readLineAt bytes candidate
  return probeLine pending candidate line.1 line.2

def bisect (pending : Nat → Bool) (bytes : List UInt8) (headerEnd : Nat) (start : Int) :
    Nat → Nat → Nat → Nat → Except PyError Nat
  | 0, _, _, best => .ok best
  | fuel + 1, low, high, best =>
      if high ≤ low then .ok best
      else do
        let mid := (low + high) / 2
        match ← probeAt pending bytes headerEnd mid with
        | .past => bisect pending bytes headerEnd start fuel low (max headerEnd (mid - 1)) best
        | .text => .ok headerEnd
        | .row time position next =>
            if time ≤ start then bisect pending bytes headerEnd start fuel next high position
            else bisect pending bytes headerEnd start fuel low (max headerEnd (mid - 1)) best

/-- The manifest and the start can make the search pointless. -/
def searched (raw : RawManifest) (size headerEnd : Nat) (start : Int) : Bool :=
  match raw.startTime, timeframeMs raw.timeframe with
  | some startTime, .ok duration =>
      0 < raw.rowsCount && 0 < duration && startTime < start && headerEnd < size
  | _, _ => false

def seekCsvNearStart (pending : Nat → Bool) (bytes : List UInt8) (headerEnd : Nat) (raw : RawManifest)
    (start : Int) : Except PyError Nat :=
  if searched raw bytes.length headerEnd start then
    bisect pending bytes headerEnd start 24 headerEnd (bytes.length - 1) headerEnd
  else .ok headerEnd

variable {F : Type} [PyFloat F]

/-- The rows are parsed one by one until the first one at the end of the range. -/
def rangeRows (start stop : Option Int) (failure : Except PyError Unit) :
    List CsvRow → Except PyError (List (MarketBar F))
  | [] => (fun _ => []) <$> failure
  | row :: rest => do
      let bar : MarketBar F ← rowToBar row
      if start.any (bar.time < ·) then rangeRows start stop failure rest
      else if stop.any (· ≤ bar.time) then return []
      else (bar :: ·) <$> rangeRows start stop failure rest

/-- Without a start or a manifest the rows are read from the first one on. -/
def rangePosition (pending : Nat → Bool) (bytes : List UInt8) (headerEnd : Nat) (start : Option Int)
    (manifest : Option RawManifest) : Except PyError Nat :=
  match start, manifest with
  | some start, some raw => seekCsvNearStart pending bytes headerEnd raw start
  | _, _ => .ok headerEnd

def iterCsvRange (F : Type) [PyFloat F] (pending : Nat → Bool) (bytes : List UInt8)
    (start stop : Option Int) (manifest : Option RawManifest) : Except PyError (List (MarketBar F)) := do
  let header ← readLineAt bytes 0
  let fieldnames ← csvLine header.1
  let position ← rangePosition pending bytes header.2 start manifest
  let stream ← csvStream (bytes.drop position)
  rangeRows start stop (endOfStream stream)
    ((stream.records.filter (· ≠ [])).map (dictRow fieldnames))

def inRange (start stop : Option Int) (bar : MarketBar F) : Bool :=
  start.all (· ≤ bar.time) && stop.all (bar.time < ·)

end Seek

section Programs

variable [PyText] {F : Type} [PyFloat F] [Sha256] [Parquet]

/-- `read_all` with a time range: a CSV range is streamed, any other read is filtered. -/
def readRangeLocked (F : Type) [PyFloat F] (pending : Nat → Bool) (store : SegmentStore)
    (start stop : Option Int) : StoreProg (List (MarketBar F)) := do
  let state ← Prog.read
  match state.manifest with
  | none =>
      if (state.data (.bars .csv)).isSome ∨ (state.data (.bars .parquet)).isSome then
        Prog.fail (.mdInvalidExchangeResponse "Segment manifest is missing for persisted data" [])
      else return []
  | some manifest => do
      Prog.ofExcept (validateManifestContract manifest)
      let format := manifest.dataFormat.getD store.dataFormat
      if (state.data (.bars (otherFormat format))).isSome then
        Prog.fail
          (.mdInvalidExchangeResponse "Persisted data exists in the other segment format" [])
      else
        match state.data (.bars format), format with
        | none, _ => return []
        | some bytes, .csv => do
            validateOrTrustCsvGeneration F manifest bytes
            if start.isSome ∨ stop.isSome then
              let bars ← Prog.ofExcept (iterCsvRange F pending bytes start stop (some manifest))
              Prog.ofExcept (validateMarketBars bars)
              return bars
            else
              let bars ← Prog.ofExcept (readCsv F bytes)
              Prog.ofExcept (validateMarketBars bars)
              return bars.filter (inRange start stop)
        | some bytes, .parquet => do
            let bars ← Prog.ofExcept (readParquet F store.pyarrow bytes)
            Prog.ofExcept (validateMarketBars bars)
            let actual ← Prog.ofExcept (parquetChecksum bars manifest)
            if actual = manifest.checksum then return bars.filter (inRange start stop)
            else Prog.fail (checksumMismatch manifest.checksum actual)

/-- `read_all` under the reader lock, which recovers a pending journal first. -/
def readRange (F : Type) [PyFloat F] (pending : Nat → Bool) (store : SegmentStore)
    (start stop : Option Int) : StoreProg (List (MarketBar F)) := do
  recoverSeries .seriesLock
  readRangeLocked F pending store start stop

/-- `iter_all` streams a CSV range without the check of the bars. -/
def iterAllLocked (F : Type) [PyFloat F] (pending : Nat → Bool) (store : SegmentStore)
    (start stop : Option Int) : StoreProg (List (MarketBar F)) := do
  let state ← Prog.read
  match state.manifest with
  | none =>
      if (state.data (.bars .csv)).isSome ∨ (state.data (.bars .parquet)).isSome then
        Prog.fail (.mdInvalidExchangeResponse "Segment manifest is missing for persisted data" [])
      else return []
  | some manifest => do
      Prog.ofExcept (validateManifestContract manifest)
      let format := manifest.dataFormat.getD store.dataFormat
      if (state.data (.bars (otherFormat format))).isSome then
        Prog.fail
          (.mdInvalidExchangeResponse "Persisted data exists in the other segment format" [])
      else
        match state.data (.bars format), format with
        | none, _ => return []
        | some _, .parquet => readRangeLocked F pending store start stop
        | some bytes, .csv => do
            validateOrTrustCsvGeneration F manifest bytes
            Prog.ofExcept (iterCsvRange F pending bytes start stop (some manifest))

/-- `get` reads the range of one millisecond. -/
def getLocked (F : Type) [PyFloat F] (pending : Nat → Bool) (store : SegmentStore) (openTime : Int) :
    StoreProg (Option (MarketBar F)) := do
  let bars ← readRangeLocked F pending store (some openTime) (some (openTime + 1))
  return bars.find? (·.time = openTime)

end Programs

end MarketdataProvider
