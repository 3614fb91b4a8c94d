import MarketdataProvider.Store.SegmentAppend
import MarketdataProvider.Store.SegmentReplace

namespace MarketdataProvider

open Foundation Foundation.Crash

variable [PyText]

/-- The ways in which a pending journal is recovered: opening the store, or locking the series. -/
inductive RecoveryEntry where
  | constructor
  | seriesLock
  deriving DecidableEq, Repr

def recoverPendingAppend : StoreProg Unit := do
  let state ← Prog.read
  if state.appendJournal.isSome then recoverAppendJournal else pure ()

/-- The constructor recovers appends first, the writer lock and the reader lock replacements. -/
def recoverSeries : RecoveryEntry → StoreProg Unit
  | .constructor => do
      recoverPendingAppend
      recoverPendingReplacement
  | .seriesLock => do
      recoverPendingReplacement
      recoverPendingAppend

section Recovery

variable {invariant final : SeriesState → Prop} {state : SeriesState}

omit [PyText] in
theorem recoverPendingAppend_guarded (holds : invariant state)
    (settled : state.appendJournal = none → final state)
    (recovered : state.appendJournal.isSome →
      Prog.Guarded invariant (fun _ => final) recoverAppendJournal state) :
    Prog.Guarded invariant (fun _ => final) recoverPendingAppend state := by
  refine .read holds ?_
  cases pending : state.appendJournal with
  | none => exact .done holds (settled pending)
  | some journal => exact recovered (by rw [pending]; rfl)

theorem recoverPendingReplacement_guarded (holds : invariant state)
    (settled : state.replaceJournal = none → final state)
    (recovered : state.replaceJournal.isSome →
      Prog.Guarded invariant (fun _ => final) recoverReplacementJournal state) :
    Prog.Guarded invariant (fun _ => final) recoverPendingReplacement state := by
  refine .read holds ?_
  cases pending : state.replaceJournal with
  | none => exact .done holds (settled pending)
  | some journal => exact recovered (by rw [pending]; rfl)

/-- Without a replacement journal both entries recover the append alone. -/
theorem recoverSeries_append_guarded (holds : invariant state)
    (single : ∀ state, invariant state → state.replaceJournal = none)
    (settled : state.appendJournal = none → final state)
    (recovered : state.appendJournal.isSome →
      Prog.Guarded invariant (fun _ => final) recoverAppendJournal state) (entry : RecoveryEntry) :
    Prog.Guarded invariant (fun _ => final) (recoverSeries entry) state := by
  have append := recoverPendingAppend_guarded holds settled recovered
  cases entry with
  | constructor =>
      refine .bind append.keeps fun _ after reached => ?_
      refine recoverPendingReplacement_guarded reached.1 (fun _ => reached.2) fun pending => ?_
      simp [single after reached.1] at pending
  | seriesLock =>
      have looked : Prog.Guarded invariant (fun _ => (· = state)) recoverPendingReplacement state :=
        recoverPendingReplacement_guarded holds (fun _ => rfl) fun pending => by
          simp [single state holds] at pending
      refine .bind looked fun _ after same => ?_
      subst same
      exact append

/-- Without an append journal both entries recover the replacement alone. -/
theorem recoverSeries_replacement_guarded (holds : invariant state)
    (single : ∀ state, invariant state → state.appendJournal = none)
    (settled : state.replaceJournal = none → final state)
    (recovered : state.replaceJournal.isSome →
      Prog.Guarded invariant (fun _ => final) recoverReplacementJournal state)
    (entry : RecoveryEntry) :
    Prog.Guarded invariant (fun _ => final) (recoverSeries entry) state := by
  have replacement := recoverPendingReplacement_guarded holds settled recovered
  cases entry with
  | constructor =>
      have looked : Prog.Guarded invariant (fun _ => (· = state)) recoverPendingAppend state :=
        recoverPendingAppend_guarded holds (fun _ => rfl) fun pending => by
          simp [single state holds] at pending
      refine .bind looked fun _ after same => ?_
      subst same
      exact replacement
  | seriesLock =>
      refine .bind replacement.keeps fun _ after reached => ?_
      refine recoverPendingAppend_guarded reached.1 (fun _ => reached.2) fun pending => ?_
      simp [single after reached.1] at pending

/-- A quiescent series is only looked at. -/
theorem recoverSeries_quiet (state : SeriesState) (append : state.appendJournal = none)
    (replace : state.replaceJournal = none) (entry : RecoveryEntry) :
    Prog.Guarded (· = state) (fun _ => (· = state)) (recoverSeries entry) state := by
  apply recoverSeries_append_guarded
  · rfl
  · rintro _ rfl
    exact replace
  · intro _
    rfl
  · intro pending
    simp [append] at pending

end Recovery

section Write

variable {F : Type} [PyFloat F]

omit [PyText] in
def segmentBytes [Parquet] (format : SegmentFormat) (bars : List (MarketBar F)) :
    Except PyError (List UInt8) :=
  match format with
  | .csv => .ok (csvFile bars)
  | .parquet =>
      match Parquet.writeTable (bars.map persistedRow) with
      | none => .error .arrowInvalid
      | some bytes => .ok bytes

def SegmentFormat.schemaVersion : SegmentFormat → String
  | .csv => "stage-d-csv-3"
  | .parquet => "stage-d-parquet-3"

/-- The manifest of a full generation: for CSV its checksum is also the base of the tail chain. -/
def generationManifest (key : SeriesKey) (format : SegmentFormat) (bars : List (MarketBar F))
    (checksum : String) : SegmentManifest where
  runtimeContractVersion := runtimeContractVersion
  schemaVersion := format.schemaVersion
  exchange := key.exchange
  market := key.market
  symbol := key.symbol
  timeframe := key.timeframe
  sourceTransport := (bars.head?.map MarketBar.sourceTransport).getD "ws"
  sourceKind := key.sourceKind
  rowsCount := bars.length
  startTime := bars.head?.map fun bar => bar.time
  endTime := bars.getLast?.map fun bar => bar.time
  checksum
  dataFormat := format
  checksumAlgorithm := if format = .csv then tailChainChecksum else canonicalChecksum
  baseChecksum := if format = .csv then some checksum else none
  baseRowsCount := if format = .csv then some bars.length else none

omit [PyText] [PyFloat F] in
def generationDownloadedAt (bars : List (MarketBar F)) : Int :=
  match bars with
  | [] => 0
  | first :: rest => maxDownloadedAt first rest

/-- `validate_bars([bar.to_bar() for bar in bars])` -/
def validateMarketBars (bars : List (MarketBar F)) : Except PyError Unit :=
  validateBars (bars.map MarketBar.toBar)

variable [Sha256] [Parquet]

/-- What a full replacement knows before it touches the series. -/
structure ReplacePlan where
  manifest : SegmentManifest
  content : Except PyError (List UInt8)
  downloadedAt : Int

def runPlan (store : SegmentStore) (plan : Except PyError ReplacePlan) : StoreProg SegmentManifest := do
  let plan ← Prog.ofExcept plan
  commitReplacement store plan.manifest plan.content plan.downloadedAt

/-- The checks and the manifest of `_replace_all_locked`, over the sorted bars. -/
def generationPlan (pyarrow : Bool) (format : SegmentFormat) (bars : List (MarketBar F))
    (key : SeriesKey) : Except PyError ReplacePlan :=
  if format = .parquet ∧ pyarrow = false then
    .error (.mdUnsupportedFeature "Parquet segment format requires optional dependency pyarrow")
  else do
    validateMarketBars bars
    let normalized ← normalizedKey key
    let checksum ← barsChecksum bars
    return {
      manifest := generationManifest normalized format bars checksum
      content := segmentBytes format bars
      downloadedAt := generationDownloadedAt bars }

def replaceAllPlan (store : SegmentStore) (bars : List (MarketBar F)) (key : SeriesKey)
    (dataFormat : Option SegmentFormat) : Except PyError ReplacePlan :=
  generationPlan store.pyarrow (dataFormat.getD store.dataFormat) (sortByTime bars) key

/-- `_replace_all_locked`; the caller holds the writer lock. -/
def replaceAllLocked (store : SegmentStore) (bars : List (MarketBar F)) (key : SeriesKey)
    (dataFormat : Option SegmentFormat) : StoreProg SegmentManifest :=
  runPlan store (replaceAllPlan store bars key dataFormat)

def replaceAll (store : SegmentStore) (bars : List (MarketBar F)) (key : SeriesKey)
    (dataFormat : Option SegmentFormat) : StoreProg SegmentManifest := do
  recoverSeries .seriesLock
  replaceAllLocked store bars key dataFormat

/-- The streaming writer checks and digests bar by bar, in the order in which they come. -/
def streamBars : Option Int → List (MarketBar F) → Except PyError (List UInt8)
  | _, [] => .ok []
  | previous, bar :: rest => do
      if previous.any (bar.time ≤ ·) then
        .error (.mdInvalidExchangeResponse "Segment stream must be strictly ordered by time" [])
      else do
        validateBars [bar.toBar]
        let update ← updateChecksum .v4 bar
        let later ← streamBars (some bar.time) rest
        return update ++ later

/-- The temporary file of the streaming writer is complete before the protocol starts. -/
def replaceAllStreamPlan (bars : List (MarketBar F)) (key : SeriesKey) : Except PyError ReplacePlan := do
  let normalized ← normalizedKey key
  let digest ← streamBars none bars
  return {
    manifest := generationManifest normalized .csv bars (hexDigest digest)
    content := .ok (csvFile bars)
    downloadedAt := bars.foldl (fun greatest bar => max greatest (bar.downloadedAt.getD 0)) 0 }

def replaceAllStream (store : SegmentStore) (bars : List (MarketBar F)) (key : SeriesKey) :
    StoreProg SegmentManifest := do
  recoverSeries .seriesLock
  runPlan store (replaceAllStreamPlan bars key)

/-- A plan was made from ordered, well-formed bars, and its checksum is theirs. -/
theorem generationPlan_ok {pyarrow : Bool} {format : SegmentFormat} {bars : List (MarketBar F)}
    {key : SeriesKey} {plan : ReplacePlan} (planned : generationPlan pyarrow format bars key = .ok plan) :
    validateMarketBars bars = .ok () ∧ ∃ normalized checksum, normalizedKey key = .ok normalized ∧
      barsChecksum bars = .ok checksum ∧
      plan = ⟨generationManifest normalized format bars checksum, segmentBytes format bars,
        generationDownloadedAt bars⟩ := by
  unfold generationPlan at planned
  split at planned
  · cases planned
  · simp only [bind_eq_ok, pure_eq_ok] at planned
    obtain ⟨⟨⟩, valid, normalized, named, checksum, digested, rfl⟩ := planned
    exact ⟨valid, normalized, checksum, named, digested, rfl⟩

omit [Parquet] in
theorem replaceAllStreamPlan_ok {bars : List (MarketBar F)} {key : SeriesKey} {plan : ReplacePlan}
    (planned : replaceAllStreamPlan bars key = .ok plan) :
    ∃ normalized digest, normalizedKey key = .ok normalized ∧ streamBars none bars = .ok digest ∧
      plan.manifest = generationManifest normalized .csv bars (hexDigest digest) ∧
      plan.content = .ok (csvFile bars) := by
  simp only [replaceAllStreamPlan, bind_eq_ok, pure_eq_ok] at planned
  obtain ⟨normalized, named, digest, digested, rfl⟩ := planned
  exact ⟨normalized, digest, named, digested, rfl, rfl⟩

/-- `append_strictly_newer` under the writer lock. -/
def appendStrictlyNewerLocked (store : SegmentStore) (bars : List (MarketBar F)) (key : SeriesKey) :
    StoreProg SegmentManifest := do
  let state ← Prog.read
  match ← Prog.ofExcept (appendPlan state key bars) with
  | .keep manifest => return manifest
  | .replaceAll incoming => replaceAllLocked store incoming key (some .csv)
  | .commit journal payload => commitAppend journal payload

/-- `append_strictly_newer` -/
def appendStrictlyNewer (store : SegmentStore) (bars : List (MarketBar F)) (key : SeriesKey) :
    StoreProg SegmentManifest := do
  recoverSeries .seriesLock
  appendStrictlyNewerLocked store bars key

end Write

section Read

variable {F : Type} [PyFloat F] [Parquet]

/-- `_read_parquet` turns each cell into text before it builds the bar. -/
def readParquet (F : Type) [PyFloat F] (pyarrow : Bool) (bytes : List UInt8) :
    Except PyError (List (MarketBar F)) :=
  if pyarrow = false then
    .error (.mdUnsupportedFeature "Reading Parquet segments requires optional dependency pyarrow")
  else
    match Parquet.readTable bytes with
    | none => .error .arrowInvalid
    | some rows => rows.mapM fun row => rowToBar (row.map fun cell => (cell.1, some cell.2))

variable [Sha256]

/-- `_parquet_checksum`: a manifest without an algorithm is v1 only under the first schema. -/
def parquetChecksum (bars : List (MarketBar F)) (manifest : RawManifest) : Except PyError String := do
  bars.forM validatePersistedBarSemantics
  let name := manifest.checksumAlgorithm.getD
    (if manifest.schemaVersion = "stage-d-parquet-1" then legacyCanonicalChecksum
      else canonicalChecksum)
  match ChecksumAlgorithm.ofName name with
  | none =>
      .error (.mdInvalidExchangeResponse "Unsupported Parquet checksum algorithm"
        [("algorithm", .text name)])
  | some algorithm => versionedBarsChecksum algorithm.version bars

def validateManifestContract (manifest : RawManifest) : Except PyError Unit :=
  if manifest.runtimeContractVersion = runtimeContractVersion then .ok ()
  else .error (.mdInvalidExchangeResponse "Unsupported segment runtime contract" [])

/-- `validate_or_trust_csv_generation` -/
def validateOrTrustCsvGeneration (F : Type) [PyFloat F] (manifest : RawManifest)
    (bytes : List UInt8) : StoreProg Unit := do
  let state ← Prog.read
  if integrityGenerationIsCurrent state manifest then return ()
  else do
    Prog.ofExcept (validateCsvChecksum F bytes manifest)
    publishIntegrityGeneration manifest.toManifest

/-- The whole-series read under the lock, without a time range. -/
def readAllLocked (F : Type) [PyFloat F] (store : SegmentStore) :
    StoreProg (List (MarketBar F)) := do
  let state ← Prog.read
  match state.manifest with
  | none =>
      if (state.data (.bars .csv)).isSome ∨ (state.data (.bars .parquet)).isSome then
        Prog.fail (.mdInvalidExchangeResponse "Segment manifest is missing for persisted data" [])
      else return []
  | some manifest => do
      Prog.ofExcept (validateManifestContract manifest)
      let format := manifest.dataFormat.getD store.dataFormat
      if (state.data (.bars (otherFormat format))).isSome then
        Prog.fail
          (.mdInvalidExchangeResponse "Persisted data exists in the other segment format" [])
      else
        match state.data (.bars format), format with
        | none, _ => return []
        | some bytes, .csv => do
            validateOrTrustCsvGeneration F manifest bytes
            let bars ← Prog.ofExcept (readCsv F bytes)
            Prog.ofExcept (validateMarketBars bars)
            return bars
        | some bytes, .parquet => do
            let bars ← Prog.ofExcept (readParquet F store.pyarrow bytes)
            Prog.ofExcept (validateMarketBars bars)
            let actual ← Prog.ofExcept (parquetChecksum bars manifest)
            if actual = manifest.checksum then return bars
            else Prog.fail (checksumMismatch manifest.checksum actual)

/-- The reader lock recovers a pending journal before the read. -/
def readAll (F : Type) [PyFloat F] (store : SegmentStore) : StoreProg (List (MarketBar F)) := do
  recoverSeries .seriesLock
  readAllLocked F store

/-- `compact_segment` rewrites the series from what it reads. -/
def compactSegment (F : Type) [PyFloat F] (store : SegmentStore) (key : SeriesKey)
    (dataFormat : Option SegmentFormat) : StoreProg SegmentManifest := do
  recoverSeries .seriesLock
  let bars ← readAllLocked F store
  replaceAllLocked store bars key dataFormat

/-- `by_time[bar.time] = bar` keeps the place of a bar that is already there. -/
def insertByTime (existing : List (MarketBar F)) (bar : MarketBar F) : List (MarketBar F) :=
  if existing.any (·.time = bar.time) then
    existing.map fun item => if item.time = bar.time then bar else item
  else existing ++ [bar]

def checkClosedConflict (existing : List (MarketBar F)) (bar : MarketBar F) : Except PyError Unit :=
  match existing.find? (·.time = bar.time) with
  | none => .ok ()
  | some current => do
      let stored ← marketBarChecksum current
      let incoming ← marketBarChecksum bar
      if stored = incoming then .ok ()
      else .error (.mdCacheConflict "Conflicting closed candle"
        [("diagnostic", .text "MD_CACHE_CONFLICT"), ("time", .int bar.time)])

/-- `_upsert_closed_locked` -/
def upsertClosedLocked (store : SegmentStore) (bar : MarketBar F) : StoreProg SegmentManifest := do
  let existing ← readAllLocked F store
  Prog.ofExcept (checkClosedConflict existing bar)
  replaceAllLocked store (insertByTime existing bar) bar.key none

def upsertClosed (store : SegmentStore) (bar : MarketBar F) : StoreProg SegmentManifest := do
  recoverSeries .seriesLock
  upsertClosedLocked store bar

end Read

end MarketdataProvider
