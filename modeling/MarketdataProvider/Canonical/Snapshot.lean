import MarketdataProvider.Canonical.Bar
import MarketdataProvider.Foundation.Extents

namespace MarketdataProvider

open Foundation

section Groups

/-- `str(bar["bar_content_hash"])` -/
def CanonicalBar.hash (bar : CanonicalBar) : String := bar.barContentHash.str

structure Duplicate where
  openTimeUtcMs : Int
  revision : Int
  count : Nat
  barContentHash : FieldValue
  deriving DecidableEq

structure RevisionChain where
  openTimeUtcMs : Int
  revisions : List Int
  revisionStates : List String
  selectedRevision : Option Int
  revoked : Bool
  deriving DecidableEq

def barConflict (reason : String) (openTime : Int) : PyError :=
  .mdBarConflict s!"bar content conflict at {openTime}: {reason}"

/-- The first bar of each content hash. -/
def addUnique (unique : List CanonicalBar) (bar : CanonicalBar) : List CanonicalBar :=
  if bar.hash ∈ unique.map CanonicalBar.hash then unique else unique ++ [bar]

def hashCount (group : List CanonicalBar) (bar : CanonicalBar) : Nat :=
  group.countP fun other => other.hash = bar.hash

/-- The loop over the unique bars, behind the revisions and the bar that it has seen. -/
def checkChain (openTime : Int) : List Int → Option CanonicalBar → List CanonicalBar → Except PyError Unit
  | _, _, [] => .ok ()
  | seen, previous, bar :: rest =>
      if bar.revision ∈ seen then .error (barConflict "same revision has different content" openTime)
      else
        match previous with
        | none =>
            if bar.revisionState ≠ .original then
              .error (barConflict "revision chain is missing the preceding canonical bar" openTime)
            else checkChain openTime (bar.revision :: seen) (some bar) rest
        | some before =>
            if bar.revision ≤ before.revision then
              .error (barConflict "revision chain is not strictly increasing" openTime)
            else if before.revisionState = .revoked then
              .error (barConflict "revision follows terminal revocation" openTime)
            else if .ofOption bar.supersededBarHash ≠ before.barContentHash then
              .error (barConflict "superseded_bar_hash does not bind the immediately preceding bar" openTime)
            else checkChain openTime (bar.revision :: seen) (some bar) rest

structure Resolution where
  selected : Option CanonicalBar
  duplicates : List Duplicate
  chain : Option RevisionChain
  deriving DecidableEq

def resolveBarGroup (openTime : Int) (group : List CanonicalBar) : Except PyError Resolution := do
  let unique := group.foldl addUnique []
  let duplicates := (unique.filter fun bar => 1 < hashCount group bar).map fun bar =>
    { openTimeUtcMs := openTime, revision := bar.revision, count := hashCount group bar
      barContentHash := bar.barContentHash : Duplicate }
  refuse ((unique.map (·.provider.str)).dedup.length ≠ 1)
    (barConflict "provider changed within revision chain" openTime)
  checkChain openTime [] none unique
  match unique.getLast? with
  | none => throw .indexError
  | some selected =>
      let revoked := selected.revisionState = .revoked
      let chain : Option RevisionChain :=
        if 1 < unique.length ∨ selected.revisionState ≠ .original then
          some {
            openTimeUtcMs := openTime
            revisions := unique.map (·.revision)
            revisionStates := unique.map (·.revisionState.value)
            selectedRevision := if revoked then none else some selected.revision
            revoked }
        else none
      return { selected := if revoked then none else some selected, duplicates, chain }

end Groups

section Coverage

/-- The times of a bar, its close included. -/
def CanonicalBar.extent (bar : CanonicalBar) : Extent Int := ⟨bar.openTimeUtcMs, bar.closeTimeUtcMs + 1⟩

structure CoverageDetails where
  requestedStartUtcMs : Int
  requestedEndUtcMs : Int
  coveredStartUtcMs : Option Int
  coveredEndUtcMs : Option Int
  barCount : Nat
  gapCount : Nat
  complete : Bool
  deriving DecidableEq

/-- A gap in front of a bar, and the cursor behind it. -/
def scanBar (state : List (Extent Int) × Int) (bar : CanonicalBar) : List (Extent Int) × Int :=
  let openTime := bar.openTimeUtcMs
  let closeEnd := bar.closeTimeUtcMs + 1
  (if openTime > state.2 then state.1 ++ [⟨state.2, openTime⟩] else state.1, max state.2 closeEnd)

def coverageMetadata (bars : List CanonicalBar) (start stop : Int) : CoverageDetails × List (Extent Int) :=
  let state := bars.foldl scanBar ([], start)
  let gaps := if state.2 < stop then state.1 ++ [⟨state.2, stop⟩] else state.1
  ({ requestedStartUtcMs := start
     requestedEndUtcMs := stop
     coveredStartUtcMs := bars.head?.map (·.openTimeUtcMs)
     coveredEndUtcMs := bars.getLast?.map (·.closeTimeUtcMs + 1)
     barCount := bars.length
     gapCount := gaps.length
     complete := gaps.isEmpty }, gaps)

structure CoverageRange extends Extent Int where
  instrumentId : String
  timeframe : String
  deriving DecidableEq

def addRange (instrumentId timeframe : String) (ranges : List CoverageRange) (bar : CanonicalBar) :
    List CoverageRange :=
  let start := bar.openTimeUtcMs
  let stop := bar.closeTimeUtcMs + 1
  match ranges.getLast? with
  | none => ranges ++ [{ start, stop, instrumentId, timeframe }]
  | some last =>
      if start ≤ last.stop then ranges.dropLast ++ [{ last with stop := max last.stop stop }]
      else ranges ++ [{ start, stop, instrumentId, timeframe }]

def contractCoverage (bars : List CanonicalBar) (instrumentId timeframe : String) : List CoverageRange :=
  bars.foldl (addRange instrumentId timeframe) []

end Coverage

structure ContractQuery where
  instrumentId : String
  timeframe : String
  startUtcMs : Int
  endUtcMs : Int
  finalityPolicy : String
  deriving DecidableEq

structure SeriesIdentity where
  query : ContractQuery
  providerRevision : String
  orderedBarContentHashes : List FieldValue
  deriving DecidableEq

/-- The list of conflicts in a body is always empty. -/
structure SnapshotBody where
  snapshotId : String
  query : ContractQuery
  barCount : Nat
  seriesHash : String
  coverage : List CoverageRange
  gaps : List (Extent Int)
  providerRevision : String
  createdAtUtcMs : Int
  deriving DecidableEq

structure SnapshotPayload where
  schemaId : String
  metadata : EnvelopeMetadata
  kind : String
  body : SnapshotBody
  deriving DecidableEq

structure SnapshotEnvelope extends SnapshotPayload where
  contentHash : String
  deriving DecidableEq

/-- What the package uses of the contract package for a snapshot. -/
class SnapshotContracts extends BarContracts where
  /-- `content_hash` of the identity of a series -/
  seriesHash : SeriesIdentity → String
  sealSnapshot : SnapshotPayload → String
  validateSnapshot : SnapshotEnvelope → Option String
  verifySnapshot : SnapshotEnvelope → Bool

/-- What `build_data_snapshot` returns; the other keys repeat parts of the envelope. -/
structure DataSnapshot where
  snapshotEnvelope : SnapshotEnvelope
  bars : List CanonicalBar
  coverage : CoverageDetails
  duplicates : List Duplicate
  revisionChains : List RevisionChain
  deriving DecidableEq

def DataSnapshot.body (snapshot : DataSnapshot) : SnapshotBody := snapshot.snapshotEnvelope.body

def DataSnapshot.gaps (snapshot : DataSnapshot) : List (Extent Int) := snapshot.body.gaps

def DataSnapshot.seriesHash (snapshot : DataSnapshot) : String := snapshot.body.seriesHash

section Build

variable [PyText] [SnapshotContracts]

/-- The arguments of `build_data_snapshot`; `none` among the bars is no mapping, and the clock is given
by what it returns. -/
structure SnapshotArguments where
  snapshotId : String
  instrumentId : String
  timeframe : String
  providerRevision : RevisionInput
  producerCommit : String
  stackId : String
  startUtcMs : Int
  endUtcMs : Int
  bars : List (Option BarMapping)
  finalityPolicy : String
  clock : Int

/-- The checked arguments. -/
structure SnapshotScope where
  snapshotId : String
  providerRevision : String
  query : ContractQuery

def checkArguments (call : SnapshotArguments) : Except PyError SnapshotScope := do
  let snapshotId ← requiredText "snapshot_id" (.text call.snapshotId)
  let instrument ← requiredText "instrument_id" (.text call.instrumentId)
  let timeframe ← canonicalTimeframeField (.text call.timeframe)
  let providerRevision ← normalizeProviderRevision call.providerRevision
  let start ← integerField "start_utc_ms" (.int call.startUtcMs)
  let stop ← integerField "end_utc_ms" (.int call.endUtcMs)
  refuse (stop ≤ start)
    (.mdValidationError "snapshot range must satisfy start_utc_ms < end_utc_ms")
  refuse (call.finalityPolicy ≠ "CLOSED_BAR_ONLY" ∧ call.finalityPolicy ≠ "ALLOW_OPEN")
    (.mdValidationError ("unknown finality_policy: " ++ call.finalityPolicy))
  return {
    snapshotId, providerRevision
    query := {
      instrumentId := instrument
      timeframe
      startUtcMs := start
      endUtcMs := stop
      finalityPolicy := call.finalityPolicy } }

def admitBar (scope : SnapshotScope) (previousOpen : Option Int) (bar : CanonicalBar) : Except PyError Unit :=
  if bar.instrumentId ≠ .text scope.query.instrumentId then
    .error (.mdValidationError "bar instrument_id does not match snapshot")
  else if bar.timeframe ≠ scope.query.timeframe then
    .error (.mdValidationError "bar timeframe does not match snapshot")
  else if bar.snapshotId ≠ .text scope.snapshotId then
    .error (.mdValidationError "bar snapshot_id does not match snapshot")
  else if bar.providerRevision ≠ scope.providerRevision then
    .error (.mdValidationError "bar provider_revision does not match snapshot")
  else if bar.openTimeUtcMs < scope.query.startUtcMs ∨ scope.query.endUtcMs ≤ bar.closeTimeUtcMs then
    .error (.mdValidationError "bar is outside requested range")
  else if previousOpen.any (bar.openTimeUtcMs < ·) then
    .error (.mdValidationError "bar open_time is not monotonic")
  else .ok ()

/-- One round of the loop over the given bars. -/
def normalizeNext (D : Type) [PyDecimal D] (scope : SnapshotScope) (normalized : List CanonicalBar)
    (raw : Option BarMapping) : Except PyError (List CanonicalBar) := do
  let some mapping := raw | throw (.mdValidationError "each bar must be a mapping")
  let bar ← normalizeSnapshotBar D mapping
  admitBar scope (normalized.getLast?.map (·.openTimeUtcMs)) bar
  return normalized ++ [bar]

/-- What the loop over the groups has collected. -/
structure Selection where
  kept : List CanonicalBar
  duplicates : List Duplicate
  revisionChains : List RevisionChain
  previousClose : Option Int

/-- One round of the loop over the groups of bars with one open time. -/
def selectGroup (policy : String) (state : Selection) (group : List CanonicalBar) :
    Except PyError Selection := do
  let some first := group.head? | throw .indexError
  let openTime := first.openTimeUtcMs
  let resolved ← resolveBarGroup openTime group
  let state := { state with
    duplicates := state.duplicates ++ resolved.duplicates
    revisionChains := state.revisionChains ++ resolved.chain.toList }
  match resolved.selected with
  | none => return state
  | some selected =>
      refuse (state.previousClose.any (openTime ≤ ·))
        (.mdValidationError "bar ranges overlap despite monotonic open_time")
      return { state with
        previousClose := some selected.closeTimeUtcMs
        kept := if policy = "ALLOW_OPEN" ∨ selected.finality = .final then state.kept ++ [selected]
          else state.kept }

def openTimeGroups (bars : List CanonicalBar) : List (List CanonicalBar) :=
  bars.splitBy fun left right => right.openTimeUtcMs = left.openTimeUtcMs

def sealedSnapshot (payload : SnapshotPayload) : SnapshotEnvelope :=
  { payload with contentHash := SnapshotContracts.sealSnapshot payload }

/-- `seal_and_validate` of a snapshot. -/
def sealSnapshot (payload : SnapshotPayload) : Except PyError SnapshotEnvelope := do
  refuseText (SnapshotContracts.validateSnapshot (sealedSnapshot payload)) .valueError
  refuse (SnapshotContracts.verifySnapshot (sealedSnapshot payload) = false)
    (.mdValidationError "content_hash verification failed after sealing")
  return sealedSnapshot payload

def SnapshotScope.body (scope : SnapshotScope) (kept : List CanonicalBar) (createdAt : Int) : SnapshotBody where
  snapshotId := scope.snapshotId
  query := scope.query
  barCount := kept.length
  seriesHash := SnapshotContracts.seriesHash {
    query := scope.query
    providerRevision := scope.providerRevision
    orderedBarContentHashes := kept.map (·.barContentHash) }
  coverage := contractCoverage kept scope.query.instrumentId scope.query.timeframe
  gaps := (coverageMetadata kept scope.query.startUtcMs scope.query.endUtcMs).2
  providerRevision := scope.providerRevision
  createdAtUtcMs := createdAt

/-- The snapshot of the selected bars. -/
def packSnapshot (call : SnapshotArguments) (scope : SnapshotScope) (selection : Selection) :
    Except PyError DataSnapshot := do
  let createdAt ← integerField "created_at_utc_ms" (.int call.clock)
  let metadata ← envelopeMetadata call.producerCommit call.stackId createdAt
  let snapshotEnvelope ← sealSnapshot {
    schemaId := "openpine.marketdata.v2"
    metadata
    kind := "snapshot"
    body := scope.body selection.kept createdAt }
  return {
    snapshotEnvelope
    bars := selection.kept
    coverage := (coverageMetadata selection.kept scope.query.startUtcMs scope.query.endUtcMs).1
    duplicates := selection.duplicates
    revisionChains := selection.revisionChains }

def buildDataSnapshot (D : Type) [PyDecimal D] (call : SnapshotArguments) : Except PyError DataSnapshot := do
  let scope ← checkArguments call
  let normalized ← call.bars.foldlM (normalizeNext D scope) []
  let selection ← (openTimeGroups normalized).foldlM (selectGroup scope.query.finalityPolicy) ⟨[], [], [], none⟩
  packSnapshot call scope selection

end Build

end MarketdataProvider

namespace MarketdataProvider.Reference

open scoped Reference

/-- A text with the form of a SHA-256 name. -/
def digestName (parts : List Nat) : String :=
  let value := parts.foldl (fun value part => (value * 1000003 + part) % 10 ^ 60) 7
  let digits := Nat.toDigits 10 value
  String.ofList (['s', 'h', 'a', '2', '5', '6', ':'] ++ List.replicate (64 - digits.length) '0' ++ digits)

def textNumber (text : String) : Nat :=
  text.toList.foldl (fun value character => (value * 131 + character.toNat) % 10 ^ 60) 1

def sealName (bar : CanonicalBar) : String := toString bar.openTimeUtcMs ++ "." ++ toString bar.revision

/-- The texts of whole numbers are canonical. -/
def wholeText : FieldValue → Option String
  | .text written => if (Whole.ofText written).isSome then some written else none
  | _ => none

scoped instance contracts : SnapshotContracts where
  decimalString := wholeText
  otherFinality _ := false
  serializerId := "canonical-json"
  contentHashAlg := "sha256"
  contentHash bar := digestName [bar.openTimeUtcMs.toNat, bar.revision.toNat, textNumber bar.revisionState,
    textNumber bar.close, bar.supersededBarHash.elim 0 textNumber]
  sealHash := sealName
  validatePayload _ := none
  verifyContentHash bar := bar.rest.lookup "content_hash" = some (.text (sealName bar))
  seriesHash series := series.query.instrumentId ++ "." ++ toString series.orderedBarContentHashes.length
  sealSnapshot payload := payload.body.seriesHash
  validateSnapshot _ := none
  verifySnapshot snapshot := snapshot.contentHash = snapshot.body.seriesHash

end MarketdataProvider.Reference
