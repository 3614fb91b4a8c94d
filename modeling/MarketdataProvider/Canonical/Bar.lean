import MarketdataProvider.Contracts.Query
import MarketdataProvider.Core.Decimal

namespace MarketdataProvider

open Foundation

/-- `if bad: raise error` -/
def refuse (bad : Prop) [Decidable bad] (error : PyError) : Except PyError Unit :=
  if bad then .error error else .ok ()

@[simp] theorem refuse_eq_ok {bad : Prop} [Decidable bad] {error : PyError} {nothing : Unit} :
    refuse bad error = .ok nothing ↔ ¬ bad := by
  rw [refuse]
  split_ifs <;> simp [*]

section Values

/-- The values that a mapping of a bar may hold; enumerations and revisions have types of their own. -/
inductive FieldValue where
  | null
  | bool (value : Bool)
  | int (value : Int)
  | float (text : String)
  | decimal (text : String)
  | text (value : String)
  | other (text : String)
  deriving DecidableEq

/-- `str(value)` -/
def FieldValue.str : FieldValue → String
  | .null => "None"
  | .bool value => if value then "True" else "False"
  | .int value => toString value
  | .float written | .decimal written | .text written | .other written => written

def FieldValue.ofOption : Option String → FieldValue
  | none => .null
  | some written => .text written

/-- A member of an enumeration, or what may be read as one. -/
inductive EnumValue (Enum : Type) where
  | member (value : Enum)
  | value (value : FieldValue)

/-- The members of `Finality`; the package names the first two, and no other one has their values. -/
inductive Finality where
  | final
  | opened
  | other (value : String) (different : value ≠ "FINAL" ∧ value ≠ "OPEN")
  deriving DecidableEq

def Finality.value : Finality → String
  | .final => "FINAL"
  | .opened => "OPEN"
  | .other value _ => value

theorem Finality.value_injective : Function.Injective Finality.value := by
  intro left right same
  cases left with
  | final =>
      cases right with
      | final => rfl
      | opened => exact absurd same (by decide)
      | other value different => exact absurd same.symm different.1
  | opened =>
      cases right with
      | final => exact absurd same (by decide)
      | opened => rfl
      | other value different => exact absurd same.symm different.2
  | other value different =>
      cases right with
      | final => exact absurd same different.1
      | opened => exact absurd same different.2
      | other again others =>
          obtain rfl : value = again := same
          rfl

/-- `provider_revision`, given as a mapping or as something else. -/
inductive RevisionInput where
  | mapping (entries : List (String × FieldValue))
  | other

def knownRevision (revision : String) : RevisionInput :=
  .mapping [("known", .bool true), ("revision", .text revision)]

end Values

/-- A bar as a mapping; a key that the package reads may be missing, and other keys may be there. -/
structure BarMapping where
  instrumentId : Option FieldValue
  timeframe : Option FieldValue
  openTimeUtcMs : Option FieldValue
  closeTimeUtcMs : Option FieldValue
  openPrice : Option FieldValue
  high : Option FieldValue
  low : Option FieldValue
  close : Option FieldValue
  volume : Option FieldValue
  finality : Option (EnumValue Finality)
  revisionState : Option (EnumValue RevisionState)
  revision : Option FieldValue
  snapshotId : Option FieldValue
  provider : Option FieldValue
  providerRevision : Option RevisionInput
  seriesId : Option FieldValue
  barContentHash : Option FieldValue
  supersededBarHash : Option FieldValue
  rest : List (String × FieldValue)

/-- A mapping with all the required keys. -/
structure BarFields where
  instrumentId : FieldValue
  timeframe : FieldValue
  openTimeUtcMs : FieldValue
  closeTimeUtcMs : FieldValue
  openPrice : FieldValue
  high : FieldValue
  low : FieldValue
  close : FieldValue
  volume : FieldValue
  finality : EnumValue Finality
  revisionState : EnumValue RevisionState
  revision : FieldValue
  snapshotId : FieldValue
  provider : FieldValue
  providerRevision : RevisionInput
  seriesId : FieldValue
  barContentHash : FieldValue
  supersededBarHash : FieldValue
  rest : List (String × FieldValue)

/-- A normalized bar; the revision of its provider is known. -/
structure CanonicalBar where
  instrumentId : FieldValue
  timeframe : String
  openTimeUtcMs : Int
  closeTimeUtcMs : Int
  openPrice : String
  high : String
  low : String
  close : String
  volume : String
  finality : Finality
  revisionState : RevisionState
  revision : Int
  snapshotId : FieldValue
  provider : FieldValue
  providerRevision : String
  seriesId : FieldValue
  barContentHash : FieldValue
  supersededBarHash : Option String
  rest : List (String × FieldValue)
  deriving DecidableEq

/-- A normalized bar is a mapping with all the keys. -/
def CanonicalBar.fields (bar : CanonicalBar) : BarFields where
  instrumentId := bar.instrumentId
  timeframe := .text bar.timeframe
  openTimeUtcMs := .int bar.openTimeUtcMs
  closeTimeUtcMs := .int bar.closeTimeUtcMs
  openPrice := .text bar.openPrice
  high := .text bar.high
  low := .text bar.low
  close := .text bar.close
  volume := .text bar.volume
  finality := .member bar.finality
  revisionState := .member bar.revisionState
  revision := .int bar.revision
  snapshotId := bar.snapshotId
  provider := bar.provider
  providerRevision := knownRevision bar.providerRevision
  seriesId := bar.seriesId
  barContentHash := bar.barContentHash
  supersededBarHash := .ofOption bar.supersededBarHash
  rest := bar.rest

def BarFields.mapping (bar : BarFields) : BarMapping where
  instrumentId := some bar.instrumentId
  timeframe := some bar.timeframe
  openTimeUtcMs := some bar.openTimeUtcMs
  closeTimeUtcMs := some bar.closeTimeUtcMs
  openPrice := some bar.openPrice
  high := some bar.high
  low := some bar.low
  close := some bar.close
  volume := some bar.volume
  finality := some bar.finality
  revisionState := some bar.revisionState
  revision := some bar.revision
  snapshotId := some bar.snapshotId
  provider := some bar.provider
  providerRevision := some bar.providerRevision
  seriesId := some bar.seriesId
  barContentHash := some bar.barContentHash
  supersededBarHash := some bar.supersededBarHash
  rest := bar.rest

def CanonicalBar.mapping (bar : CanonicalBar) : BarMapping := bar.fields.mapping

/-- `_bar_identity_payload(bar)` -/
structure BarIdentity where
  seriesId : FieldValue
  instrumentId : FieldValue
  timeframe : String
  openTimeUtcMs : Int
  closeTimeUtcMs : Int
  openPrice : String
  high : String
  low : String
  close : String
  volume : String
  finality : String
  revisionState : String
  revision : Int
  provider : FieldValue
  providerRevision : String
  supersededBarHash : Option String
  deriving DecidableEq

def barIdentityPayload (bar : CanonicalBar) : BarIdentity where
  seriesId := bar.seriesId
  instrumentId := bar.instrumentId
  timeframe := bar.timeframe
  openTimeUtcMs := bar.openTimeUtcMs
  closeTimeUtcMs := bar.closeTimeUtcMs
  openPrice := bar.openPrice
  high := bar.high
  low := bar.low
  close := bar.close
  volume := bar.volume
  finality := bar.finality.value
  revisionState := bar.revisionState.value
  revision := bar.revision
  provider := bar.provider
  providerRevision := bar.providerRevision
  supersededBarHash := bar.supersededBarHash

/-- What the package uses of the contract package for a bar. -/
class BarContracts where
  /-- `decimal_string(value)`, with `none` for `MoneyError` and `TypeError` -/
  decimalString : FieldValue → Option String
  /-- The values of the members of `Finality` that the package does not name -/
  otherFinality : String → Bool
  serializerId : String
  contentHashAlg : String
  /-- `content_hash` of the identity of a bar -/
  contentHash : BarIdentity → String
  /-- The `content_hash` that `seal_content_hash` adds to a bar -/
  sealHash : CanonicalBar → String
  /-- The text of the exception of `validate_payload`, if it raises -/
  validatePayload : CanonicalBar → Option String
  verifyContentHash : CanonicalBar → Bool

section Envelope

/-- `^(?!0{40}$)[0-9a-f]{40}$` and the pattern of a stack differ in the count of digits. -/
def nonzeroHex (count : Nat) (digits : List Char) : Bool :=
  digits.length = count && digits.all (fun digit => digit.isDigit || ('a' ≤ digit && digit ≤ 'f')) &&
    digits.any (· ≠ '0')

def validateArtifactIdentity (producerCommit stackId : String) : Except PyError Unit :=
  if nonzeroHex 40 producerCommit.toList = false then
    .error (.mdValidationError "producer_commit must be an exact nonzero 40-hex commit")
  else if ("sha256:".toList.isPrefixOf stackId.toList && nonzeroHex 64 (stackId.toList.drop 7)) = false then
    .error (.mdValidationError "stack_id must be an exact nonzero sha256 manifest hash")
  else .ok ()

structure EnvelopeMetadata where
  schemaVersion : String
  producer : String
  producerVersion : String
  producerCommit : String
  stackId : String
  createdAtUtcMs : Int
  serializerId : String
  contentHashAlg : String
  deriving DecidableEq

def EnvelopeMetadata.entries (metadata : EnvelopeMetadata) : List (String × FieldValue) :=
  [("schema_version", .text metadata.schemaVersion), ("producer", .text metadata.producer),
    ("producer_version", .text metadata.producerVersion),
    ("producer_commit", .text metadata.producerCommit), ("stack_id", .text metadata.stackId),
    ("created_at_utc_ms", .int metadata.createdAtUtcMs), ("serializer_id", .text metadata.serializerId),
    ("content_hash_alg", .text metadata.contentHashAlg)]

def envelopeMetadata [BarContracts] (producerCommit stackId : String) (createdAt : Int) :
    Except PyError EnvelopeMetadata := do
  validateArtifactIdentity producerCommit stackId
  refuse (createdAt < 0) (.mdValidationError "created_at_utc_ms must be a nonnegative integer")
  return {
    schemaVersion := "2.1.0"
    producer := "marketdata-provider"
    producerVersion := "5.0.0-rc.5"
    producerCommit, stackId
    createdAtUtcMs := createdAt
    serializerId := BarContracts.serializerId
    contentHashAlg := BarContracts.contentHashAlg }

/-- The keys of the mapping are exactly these two. -/
def normalizeProviderRevision : RevisionInput → Except PyError String
  | .other => .error (.mdValidationError "provider_revision must be a typed identity")
  | .mapping entries =>
      if (entries.all fun entry => entry.1 = "known" || entry.1 = "revision") = false ∨
          (entries.lookup "known").isNone ∨ (entries.lookup "revision").isNone then
        .error (.mdValidationError "provider_revision must contain known and revision")
      else if entries.lookup "known" ≠ some (.bool true) then
        .error (.mdValidationError "provider_revision must be known in production")
      else
        match entries.lookup "revision" with
        | some (.text revision) =>
            if revision = "" then
              .error (.mdValidationError "provider_revision revision is required")
            else .ok revision
        | _ => .error (.mdValidationError "provider_revision revision is required")

end Envelope

section Fields

variable [PyText] [BarContracts]

def supportedTimeframes : List String :=
  ["1s", "1m", "3m", "5m", "15m", "30m", "1h", "2h", "4h", "6h", "12h", "1D", "1W", "1M"]

omit [PyText] [BarContracts] in
def requiredText (name : String) : FieldValue → Except PyError String
  | .text value => if value = "" then .error (.mdValidationError (name ++ " is required")) else .ok value
  | _ => .error (.mdValidationError (name ++ " is required"))

omit [PyText] [BarContracts] in
/-- Every caller takes the default minimum, zero. -/
def integerField (name : String) : FieldValue → Except PyError Int
  | .int value => if value < 0 then .error (.mdValidationError (name ++ " must be >= 0")) else .ok value
  | _ => .error (.mdValidationError (name ++ " must be an integer"))

omit [BarContracts] in
/-- `canonical_timeframe(timeframe)` with its error turned into one of the package's validation errors -/
def readTimeframe (timeframe : String) : Except PyError String :=
  match canonicalTimeframe timeframe with
  | .error (.mdTimeframeUnsupported _) =>
      .error (.mdValidationError ("unsupported timeframe: " ++ timeframe))
  | other => other

omit [BarContracts] in
def canonicalTimeframeField (value : FieldValue) : Except PyError String := do
  let timeframe ← requiredText "timeframe" value
  let normalized ← readTimeframe timeframe
  refuse (normalized ≠ timeframe) (.mdValidationError
    ("canonical timeframe required: '" ++ timeframe ++ "' normalizes to '" ++ normalized ++ "'"))
  refuse (normalized ∉ supportedTimeframes) (.mdValidationError ("unsupported timeframe: " ++ timeframe))
  return normalized

omit [PyText] in
/-- `Finality(text)`, with `none` for `ValueError` -/
def Finality.ofValue (text : String) : Option Finality :=
  if notFinal : text = "FINAL" then some .final
  else if notOpen : text = "OPEN" then some .opened
  else if BarContracts.otherFinality text then some (.other text ⟨notFinal, notOpen⟩)
  else none

omit [PyText] in
def normalizeFinality : EnumValue Finality → Except PyError Finality
  | .member value => .ok value
  | .value .null => .error (.mdMissingFinality "finality is required")
  | .value (.bool _) => .error (.mdValidationError "finality bool is invalid")
  | .value (.text text) =>
      match Finality.ofValue text with
      | some value => .ok value
      | none => .error (.mdValidationError ("unknown finality: " ++ text))
  | .value _ => .error (.mdValidationError "finality must be a Finality value")

omit [PyText] [BarContracts] in
def normalizeRevisionState : EnumValue RevisionState → Except PyError RevisionState
  | .member value => .ok value
  | .value (.bool _) => .error (.mdValidationError "revision_state bool is invalid")
  | .value (.text text) =>
      match RevisionState.ofValue text with
      | some value => .ok value
      | none => .error (.mdValidationError ("unknown revision_state: " ++ text))
  | .value _ => .error (.mdValidationError "revision_state must be a RevisionState value")

omit [PyText] [BarContracts] in
def normalizeRevision (value : FieldValue) (state : RevisionState) : Except PyError Int := do
  let revision ← integerField "revision" value
  refuse (state = .original ∧ revision ≠ 0) (.mdValidationError "ORIGINAL revision must be 0")
  refuse (state ≠ .original ∧ revision = 0)
    (.mdValidationError (state.value ++ " revision must be >= 1"))
  return revision

omit [PyText] in
def decimalField (name : String) (value : FieldValue) : Except PyError String :=
  match value with
  | .float _ => .error (.mdValidationError (name ++ " float is forbidden on contract boundary"))
  | value =>
      match BarContracts.decimalString value with
      | some text => .ok text
      | none => .error (.mdValidationError ("invalid " ++ name))

structure PriceTexts where
  openPrice : String
  high : String
  low : String
  close : String
  volume : String

omit [PyText] in
/-- No price is a `nan`, so `left <= right` is `not right < left`. -/
def validatedPrices (D : Type) [PyDecimal D] (openPrice high low close volume : FieldValue) :
    Except PyError PriceTexts := do
  let openText ← decimalField "open" openPrice
  let highText ← decimalField "high" high
  let lowText ← decimalField "low" low
  let closeText ← decimalField "close" close
  let volumeText ← decimalField "volume" volume
  let volumeValue ← parseDecimal D volumeText
  refuse (PyDecimal.lt volumeValue PyDecimal.zero) (.mdValidationError "volume must be nonnegative")
  let openValue ← parseDecimal D openText
  let highValue ← parseDecimal D highText
  let lowValue ← parseDecimal D lowText
  let closeValue ← parseDecimal D closeText
  let least := if PyDecimal.lt closeValue openValue then closeValue else openValue
  let greatest := if PyDecimal.lt openValue closeValue then closeValue else openValue
  refuse (PyDecimal.lt least lowValue || PyDecimal.lt highValue greatest)
    (.mdValidationError "OHLC invariants violated")
  return ⟨openText, highText, lowText, closeText, volumeText⟩

omit [BarContracts] in
def canonicalCloseTime (timeframe : String) (openTime : Int) (supplied : FieldValue) : Except PyError Int := do
  let expected ← closeTimeMs openTime timeframe
  if supplied = .null then return expected
  else
    let closeTime ← integerField "close_time_utc_ms" supplied
    refuse (closeTime ≠ expected)
      (.mdValidationError "close_time_utc_ms does not match canonical timeframe boundary")
    return closeTime

omit [PyText] [BarContracts] in
def supersededHash (value : FieldValue) (state : RevisionState) : Except PyError (Option String) :=
  if state = .original then
    if value = .null then .ok none
    else .error (.mdValidationError "ORIGINAL superseded_bar_hash must be null")
  else
    match value with
    | .text text =>
        if "sha256:".toList.isPrefixOf text.toList = true ∧ text.length = 71 then .ok (some text)
        else .error (.mdValidationError
          (state.value ++ " superseded_bar_hash must bind the preceding canonical bar"))
    | _ => .error (.mdValidationError
        (state.value ++ " superseded_bar_hash must bind the preceding canonical bar"))

end Fields

section Making

variable [PyText] [BarContracts]

/-- The arguments of `make_canonical_bar`; the time of creation is given. -/
structure BarArguments where
  instrumentId : String
  timeframe : String
  openTimeUtcMs : Int
  closeTimeUtcMs : Option Int
  openPrice : FieldValue
  high : FieldValue
  low : FieldValue
  close : FieldValue
  volume : FieldValue
  snapshotId : String
  provider : String
  providerRevision : RevisionInput
  producerCommit : String
  stackId : String
  createdAtUtcMs : Int
  supersededBarHash : Option String
  finality : Option (EnumValue Finality)
  revisionState : EnumValue RevisionState
  revision : Int

omit [PyText] [BarContracts] in
/-- An exception with a text, if there is one. -/
def refuseText (raised : Option String) (error : String → PyError) : Except PyError Unit :=
  match raised with
  | some message => .error (error message)
  | none => .ok ()

omit [PyText] [BarContracts] in
@[simp] theorem refuseText_eq_ok {raised : Option String} {error : String → PyError} {nothing : Unit} :
    refuseText raised error = .ok nothing ↔ raised = none := by
  cases raised <;> simp [refuseText]

omit [PyText] in
/-- `seal_content_hash` adds its hash to a bar. -/
def sealedBar (bar : CanonicalBar) : CanonicalBar :=
  { bar with rest := bar.rest ++ [("content_hash", .text (BarContracts.sealHash bar))] }

omit [PyText] in
/-- `seal_and_validate` of a bar; the exception of the validator is taken as a `ValueError`. -/
def sealBar (bar : CanonicalBar) : Except PyError CanonicalBar := do
  refuseText (BarContracts.validatePayload (sealedBar bar)) .valueError
  refuse (BarContracts.verifyContentHash (sealedBar bar) = false)
    (.mdValidationError "content_hash verification failed after sealing")
  return sealedBar bar

/-- The checked arguments of a bar with their hash. -/
def draftBar (D : Type) [PyDecimal D] (bar : BarArguments) : Except PyError CanonicalBar := do
  let instrument ← requiredText "instrument_id" (.text bar.instrumentId)
  let timeframe ← canonicalTimeframeField (.text bar.timeframe)
  let snapshot ← requiredText "snapshot_id" (.text bar.snapshotId)
  let provider ← requiredText "provider" (.text bar.provider)
  let providerRevision ← normalizeProviderRevision bar.providerRevision
  let openTime ← integerField "open_time_utc_ms" (.int bar.openTimeUtcMs)
  let finality ← normalizeFinality (bar.finality.getD (.value .null))
  let state ← normalizeRevisionState bar.revisionState
  let revision ← normalizeRevision (.int bar.revision) state
  let lineage ← supersededHash (.ofOption bar.supersededBarHash) state
  let prices ← validatedPrices D bar.openPrice bar.high bar.low bar.close bar.volume
  let closeTime ← canonicalCloseTime timeframe openTime (bar.closeTimeUtcMs.elim .null .int)
  let metadata ← envelopeMetadata bar.producerCommit bar.stackId bar.createdAtUtcMs
  let envelope : CanonicalBar := {
    instrumentId := .text instrument
    timeframe
    openTimeUtcMs := openTime
    closeTimeUtcMs := closeTime
    openPrice := prices.openPrice
    high := prices.high
    low := prices.low
    close := prices.close
    volume := prices.volume
    finality
    revisionState := state
    revision
    snapshotId := .text snapshot
    provider := .text provider
    providerRevision
    seriesId := .text (instrument ++ ":" ++ timeframe)
    barContentHash := .null
    supersededBarHash := lineage
    rest := ("schema_id", .text "openpine.marketdata.bar.v2") :: metadata.entries }
  return { envelope with
    barContentHash := .text (BarContracts.contentHash (barIdentityPayload envelope)) }

def makeCanonicalBar (D : Type) [PyDecimal D] (bar : BarArguments) : Except PyError CanonicalBar := do
  sealBar (← draftBar D bar)

end Making

section Normalizing

variable [PyText] [BarContracts]

def requiredField {Field : Type} (name : String) : Option Field → Except PyError Field
  | some value => .ok value
  | none => .error (.mdValidationError ("bar missing required field: " ++ name))

/-- `finality` is looked for first, the other keys in the order of the list of required fields. -/
def BarMapping.fields (bar : BarMapping) : Except PyError BarFields := do
  let some finality := bar.finality | throw (.mdMissingFinality "finality is required")
  return {
    instrumentId := ← requiredField "instrument_id" bar.instrumentId
    timeframe := ← requiredField "timeframe" bar.timeframe
    openTimeUtcMs := ← requiredField "open_time_utc_ms" bar.openTimeUtcMs
    closeTimeUtcMs := ← requiredField "close_time_utc_ms" bar.closeTimeUtcMs
    openPrice := ← requiredField "open" bar.openPrice
    high := ← requiredField "high" bar.high
    low := ← requiredField "low" bar.low
    close := ← requiredField "close" bar.close
    volume := ← requiredField "volume" bar.volume
    finality
    revisionState := ← requiredField "revision_state" bar.revisionState
    revision := ← requiredField "revision" bar.revision
    snapshotId := ← requiredField "snapshot_id" bar.snapshotId
    provider := ← requiredField "provider" bar.provider
    providerRevision := ← requiredField "provider_revision" bar.providerRevision
    seriesId := ← requiredField "series_id" bar.seriesId
    barContentHash := ← requiredField "bar_content_hash" bar.barContentHash
    supersededBarHash := ← requiredField "superseded_bar_hash" bar.supersededBarHash
    rest := bar.rest }

omit [PyText] [BarContracts] in
theorem mapping_fields (bar : BarFields) : bar.mapping.fields = .ok bar := rfl

def normalizeFields (D : Type) [PyDecimal D] (bar : BarFields) : Except PyError CanonicalBar := do
  let finality ← normalizeFinality bar.finality
  let revisionState ← normalizeRevisionState bar.revisionState
  let revision ← normalizeRevision bar.revision revisionState
  let providerRevision ← normalizeProviderRevision bar.providerRevision
  let timeframe ← canonicalTimeframeField bar.timeframe
  let openTime ← integerField "open_time_utc_ms" bar.openTimeUtcMs
  let closeTime ← canonicalCloseTime timeframe openTime bar.closeTimeUtcMs
  let prices ← validatedPrices D bar.openPrice bar.high bar.low bar.close bar.volume
  let supersededBarHash ← supersededHash bar.supersededBarHash revisionState
  return {
    instrumentId := bar.instrumentId
    timeframe
    openTimeUtcMs := openTime
    closeTimeUtcMs := closeTime
    openPrice := prices.openPrice
    high := prices.high
    low := prices.low
    close := prices.close
    volume := prices.volume
    finality, revisionState, revision
    snapshotId := bar.snapshotId
    provider := bar.provider
    providerRevision
    seriesId := bar.seriesId
    barContentHash := bar.barContentHash
    supersededBarHash
    rest := bar.rest }

omit [PyText] in
def checkHashes (bar : CanonicalBar) : Except PyError Unit := do
  refuseText (BarContracts.validatePayload bar) fun message =>
    .mdValidationError ("bar schema validation failed: " ++ message)
  refuse (BarContracts.verifyContentHash bar = false)
    (.mdValidationError "bar content_hash verification failed")
  refuse (bar.barContentHash ≠ .text (BarContracts.contentHash (barIdentityPayload bar)))
    (.mdValidationError "bar_content_hash verification failed")

def normalizeSnapshotBar (D : Type) [PyDecimal D] (bar : BarMapping) : Except PyError CanonicalBar := do
  let fields ← bar.fields
  let normalized ← normalizeFields D fields
  checkHashes normalized
  return normalized

end Normalizing

end MarketdataProvider
