import MarketdataProvider.Canonical.Coverage

namespace MarketdataProvider

open Foundation

/-- A bar as a provider or a store gives it. -/
structure ProviderRawBar where
  instrumentId : String
  timeframe : String
  openTimeUtcMs : Int
  closeTimeUtcMs : Option Int
  openPrice : FieldValue
  high : FieldValue
  low : FieldValue
  close : FieldValue
  volume : FieldValue
  finality : Finality
  provider : String
  providerRevision : String
  revisionState : RevisionState
  revision : Int
  deriving DecidableEq

/-- The order of the pairs of open time and revision. -/
def ProviderRawBar.Before (left right : ProviderRawBar) : Prop :=
  left.openTimeUtcMs < right.openTimeUtcMs ∨
    (left.openTimeUtcMs = right.openTimeUtcMs ∧ left.revision ≤ right.revision)

instance : DecidableRel ProviderRawBar.Before := fun left right =>
  inferInstanceAs (Decidable (left.openTimeUtcMs < right.openTimeUtcMs ∨
    (left.openTimeUtcMs = right.openTimeUtcMs ∧ left.revision ≤ right.revision)))

instance : IsTrans ProviderRawBar ProviderRawBar.Before where
  trans first second third := by
    simp only [ProviderRawBar.Before]
    omega

instance : Std.Total ProviderRawBar.Before where
  total first second := by
    simp only [ProviderRawBar.Before]
    omega

/-- `sorted` keeps the order of bars with one open time and one revision. -/
def orderRaw (raw : List ProviderRawBar) : List ProviderRawBar := raw.insertionSort ProviderRawBar.Before

structure SnapshotIdentity where
  instrumentId : String
  timeframe : String
  startUtcMs : Int
  endUtcMs : Int
  providerRevision : String
  finalityPolicy : String
  orderedInputHashes : List FieldValue
  deriving DecidableEq

class PublicContracts extends SnapshotContracts where
  /-- `content_hash` of the identity of a snapshot -/
  snapshotIdHash : SnapshotIdentity → String

section Building

variable [PyText]

/-- The arguments of `build_public_snapshot` next to the raw bars. -/
structure PublicArguments where
  query : BarQuery
  providerRevision : RevisionInput
  producerCommit : String
  stackId : String
  finalityPolicy : String

def PublicArguments.barArguments (call : PublicArguments) (expected snapshotId : String)
    (superseded : Option String) (item : ProviderRawBar) : BarArguments where
  instrumentId := item.instrumentId
  timeframe := item.timeframe
  openTimeUtcMs := item.openTimeUtcMs
  closeTimeUtcMs := item.closeTimeUtcMs
  openPrice := item.openPrice
  high := item.high
  low := item.low
  close := item.close
  volume := item.volume
  snapshotId := snapshotId
  provider := item.provider
  providerRevision := knownRevision expected
  producerCommit := call.producerCommit
  stackId := call.stackId
  createdAtUtcMs := call.query.endMs
  supersededBarHash := superseded
  finality := some (.member item.finality)
  revisionState := .member item.revisionState
  revision := item.revision

section Threading

variable [BarContracts] (D : Type) [PyDecimal D] (call : PublicArguments) (expected snapshotId : String)

/-- A bar that is no original one supersedes the bar in front of it. -/
def makeRaw (previousHash : Option String) (item : ProviderRawBar) : Except PyError CanonicalBar :=
  makeCanonicalBar D (call.barArguments expected snapshotId
    (if item.revisionState ≠ .original then previousHash else none) item)

/-- The hash of the previous bar is forgotten when the open time changes. -/
def carriedHash (previousOpen : Option Int) (previousHash : Option String) (item : ProviderRawBar) :
    Option String :=
  if some item.openTimeUtcMs ≠ previousOpen then none else previousHash

def canonicalize : Option Int → Option String → List ProviderRawBar → Except PyError (List CanonicalBar)
  | _, _, [] => .ok []
  | previousOpen, previousHash, item :: rest => do
      let bar ← makeRaw D call expected snapshotId (carriedHash previousOpen previousHash item) item
      let others ← canonicalize (some item.openTimeUtcMs) (some bar.hash) rest
      return bar :: others

end Threading

variable [PublicContracts]

def snapshotIdentity (call : PublicArguments) (expected : String) (pending : List CanonicalBar) :
    SnapshotIdentity where
  instrumentId := call.query.instrument.serialize
  timeframe := call.query.timeframe.canonical
  startUtcMs := call.query.startMs
  endUtcMs := call.query.endMs
  providerRevision := expected
  finalityPolicy := call.finalityPolicy
  orderedInputHashes := pending.map (·.barContentHash)

def PublicArguments.snapshotArguments (call : PublicArguments) (expected snapshotId : String)
    (bars : List CanonicalBar) : SnapshotArguments where
  snapshotId := snapshotId
  instrumentId := call.query.instrument.serialize
  timeframe := call.query.timeframe.canonical
  providerRevision := knownRevision expected
  producerCommit := call.producerCommit
  stackId := call.stackId
  startUtcMs := call.query.startMs
  endUtcMs := call.query.endMs
  bars := bars.map fun bar => some bar.mapping
  finalityPolicy := call.finalityPolicy
  clock := call.query.endMs

def buildPublicSnapshot (D : Type) [PyDecimal D] (call : PublicArguments) (raw : List ProviderRawBar) :
    Except PyError DataSnapshot := do
  let expected ← normalizeProviderRevision call.providerRevision
  let ordered := orderRaw raw
  refuse (∃ item ∈ ordered, item.providerRevision ≠ expected)
    (.mdValidationError "raw bar provider_revision does not match snapshot")
  let pending ← canonicalize D call expected "pending" none none ordered
  let snapshotId := PublicContracts.snapshotIdHash (snapshotIdentity call expected pending)
  let bars ← canonicalize D call expected snapshotId none none ordered
  buildDataSnapshot D (call.snapshotArguments expected snapshotId bars)

end Building

section Drafts

variable [PyText] [BarContracts] {D : Type} [PyDecimal D] {bar : BarArguments} {draft : CanonicalBar}

/-- What each step of a draft gives. -/
structure Drafted (D : Type) [PyDecimal D] (bar : BarArguments) (draft : CanonicalBar) : Prop where
  instrument : requiredText "instrument_id" (.text bar.instrumentId) = .ok bar.instrumentId ∧
    draft.instrumentId = .text bar.instrumentId
  timeframe : canonicalTimeframeField (.text bar.timeframe) = .ok bar.timeframe ∧
    draft.timeframe = bar.timeframe
  snapshot : requiredText "snapshot_id" (.text bar.snapshotId) = .ok bar.snapshotId ∧
    draft.snapshotId = .text bar.snapshotId
  provider : requiredText "provider" (.text bar.provider) = .ok bar.provider ∧
    draft.provider = .text bar.provider
  providerRevision : normalizeProviderRevision bar.providerRevision = .ok draft.providerRevision
  openTime : integerField "open_time_utc_ms" (.int bar.openTimeUtcMs) = .ok bar.openTimeUtcMs ∧
    draft.openTimeUtcMs = bar.openTimeUtcMs
  finality : normalizeFinality (bar.finality.getD (.value .null)) = .ok draft.finality
  state : normalizeRevisionState bar.revisionState = .ok draft.revisionState
  revision : normalizeRevision (.int bar.revision) draft.revisionState = .ok bar.revision ∧
    draft.revision = bar.revision
  superseded : supersededHash (.ofOption bar.supersededBarHash) draft.revisionState = .ok draft.supersededBarHash
  prices : validatedPrices D bar.openPrice bar.high bar.low bar.close bar.volume =
    .ok ⟨draft.openPrice, draft.high, draft.low, draft.close, draft.volume⟩
  closeTime : canonicalCloseTime bar.timeframe bar.openTimeUtcMs (bar.closeTimeUtcMs.elim .null .int) =
    .ok draft.closeTimeUtcMs
  series : draft.seriesId = .text (bar.instrumentId ++ ":" ++ bar.timeframe)
  hashed : draft.barContentHash = .text (BarContracts.contentHash (barIdentityPayload draft))
  rest : ∃ metadata, envelopeMetadata bar.producerCommit bar.stackId bar.createdAtUtcMs = .ok metadata ∧
    draft.rest = ("schema_id", .text "openpine.marketdata.bar.v2") :: metadata.entries

omit [PyText] [BarContracts] in
theorem normalizeRevision_int {value result : Int} {state : RevisionState}
    (checked : normalizeRevision (.int value) state = .ok result) : result = value := by
  obtain ⟨given, known, checked⟩ := bind_eq_ok.mp checked
  obtain ⟨_, _, checked⟩ := bind_eq_ok.mp checked
  obtain ⟨_, _, checked⟩ := bind_eq_ok.mp checked
  obtain rfl := pure_eq_ok.mp checked
  exact integerField_int known

theorem draftBar_eq_ok : draftBar D bar = .ok draft ↔ Drafted D bar draft := by
  constructor
  · intro made
    obtain ⟨instrument, instruments, made⟩ := bind_eq_ok.mp made
    obtain ⟨timeframe, timeframes, made⟩ := bind_eq_ok.mp made
    obtain ⟨snapshot, snapshots, made⟩ := bind_eq_ok.mp made
    obtain ⟨provider, providers, made⟩ := bind_eq_ok.mp made
    obtain ⟨providerRevision, revisions, made⟩ := bind_eq_ok.mp made
    obtain ⟨openTime, opens, made⟩ := bind_eq_ok.mp made
    obtain ⟨finality, finalities, made⟩ := bind_eq_ok.mp made
    obtain ⟨state, states, made⟩ := bind_eq_ok.mp made
    obtain ⟨revision, revised, made⟩ := bind_eq_ok.mp made
    obtain ⟨lineage, supersedes, made⟩ := bind_eq_ok.mp made
    obtain ⟨prices, priced, made⟩ := bind_eq_ok.mp made
    obtain ⟨closeTime, closes, made⟩ := bind_eq_ok.mp made
    obtain ⟨metadata, described, made⟩ := bind_eq_ok.mp made
    obtain rfl := pure_eq_ok.mp made
    obtain rfl := requiredText_text instruments
    obtain rfl := FieldValue.text.inj (canonicalTimeframeField_ok timeframes).1
    obtain rfl := requiredText_text snapshots
    obtain rfl := requiredText_text providers
    obtain rfl := integerField_int opens
    obtain rfl := normalizeRevision_int revised
    exact ⟨⟨instruments, rfl⟩, ⟨timeframes, rfl⟩, ⟨snapshots, rfl⟩, ⟨providers, rfl⟩, revisions, ⟨opens, rfl⟩,
      finalities, states, ⟨revised, rfl⟩, supersedes, priced, closes, rfl, rfl, metadata, described, rfl⟩
  · rintro ⟨instrument, timeframe, snapshot, provider, providerRevision, openTime, finality, state, revision,
      superseded, prices, closeTime, series, hashed, metadata, described, rest⟩
    rw [draftBar, instrument.1, ok_bind, timeframe.1, ok_bind, snapshot.1, ok_bind, provider.1, ok_bind,
      providerRevision, ok_bind, openTime.1, ok_bind, finality, ok_bind, state, ok_bind, revision.1, ok_bind,
      superseded, ok_bind, prices, ok_bind, closeTime, ok_bind, described, ok_bind]
    obtain ⟨⟩ := draft
    simp only at instrument timeframe snapshot provider openTime revision series hashed rest
    rw [hashed, instrument.2, timeframe.2, snapshot.2, provider.2, openTime.2, revision.2, series, rest]
    rfl

/-- A draft names its snapshot, and the name changes nothing else. -/
theorem Drafted.rename (drafted : Drafted D bar draft) {snapshotId : String} (named : snapshotId ≠ "") :
    Drafted D { bar with snapshotId } { draft with snapshotId := .text snapshotId } :=
  { drafted with snapshot := ⟨if_neg named, rfl⟩ }

theorem Drafted.superseded_eq (drafted : Drafted D bar draft) : draft.supersededBarHash = bar.supersededBarHash := by
  have lineage := drafted.superseded
  unfold supersededHash at lineage
  cases given : bar.supersededBarHash with
  | none =>
      rw [given] at lineage
      simp only [FieldValue.ofOption, if_true] at lineage
      split_ifs at lineage
      exact (Except.ok.inj lineage).symm
  | some text =>
      rw [given] at lineage
      simp only [FieldValue.ofOption, reduceCtorEq, if_false] at lineage
      split_ifs at lineage
      exact (Except.ok.inj lineage).symm

/-- Two drafts of one snapshot with one identity are the same. -/
theorem Drafted.eq_of_identity {other : BarArguments} {second : CanonicalBar} (left : Drafted D bar draft)
    (right : Drafted D other second) (call : bar.snapshotId = other.snapshotId ∧
      bar.producerCommit = other.producerCommit ∧ bar.stackId = other.stackId ∧
      bar.createdAtUtcMs = other.createdAtUtcMs)
    (same : barIdentityPayload draft = barIdentityPayload second) : draft = second := by
  obtain ⟨firstMetadata, firstMade, firstRest⟩ := left.rest
  obtain ⟨secondMetadata, secondMade, secondRest⟩ := right.rest
  obtain ⟨snapshot, commit, stack, created⟩ := call
  rw [commit, stack, created, secondMade] at firstMade
  obtain rfl := Except.ok.inj firstMade
  have hashes : draft.barContentHash = second.barContentHash := by rw [left.hashed, right.hashed, same]
  have snapshots : draft.snapshotId = second.snapshotId := by rw [left.snapshot.2, right.snapshot.2, snapshot]
  have rests : draft.rest = second.rest := by rw [firstRest, secondRest]
  simp only [barIdentityPayload, BarIdentity.mk.injEq] at same
  obtain ⟨series, instrument, timeframe, opens, closes, openPrice, high, low, close, volume, finality, state,
    revision, provider, providerRevision, superseded⟩ := same
  have finalities := Finality.value_injective finality
  have states : draft.revisionState = second.revisionState := by
    have read := congrArg RevisionState.ofValue state
    rw [RevisionState.ofValue_value, RevisionState.ofValue_value] at read
    exact Option.some.inj read
  obtain ⟨⟩ := draft
  obtain ⟨⟩ := second
  simp only at *
  subst_vars
  rfl

end Drafts

section Made

variable [PyText] [BarContracts] {D : Type} [PyDecimal D] {bar : BarArguments} {made : CanonicalBar}

theorem makeCanonicalBar_eq_ok : makeCanonicalBar D bar = .ok made ↔ ∃ draft, Drafted D bar draft ∧
    BarContracts.validatePayload (sealedBar draft) = none ∧
    BarContracts.verifyContentHash (sealedBar draft) = true ∧ made = sealedBar draft := by
  unfold makeCanonicalBar sealBar
  simp only [bind_eq_ok, draftBar_eq_ok, refuseText_eq_ok, refuse_eq_ok, pure_eq_ok, exists_and_left, exists_const,
    Bool.not_eq_false]
  constructor
  · rintro ⟨draft, drafted, valid, verified, rfl⟩
    exact ⟨draft, drafted, valid, verified, rfl⟩
  · rintro ⟨draft, drafted, valid, verified, rfl⟩
    exact ⟨draft, drafted, valid, verified, rfl⟩

omit [PyText] in
/-- `decimal_string` reads the texts that it writes as themselves. -/
def CanonicalDecimals : Prop := ∀ value text, BarContracts.decimalString value = some text →
  BarContracts.decimalString (.text text) = some text

variable (canonical : CanonicalDecimals)

include canonical

omit [PyText] in
theorem decimalField_again {name text : String} {value : FieldValue} (read : decimalField name value = .ok text) :
    decimalField name (.text text) = .ok text := by
  unfold decimalField at read
  split at read
  · cases read
  · split at read
    · rename_i found
      obtain rfl := Except.ok.inj read
      simp only [decimalField, canonical _ _ found]
    · cases read

omit [PyText] in
theorem validatedPrices_again {openPrice high low close volume : FieldValue} {prices : PriceTexts}
    (read : validatedPrices D openPrice high low close volume = .ok prices) :
    validatedPrices D (.text prices.openPrice) (.text prices.high) (.text prices.low) (.text prices.close)
      (.text prices.volume) = .ok prices := by
  obtain ⟨openText, opens, read⟩ := bind_eq_ok.mp read
  obtain ⟨highText, highs, read⟩ := bind_eq_ok.mp read
  obtain ⟨lowText, lows, read⟩ := bind_eq_ok.mp read
  obtain ⟨closeText, closes, read⟩ := bind_eq_ok.mp read
  obtain ⟨volumeText, volumes, read⟩ := bind_eq_ok.mp read
  have rest := read
  obtain ⟨_, _, read⟩ := bind_eq_ok.mp read
  obtain ⟨_, _, read⟩ := bind_eq_ok.mp read
  obtain ⟨_, _, read⟩ := bind_eq_ok.mp read
  obtain ⟨_, _, read⟩ := bind_eq_ok.mp read
  obtain ⟨_, _, read⟩ := bind_eq_ok.mp read
  obtain ⟨_, _, read⟩ := bind_eq_ok.mp read
  obtain ⟨_, _, read⟩ := bind_eq_ok.mp read
  obtain rfl := pure_eq_ok.mp read
  unfold validatedPrices
  rw [decimalField_again canonical opens, ok_bind, decimalField_again canonical highs, ok_bind,
    decimalField_again canonical lows, ok_bind, decimalField_again canonical closes, ok_bind,
    decimalField_again canonical volumes, ok_bind]
  exact rest

omit canonical [PyText] [BarContracts] in
theorem normalizeProviderRevision_known {given : RevisionInput} {revision : String}
    (read : normalizeProviderRevision given = .ok revision) :
    normalizeProviderRevision (knownRevision revision) = .ok revision := by
  have named : revision ≠ "" := by
    unfold normalizeProviderRevision at read
    split at read
    · cases read
    · split_ifs at read
      split at read
      · split_ifs at read with empty
        obtain rfl := Except.ok.inj read
        exact empty
      · cases read
  simp only [normalizeProviderRevision, knownRevision]
  rw [if_neg (by simp [List.lookup_cons]), if_neg (by simp)]
  simp [List.lookup_cons, named]

/-- A made bar is normalized to itself. -/
theorem normalizeSnapshotBar_made (returned : makeCanonicalBar D bar = .ok made) :
    normalizeSnapshotBar D made.mapping = .ok made := by
  obtain ⟨draft, drafted, valid, verified, rfl⟩ := makeCanonicalBar_eq_ok.mp returned
  have accepted := canonicalTimeframeField_ok drafted.timeframe.1
  have closes := canonicalCloseTime_ok drafted.closeTime
  have after := le_close_of_supported accepted.2.1 accepted.2.2 closes
  have early : 0 ≤ bar.openTimeUtcMs := by
    have checked := drafted.openTime.1
    simp only [integerField] at checked
    split_ifs at checked with negative
    exact not_lt.mp negative
  have closing : canonicalCloseTime bar.timeframe bar.openTimeUtcMs (.int draft.closeTimeUtcMs) =
      .ok draft.closeTimeUtcMs := by
    rw [canonicalCloseTime, closes, ok_bind, if_neg (by simp), integerField, if_neg (by omega), ok_bind]
    simp [refuse]
  have superseded : supersededHash (.ofOption draft.supersededBarHash) draft.revisionState =
      .ok draft.supersededBarHash := by
    have lineage := drafted.superseded
    rwa [← drafted.superseded_eq] at lineage
  have fields : normalizeFields D (sealedBar draft).fields = .ok (sealedBar draft) := by
    simp only [normalizeFields, CanonicalBar.fields, sealedBar]
    rw [drafted.revision.2, drafted.timeframe.2, drafted.openTime.2]
    rw [normalizeFinality, ok_bind, normalizeRevisionState, ok_bind, drafted.revision.1, ok_bind,
      normalizeProviderRevision_known drafted.providerRevision, ok_bind, drafted.timeframe.1, ok_bind]
    rw [show integerField "open_time_utc_ms" (.int bar.openTimeUtcMs) = .ok bar.openTimeUtcMs from
      if_neg (not_lt.mpr early), ok_bind, closing, ok_bind, validatedPrices_again canonical drafted.prices, ok_bind,
      superseded, ok_bind]
    rw [← drafted.revision.2, ← drafted.timeframe.2, ← drafted.openTime.2]
    rfl
  have hashes : checkHashes (sealedBar draft) = .ok () := by
    unfold checkHashes
    rw [valid, verified]
    have same : (sealedBar draft).barContentHash =
        .text (BarContracts.contentHash (barIdentityPayload (sealedBar draft))) := drafted.hashed
    simp [refuse, refuseText, ok_bind, same]
  unfold normalizeSnapshotBar CanonicalBar.mapping
  rw [mapping_fields, ok_bind, fields, ok_bind, hashes, ok_bind]
  rfl

end Made

end MarketdataProvider
