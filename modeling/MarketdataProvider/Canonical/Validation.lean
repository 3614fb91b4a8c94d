import MarketdataProvider.Canonical.Redelivery
import Mathlib.Data.List.Dedup

namespace MarketdataProvider

open Foundation

/-- What `validate_canonical_snapshot` reads of a snapshot. No value of an optional part stands for a key
that is missing or has another type; the schema of the envelope gives the parts of it their types. -/
structure SnapshotMapping where
  query : Option RevisionInput
  bars : Option (List (Option BarMapping))
  snapshotEnvelope : Option SnapshotEnvelope
  snapshotId : FieldValue
  seriesHash : FieldValue
  createdAtUtcMs : FieldValue

/-- A result of the builder as a mapping; the revision in it is that of its query. -/
def DataSnapshot.mapping (snapshot : DataSnapshot) : SnapshotMapping where
  query := some (knownRevision snapshot.body.providerRevision)
  bars := some (snapshot.bars.map fun bar => some bar.mapping)
  snapshotEnvelope := some snapshot.snapshotEnvelope
  snapshotId := .text snapshot.body.snapshotId
  seriesHash := .text snapshot.seriesHash
  createdAtUtcMs := .int snapshot.body.createdAtUtcMs

/-- `value == True` -/
def FieldValue.equalsTrue : FieldValue → Bool
  | .bool value => value
  | .int value => value = 1
  | _ => false

/-- The mapping of a known revision, in any order of its keys. -/
def RevisionInput.equalsKnown (revision : String) : RevisionInput → Bool
  | .other => false
  | .mapping entries =>
      entries.all (fun entry => entry.1 = "known" || entry.1 = "revision") &&
        (entries.lookup "known").any FieldValue.equalsTrue &&
          entries.lookup "revision" = some (.text revision)

section Validation

variable [PyText] [SnapshotContracts]

omit [PyText] in
def checkSealed (envelope : SnapshotEnvelope) : Except PyError Unit := do
  refuse (SnapshotContracts.validateSnapshot envelope ≠ none)
    (.mdValidationError "canonical snapshot envelope validation failed")
  refuse (SnapshotContracts.verifySnapshot envelope = false)
    (.mdValidationError "canonical snapshot envelope content_hash is invalid")
  refuse (envelope.kind ≠ "snapshot")
    (.mdValidationError "canonical snapshot envelope kind/body is invalid")

omit [PyText] [SnapshotContracts] in
def readCreatedAt : FieldValue → Except PyError Int
  | .int createdAt => .ok createdAt
  | _ => .error (.mdValidationError "canonical snapshot created_at_utc_ms is required")

omit [PyText] [SnapshotContracts] in
/-- The parts of a snapshot that repeat its envelope; the result is the revision and the time. -/
def checkRepeated (snapshot : SnapshotMapping) (query : RevisionInput) (body : SnapshotBody) :
    Except PyError (String × Int) := do
  let createdAt ← readCreatedAt snapshot.createdAtUtcMs
  let revision ← normalizeProviderRevision (knownRevision body.providerRevision)
  refuse (query.equalsKnown revision = false)
    (.mdValidationError "canonical snapshot provider_revision does not match envelope")
  refuse (snapshot.snapshotId ≠ .text body.snapshotId)
    (.mdValidationError "canonical snapshot snapshot_id does not match envelope")
  refuse (snapshot.seriesHash ≠ .text body.seriesHash)
    (.mdValidationError "canonical snapshot series_hash does not match envelope")
  refuse (createdAt ≠ body.createdAtUtcMs)
    (.mdValidationError "canonical snapshot created_at does not match envelope")
  return (revision, createdAt)

omit [PyText] [SnapshotContracts] in
/-- What the builder is given again. -/
def SnapshotEnvelope.arguments (envelope : SnapshotEnvelope) (revision : String) (createdAt : Int)
    (bars : List (Option BarMapping)) : SnapshotArguments where
  snapshotId := envelope.body.snapshotId
  instrumentId := envelope.body.query.instrumentId
  timeframe := envelope.body.query.timeframe
  providerRevision := knownRevision revision
  producerCommit := envelope.metadata.producerCommit
  stackId := envelope.metadata.stackId
  startUtcMs := envelope.body.query.startUtcMs
  endUtcMs := envelope.body.query.endUtcMs
  bars
  finalityPolicy := envelope.body.query.finalityPolicy
  clock := createdAt

def validateCanonicalSnapshot (D : Type) [PyDecimal D] (snapshot : SnapshotMapping) :
    Except PyError DataSnapshot :=
  match snapshot.query, snapshot.bars, snapshot.snapshotEnvelope with
  | some query, some bars, some envelope => do
      checkSealed envelope
      let repeated ← checkRepeated snapshot query envelope.body
      let validated ← buildDataSnapshot D (envelope.arguments repeated.1 repeated.2 bars)
      refuse (validated.snapshotEnvelope ≠ envelope)
        (.mdValidationError "canonical snapshot envelope reconstruction failed")
      return validated
  | _, _, _ => .error (.mdValidationError "canonical snapshot query/bars/snapshot_envelope are required")

end Validation

section Singles

variable {bar : CanonicalBar} {bars kept : List CanonicalBar} {openTime : Int} {policy : String}
  {state final : Selection} {scope : SnapshotScope} {previous : Option Int}

/-- A bar that is alone in its group is selected exactly when it is original. -/
theorem resolve_single : resolveBarGroup openTime [bar] = if bar.revisionState = .original then
    .ok ⟨some bar, [], none⟩
    else .error (barConflict "revision chain is missing the preceding canonical bar" openTime) := by
  have alone : [bar.provider.str].dedup = [bar.provider.str] := (List.nodup_singleton _).dedup
  by_cases original : bar.revisionState = .original
  · rw [if_pos original]
    simp [resolveBarGroup, addUnique, hashCount, checkChain, original, refuse, alone, ok_bind]
  · rw [if_neg original]
    simp [resolveBarGroup, addUnique, hashCount, checkChain, original, refuse, alone, ok_bind]

/-- Bars of different open times are groups of their own. -/
theorem openTimeGroups_apart (apart : kept.Pairwise fun first second => first.openTimeUtcMs < second.openTimeUtcMs) :
    openTimeGroups kept = kept.map fun bar => [bar] := by
  induction kept with
  | nil => rfl
  | cons bar rest ih =>
      have tail := ih (List.pairwise_cons.mp apart).2
      cases rest with
      | nil => rfl
      | cons next rest =>
          have before := (List.pairwise_cons.mp apart).1 next List.mem_cons_self
          rw [openTimeGroups] at tail ⊢
          rw [Runs.splitBy_cons, tail, List.map_cons, Runs.attach, if_neg]
          · rfl
          · rw [decide_eq_true_eq]
            exact before.ne'

/-- The state after bars that are all kept. -/
def Selection.keeping (state : Selection) (bars : List CanonicalBar) : Selection :=
  { state with
    kept := state.kept ++ bars
    previousClose := (bars.getLast?.map (·.closeTimeUtcMs)).or state.previousClose }

theorem select_single (original : bar.revisionState = .original)
    (admitted : policy = "ALLOW_OPEN" ∨ bar.finality = .final)
    (behind : ∀ close, state.previousClose = some close → close < bar.openTimeUtcMs) :
    selectGroup policy state [bar] = .ok (state.keeping [bar]) := by
  have free : ¬ state.previousClose.any (bar.openTimeUtcMs ≤ ·) = true := by
    cases last : state.previousClose with
    | none => simp
    | some close => simpa using behind close last
  unfold selectGroup
  rw [List.head?_cons]
  dsimp only
  rw [resolve_single, if_pos original, ok_bind]
  dsimp only
  rw [refuse, if_neg free, ok_bind, if_pos admitted]
  simp [Selection.keeping]

/-- Original bars that follow one another and that the policy admits are all kept. -/
theorem select_singles (original : ∀ bar ∈ kept, bar.revisionState = .original)
    (admitted : ∀ bar ∈ kept, policy = "ALLOW_OPEN" ∨ bar.finality = .final)
    (ordered : kept.Pairwise fun first second => first.closeTimeUtcMs < second.openTimeUtcMs)
    (behind : ∀ bar ∈ kept, ∀ close, state.previousClose = some close → close < bar.openTimeUtcMs) :
    (kept.map fun bar => [bar]).foldlM (selectGroup policy) state = .ok (state.keeping kept) := by
  induction kept generalizing state with
  | nil =>
      rw [List.map_nil, List.foldlM_nil, Selection.keeping, List.append_nil]
      rfl
  | cons bar rest ih =>
      rw [List.forall_mem_cons] at original admitted behind
      obtain ⟨before, tail⟩ := List.pairwise_cons.mp ordered
      have next : ∀ other ∈ rest, ∀ close, (state.keeping [bar]).previousClose = some close →
          close < other.openTimeUtcMs := by
        intro other member close last
        obtain rfl : bar.closeTimeUtcMs = close := Option.some.inj last
        exact before other member
      rw [List.map_cons, List.foldlM_cons, select_single original.1 admitted.1 behind.1, ok_bind,
        ih original.2 admitted.2 tail next]
      congr 1
      simp only [Selection.keeping, List.append_assoc, List.singleton_append, List.getLast?_cons]
      cases rest.getLast? <;> rfl

/-- What the checks of the loop say of a bar, whatever is in front of it. -/
theorem admitBar_ok : admitBar scope previous bar = .ok () ↔
    admitBar scope none bar = .ok () ∧ ¬ previous.any (bar.openTimeUtcMs < ·) = true := by
  unfold admitBar
  split_ifs <;> simp_all

theorem admittedFrom_ascending (each : ∀ bar ∈ kept, admitBar scope none bar = .ok ())
    (apart : kept.Pairwise fun first second => first.openTimeUtcMs < second.openTimeUtcMs)
    (behind : ∀ bar ∈ kept, ∀ time, previous = some time → time ≤ bar.openTimeUtcMs) :
    AdmittedFrom scope previous kept := by
  induction kept generalizing previous with
  | nil => trivial
  | cons bar rest ih =>
      rw [List.forall_mem_cons] at each behind
      obtain ⟨before, tail⟩ := List.pairwise_cons.mp apart
      refine ⟨admitBar_ok.mpr ⟨each.1, ?_⟩, ih each.2 tail ?_⟩
      · cases previous with
        | none => simp
        | some time => simpa using behind.1 time rfl
      · intro other member time same
        obtain rfl := Option.some.inj same
        exact (before other member).le

theorem each_admitted (admitted : AdmittedFrom scope previous bars) :
    ∀ bar ∈ bars, admitBar scope none bar = .ok () := by
  induction bars generalizing previous with
  | nil => simp
  | cons bar rest ih => exact List.forall_mem_cons.mpr ⟨(admitBar_ok.mp admitted.1).1, ih admitted.2⟩

/-- The bar that is kept of a group: its last unique one, unless it is revoked or not final. -/
def keptOf (policy : String) (group : List CanonicalBar) : Option CanonicalBar :=
  (group.foldl addUnique []).getLast?.filter fun bar =>
    bar.revisionState ≠ .revoked ∧ (policy = "ALLOW_OPEN" ∨ bar.finality = .final)

theorem resolved_selected {group : List CanonicalBar} {resolved : Resolution}
    (done : resolveBarGroup openTime group = .ok resolved) :
    resolved.selected = (group.foldl addUnique []).getLast?.filter (·.revisionState ≠ .revoked) := by
  unfold resolveBarGroup at done
  dsimp only at done
  obtain ⟨_, _, done⟩ := bind_eq_ok.mp done
  obtain ⟨_, _, done⟩ := bind_eq_ok.mp done
  split at done
  · cases done
  · rename_i last found
    obtain rfl := pure_eq_ok.mp done
    dsimp only
    rw [found, Option.filter_some]
    by_cases revoked : last.revisionState = .revoked
    · simp [revoked]
    · simp [revoked]

theorem kept_step {group : List CanonicalBar} (step : selectGroup policy state group = .ok final) :
    final.kept = state.kept ++ (keptOf policy group).toList := by
  unfold selectGroup at step
  split at step
  swap
  · cases step
  obtain ⟨resolved, done, step⟩ := bind_eq_ok.mp step
  have chosen := resolved_selected done
  have same : keptOf policy group = resolved.selected.filter fun bar =>
      policy = "ALLOW_OPEN" ∨ bar.finality = .final := by
    rw [chosen, Option.filter_filter, keptOf]
    simp [Bool.and_comm]
  split at step
  · rename_i nothing
    obtain rfl := pure_eq_ok.mp step
    rw [same, nothing]
    exact (List.append_nil _).symm
  · rename_i selected found
    obtain ⟨_, _, step⟩ := bind_eq_ok.mp step
    obtain rfl := pure_eq_ok.mp step
    rw [same, found, Option.filter_some]
    dsimp only
    by_cases admitted : policy = "ALLOW_OPEN" ∨ selected.finality = .final
    · rw [if_pos admitted, if_pos (decide_eq_true admitted)]
      rfl
    · rw [if_neg admitted, if_neg (by simpa using admitted)]
      exact (List.append_nil _).symm

theorem kept_run {groups : List (List CanonicalBar)}
    (selected : groups.foldlM (selectGroup policy) state = .ok final) :
    final.kept = state.kept ++ groups.filterMap (keptOf policy) := by
  induction groups generalizing state with
  | nil =>
      obtain rfl := pure_eq_ok.mp selected
      exact (List.append_nil _).symm
  | cons group groups ih =>
      rw [List.foldlM_cons, bind_eq_ok] at selected
      obtain ⟨middle, step, rest⟩ := selected
      rw [ih rest, kept_step step, List.filterMap_cons, List.append_assoc]
      cases keptOf policy group <;> rfl

theorem keptOf_ok {group : List CanonicalBar} (found : keptOf policy group = some bar) :
    bar ∈ group ∧ (group.foldl addUnique []).getLast? = some bar ∧ bar.revisionState ≠ .revoked ∧
      (policy = "ALLOW_OPEN" ∨ bar.finality = .final) := by
  obtain ⟨last, own⟩ := Option.filter_eq_some_iff.mp found
  obtain ⟨valid, admitted⟩ := of_decide_eq_true own
  exact ⟨unique_subset group (List.mem_of_getLast? last), last, valid, admitted⟩

end Singles

section Rebuilding

variable [PyText] [SnapshotContracts] {D : Type} [PyDecimal D] {call again : SnapshotArguments}
  {scope : SnapshotScope} {selection : Selection} {bars : List CanonicalBar} {snapshot validated : DataSnapshot}

def SnapshotScope.payload (scope : SnapshotScope) (metadata : EnvelopeMetadata) (kept : List CanonicalBar)
    (createdAt : Int) : SnapshotPayload where
  schemaId := "openpine.marketdata.v2"
  metadata
  kind := "snapshot"
  body := scope.body kept createdAt

omit [PyText] in
/-- What packing takes from the call: the time, the commit and the stack. -/
structure Packed (call : SnapshotArguments) (scope : SnapshotScope) (selection : Selection)
    (metadata : EnvelopeMetadata) (snapshot : DataSnapshot) : Prop where
  time : 0 ≤ call.clock
  described : envelopeMetadata call.producerCommit call.stackId call.clock = .ok metadata
  valid : SnapshotContracts.validateSnapshot
    (sealedSnapshot (scope.payload metadata selection.kept call.clock)) = none
  verified : SnapshotContracts.verifySnapshot
    (sealedSnapshot (scope.payload metadata selection.kept call.clock)) = true
  result : snapshot = {
    snapshotEnvelope := sealedSnapshot (scope.payload metadata selection.kept call.clock)
    bars := selection.kept
    coverage := (coverageMetadata selection.kept scope.query.startUtcMs scope.query.endUtcMs).1
    duplicates := selection.duplicates
    revisionChains := selection.revisionChains }

omit [PyText] in
theorem packSnapshot_eq_ok : packSnapshot call scope selection = .ok snapshot ↔
    ∃ metadata, Packed call scope selection metadata snapshot := by
  constructor
  · intro packed
    obtain ⟨createdAt, clock, packed⟩ := bind_eq_ok.mp packed
    obtain ⟨metadata, described, packed⟩ := bind_eq_ok.mp packed
    obtain ⟨sealed, sealing, packed⟩ := bind_eq_ok.mp packed
    obtain rfl := pure_eq_ok.mp packed
    obtain ⟨_, valid, sealing⟩ := bind_eq_ok.mp sealing
    obtain ⟨_, verified, sealing⟩ := bind_eq_ok.mp sealing
    obtain rfl := pure_eq_ok.mp sealing
    obtain rfl := integerField_int clock
    have passed := refuse_eq_ok.mp verified
    rw [Bool.not_eq_false] at passed
    refine ⟨metadata, ?_, described, refuseText_eq_ok.mp valid, passed, rfl⟩
    rw [integerField] at clock
    split_ifs at clock with negative
    exact not_lt.mp negative
  · rintro ⟨metadata, time, described, valid, verified, rfl⟩
    have clock : integerField "created_at_utc_ms" (.int call.clock) = .ok call.clock := if_neg (not_lt.mpr time)
    refine bind_eq_ok.mpr ⟨_, clock, bind_eq_ok.mpr ⟨_, described, bind_eq_ok.mpr ⟨_, ?_, rfl⟩⟩⟩
    refine bind_eq_ok.mpr ⟨(), refuseText_eq_ok.mpr valid, bind_eq_ok.mpr ⟨(), refuse_eq_ok.mpr ?_, rfl⟩⟩
    rw [Bool.not_eq_false]
    exact verified

omit [PyText] in
theorem envelopeMetadata_ok {producerCommit stackId : String} {createdAt : Int} {metadata : EnvelopeMetadata}
    (described : envelopeMetadata producerCommit stackId createdAt = .ok metadata) :
    metadata.producerCommit = producerCommit ∧ metadata.stackId = stackId := by
  obtain ⟨_, _, described⟩ := bind_eq_ok.mp described
  obtain ⟨_, _, described⟩ := bind_eq_ok.mp described
  obtain rfl := pure_eq_ok.mp described
  exact ⟨rfl, rfl⟩

omit [SnapshotContracts] in
theorem checkArguments_revision (checked : checkArguments call = .ok scope) :
    normalizeProviderRevision (knownRevision scope.providerRevision) = .ok scope.providerRevision := by
  obtain ⟨_, _, checked⟩ := bind_eq_ok.mp checked
  obtain ⟨_, _, checked⟩ := bind_eq_ok.mp checked
  obtain ⟨_, _, checked⟩ := bind_eq_ok.mp checked
  obtain ⟨_, revision, checked⟩ := bind_eq_ok.mp checked
  obtain ⟨_, _, checked⟩ := bind_eq_ok.mp checked
  obtain ⟨_, _, checked⟩ := bind_eq_ok.mp checked
  obtain ⟨_, _, checked⟩ := bind_eq_ok.mp checked
  obtain ⟨_, _, checked⟩ := bind_eq_ok.mp checked
  obtain rfl := pure_eq_ok.mp checked
  exact normalizeProviderRevision_known revision

omit [SnapshotContracts] in
/-- The checked arguments pass the checks again. -/
theorem checkArguments_again (checked : checkArguments call = .ok scope) :
    checkArguments { call with
      snapshotId := scope.snapshotId
      instrumentId := scope.query.instrumentId
      timeframe := scope.query.timeframe
      providerRevision := knownRevision scope.providerRevision
      startUtcMs := scope.query.startUtcMs
      endUtcMs := scope.query.endUtcMs
      finalityPolicy := scope.query.finalityPolicy } = .ok scope := by
  have revisions := checkArguments_revision checked
  obtain ⟨_, first, checked⟩ := bind_eq_ok.mp checked
  obtain ⟨_, instrument, checked⟩ := bind_eq_ok.mp checked
  obtain ⟨_, timeframe, checked⟩ := bind_eq_ok.mp checked
  obtain ⟨_, revision, checked⟩ := bind_eq_ok.mp checked
  obtain ⟨_, start, checked⟩ := bind_eq_ok.mp checked
  obtain ⟨_, stop, checked⟩ := bind_eq_ok.mp checked
  obtain ⟨_, ordered, checked⟩ := bind_eq_ok.mp checked
  obtain ⟨_, policy, checked⟩ := bind_eq_ok.mp checked
  obtain rfl := pure_eq_ok.mp checked
  obtain rfl := requiredText_text first
  obtain rfl := requiredText_text instrument
  have named : call.timeframe = _ := FieldValue.text.inj (canonicalTimeframeField_ok timeframe).1
  subst named
  obtain rfl := integerField_int start
  obtain rfl := integerField_int stop
  exact bind_eq_ok.mpr ⟨_, first, bind_eq_ok.mpr ⟨_, instrument, bind_eq_ok.mpr ⟨_, timeframe,
    bind_eq_ok.mpr ⟨_, revisions, bind_eq_ok.mpr ⟨_, start, bind_eq_ok.mpr ⟨_, stop, bind_eq_ok.mpr ⟨_, ordered,
      bind_eq_ok.mpr ⟨_, policy, rfl⟩⟩⟩⟩⟩⟩⟩⟩

/-- A build from normalized bars, step by step. -/
theorem buildDataSnapshot_bars (each : ∀ bar ∈ bars, normalizeSnapshotBar D bar.mapping = .ok bar)
    (given : call.bars = bars.map fun bar => some bar.mapping) :
    buildDataSnapshot D call = .ok snapshot ↔ ∃ scope selection, checkArguments call = .ok scope ∧
      AdmittedFrom scope none bars ∧
      (openTimeGroups bars).foldlM (selectGroup scope.query.finalityPolicy) ⟨[], [], [], none⟩ = .ok selection ∧
      packSnapshot call scope selection = .ok snapshot := by
  unfold buildDataSnapshot
  have run (scope : SnapshotScope) (normalized : List CanonicalBar) :
      call.bars.foldlM (normalizeNext D scope) [] = .ok normalized ↔
        AdmittedFrom scope none bars ∧ normalized = bars := by
    rw [given]
    exact normalizeNext_run each
  simp only [bind_eq_ok, run]
  constructor
  · rintro ⟨scope, checked, _, ⟨admitted, rfl⟩, selection, selected, packed⟩
    exact ⟨scope, selection, checked, admitted, selected, packed⟩
  · rintro ⟨scope, selection, checked, admitted, selected, packed⟩
    exact ⟨scope, checked, bars, ⟨admitted, rfl⟩, selection, selected, packed⟩

/-- What a build keeps, in the words of its bars. -/
structure Kept (scope : SnapshotScope) (bars kept : List CanonicalBar) : Prop where
  chosen : kept = (openTimeGroups bars).filterMap (keptOf scope.query.finalityPolicy)
  ordered : kept.Pairwise fun first second => first.closeTimeUtcMs < second.openTimeUtcMs
  apart : kept.Pairwise fun first second => first.openTimeUtcMs < second.openTimeUtcMs
  admitted : ∀ bar ∈ kept, admitBar scope none bar = .ok ()
  policy : ∀ bar ∈ kept, scope.query.finalityPolicy = "ALLOW_OPEN" ∨ bar.finality = .final
  member : ∀ bar ∈ kept, bar ∈ bars

theorem kept_of_selected (each : ∀ bar ∈ bars, normalizeSnapshotBar D bar.mapping = .ok bar)
    (admitted : AdmittedFrom scope none bars)
    (selected : (openTimeGroups bars).foldlM (selectGroup scope.query.finalityPolicy) ⟨[], [], [], none⟩ =
      .ok selection) : Kept scope bars selection.kept := by
  have own := each_admitted admitted
  have inside : ∀ bar ∈ bars, InRange scope.query.startUtcMs scope.query.endUtcMs bar := fun bar member =>
    admitBar_inRange (normalizeSnapshotBar_close (each bar member)) (own bar member)
  have kept : KeptInOrder scope.query.startUtcMs scope.query.endUtcMs selection :=
    foldlM_keeps (fun group member _ _ kept step => kept.selectGroup member inside step)
      ⟨by simp, .nil, by simp⟩ selected
  have chosen := kept_run selected
  rw [List.nil_append] at chosen
  have member : ∀ bar ∈ selection.kept, bar ∈ bars ∧
      (scope.query.finalityPolicy = "ALLOW_OPEN" ∨ bar.finality = .final) := by
    intro bar among
    rw [chosen] at among
    obtain ⟨group, groups, found⟩ := List.mem_filterMap.mp among
    obtain ⟨inGroup, _, _, policy⟩ := keptOf_ok found
    exact ⟨mem_of_mem_group groups inGroup, policy⟩
  refine ⟨chosen, kept.ordered, ?_, ?_, fun bar among => (member bar among).2, fun bar among => (member bar among).1⟩
  · apply kept.ordered.imp_of_mem
    intro first second among _ before
    have long := (kept.inside first among).long
    omega
  · exact fun bar among => own bar (member bar among).1

omit [PyText] in
theorem checkSealed_ok {envelope : SnapshotEnvelope} (valid : SnapshotContracts.validateSnapshot envelope = none)
    (verified : SnapshotContracts.verifySnapshot envelope = true) (kind : envelope.kind = "snapshot") :
    checkSealed envelope = .ok () := by
  unfold checkSealed
  simp [refuse, valid, verified, kind, ok_bind]

omit [PyText] [SnapshotContracts] in
theorem equalsKnown_knownRevision (revision : String) :
    (knownRevision revision).equalsKnown revision = true := by
  simp [RevisionInput.equalsKnown, knownRevision, List.lookup_cons, FieldValue.equalsTrue]

omit [PyText] [SnapshotContracts] in
theorem checkRepeated_mapping
    (revision : normalizeProviderRevision (knownRevision snapshot.body.providerRevision) =
      .ok snapshot.body.providerRevision) :
    checkRepeated snapshot.mapping (knownRevision snapshot.body.providerRevision) snapshot.body =
      .ok (snapshot.body.providerRevision, snapshot.body.createdAtUtcMs) := by
  unfold checkRepeated
  rw [show readCreatedAt snapshot.mapping.createdAtUtcMs = .ok snapshot.body.createdAtUtcMs from rfl, ok_bind,
    revision, ok_bind, equalsKnown_knownRevision]
  simp [refuse, DataSnapshot.mapping, DataSnapshot.seriesHash, ok_bind]

/-- A sealed result is accepted when it is what the builder makes of its kept bars. -/
theorem validate_mapping (sealed : checkSealed snapshot.snapshotEnvelope = .ok ())
    (revision : normalizeProviderRevision (knownRevision snapshot.body.providerRevision) =
      .ok snapshot.body.providerRevision) :
    validateCanonicalSnapshot D snapshot.mapping = .ok validated ↔
      buildDataSnapshot D (snapshot.snapshotEnvelope.arguments snapshot.body.providerRevision
        snapshot.body.createdAtUtcMs (snapshot.bars.map fun bar => some bar.mapping)) = .ok validated ∧
      validated.snapshotEnvelope = snapshot.snapshotEnvelope := by
  have repeated := checkRepeated_mapping revision
  unfold validateCanonicalSnapshot
  simp only [DataSnapshot.mapping] at repeated ⊢
  change (checkSealed snapshot.snapshotEnvelope >>= fun _ => checkRepeated _ _ snapshot.body >>= _) = _ ↔ _
  rw [sealed, ok_bind, repeated, ok_bind]
  simp only [bind_eq_ok, refuse_eq_ok, pure_eq_ok, exists_const, ne_eq, not_not]
  constructor
  · rintro ⟨made, built, same, rfl⟩
    exact ⟨built, same⟩
  · rintro ⟨built, same⟩
    exact ⟨validated, built, same, rfl⟩

/-- What the checks in front of the second build say of a result. -/
theorem packed_checks {metadata : EnvelopeMetadata} (checked : checkArguments call = .ok scope)
    (packed : Packed call scope selection metadata snapshot) :
    checkSealed snapshot.snapshotEnvelope = .ok () ∧
      normalizeProviderRevision (knownRevision snapshot.body.providerRevision) =
        .ok snapshot.body.providerRevision := by
  obtain ⟨_, _, valid, verified, rfl⟩ := packed
  exact ⟨checkSealed_ok valid verified rfl, checkArguments_revision checked⟩

/-- The kept bars are kept again when they are original ones. -/
theorem rebuilt_of_original {metadata : EnvelopeMetadata} (kept : Kept scope bars selection.kept)
    (inside : ∀ bar ∈ selection.kept, normalizeSnapshotBar D bar.mapping = .ok bar)
    (checked : checkArguments call = .ok scope) (packed : Packed call scope selection metadata snapshot)
    (original : ∀ bar ∈ snapshot.bars, bar.revisionState = .original) :
    buildDataSnapshot D (snapshot.snapshotEnvelope.arguments snapshot.body.providerRevision
      snapshot.body.createdAtUtcMs (snapshot.bars.map fun bar => some bar.mapping)) =
        .ok { snapshot with duplicates := [], revisionChains := [] } := by
  obtain ⟨time, described, valid, verified, rfl⟩ := packed
  obtain ⟨commit, stack⟩ := envelopeMetadata_ok described
  rw [buildDataSnapshot_bars inside rfl]
  refine ⟨scope, Selection.keeping ⟨[], [], [], none⟩ selection.kept, checkArguments_again checked,
    admittedFrom_ascending kept.admitted kept.apart (by simp), ?_, ?_⟩
  · rw [openTimeGroups_apart kept.apart]
    exact select_singles original kept.policy kept.ordered (by simp)
  · apply packSnapshot_eq_ok.mpr
    refine ⟨metadata, time, ?_, valid, verified, rfl⟩
    change envelopeMetadata metadata.producerCommit metadata.stackId call.clock = .ok metadata
    rw [commit, stack]
    exact described

/-- Each kept bar begins a chain of its own in the second build, so it is original. -/
theorem original_of_rebuilt {metadata : EnvelopeMetadata} (kept : Kept scope bars selection.kept)
    (inside : ∀ bar ∈ selection.kept, normalizeSnapshotBar D bar.mapping = .ok bar)
    (packed : Packed call scope selection metadata snapshot)
    (rebuilt : buildDataSnapshot D (snapshot.snapshotEnvelope.arguments snapshot.body.providerRevision
      snapshot.body.createdAtUtcMs (snapshot.bars.map fun bar => some bar.mapping)) = .ok validated) :
    ∀ bar ∈ snapshot.bars, bar.revisionState = .original := by
  obtain ⟨time, described, valid, verified, rfl⟩ := packed
  rw [buildDataSnapshot_bars inside rfl] at rebuilt
  obtain ⟨_, reselection, _, _, reselected, _⟩ := rebuilt
  rw [openTimeGroups_apart kept.apart] at reselected
  intro bar among
  have single : [bar] ∈ selection.kept.map fun bar => [bar] := List.mem_map_of_mem among
  obtain ⟨openTime, resolved, done⟩ := selectedOnce_of_run reselected [bar] single
  by_contra later
  rw [resolve_single, if_neg later] at done
  cases done

/-- A snapshot of normalized bars is accepted exactly when its kept bars are original ones; it is rebuilt
then but for the duplicates and the revision chains. -/
theorem validated_iff_original (each : ∀ bar ∈ bars, normalizeSnapshotBar D bar.mapping = .ok bar)
    (given : call.bars = bars.map fun bar => some bar.mapping) (built : buildDataSnapshot D call = .ok snapshot) :
    validateCanonicalSnapshot D snapshot.mapping = .ok validated ↔
      (∀ bar ∈ snapshot.bars, bar.revisionState = .original) ∧
        validated = { snapshot with duplicates := [], revisionChains := [] } := by
  obtain ⟨scope, selection, checked, admitted, selected, packed⟩ := (buildDataSnapshot_bars each given).mp built
  have kept := kept_of_selected each admitted selected
  obtain ⟨metadata, packed⟩ := packSnapshot_eq_ok.mp packed
  obtain ⟨sealed, revision⟩ := packed_checks checked packed
  have inside : ∀ bar ∈ selection.kept, normalizeSnapshotBar D bar.mapping = .ok bar := fun bar among =>
    each bar (kept.member bar among)
  rw [validate_mapping sealed revision]
  constructor
  · rintro ⟨rebuilt, _⟩
    have original := original_of_rebuilt kept inside packed rebuilt
    exact ⟨original, Except.ok.inj (rebuilt.symm.trans (rebuilt_of_original kept inside checked packed original))⟩
  · rintro ⟨original, rfl⟩
    exact ⟨rebuilt_of_original kept inside checked packed original, rfl⟩

end Rebuilding

end MarketdataProvider
