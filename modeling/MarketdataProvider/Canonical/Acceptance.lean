import MarketdataProvider.Canonical.Validation

namespace MarketdataProvider

open Foundation

section Latest

variable {openTime : Int} {group bars : List CanonicalBar} {bar last : CanonicalBar} {resolved : Resolution}

/-- The last unique bar of a resolved group has the highest revision in it. -/
theorem below_last (done : resolveBarGroup openTime group = .ok resolved) (distinct : NoCollision group)
    (found : (group.foldl addUnique []).getLast? = some last) :
    ∀ bar ∈ group, bar.revision < last.revision ∨ barIdentityPayload bar = barIdentityPayload last := by
  intro bar member
  have ascending := (checkChain_ascending (resolveBarGroup_checked done)).2
  obtain ⟨front, whole⟩ := List.getLast?_eq_some_iff.mp found
  obtain ⟨other, inside, same⟩ := exists_unique group bar member
  have identity := distinct other (unique_subset group inside) bar member same
  rw [whole] at ascending inside
  rcases List.mem_append.mp inside with early | own
  · have lower := (List.pairwise_append.mp ascending).2.2 other early last List.mem_cons_self
    have revisions : other.revision = bar.revision := congrArg BarIdentity.revision identity
    exact .inl (revisions ▸ lower)
  · rw [List.mem_singleton.mp own] at identity
    exact .inr identity.symm

theorem last_of_mem (member : bar ∈ group) : ∃ last, (group.foldl addUnique []).getLast? = some last := by
  obtain ⟨other, inside, _⟩ := exists_unique group bar member
  exact ⟨_, List.getLast?_eq_some_getLast (List.ne_nil_of_mem inside)⟩

/-- A bar has one group among bars in the order of their times. -/
theorem group_unique {other : List CanonicalBar}
    (sorted : bars.Pairwise fun left right => left.openTimeUtcMs ≤ right.openTimeUtcMs)
    (first : group ∈ openTimeGroups bars) (second : other ∈ openTimeGroups bars) (inside : bar ∈ group)
    (among : bar ∈ other) : group = other := by
  by_contra different
  have ascending := Runs.splitBy_ascending sameOpen_alike sorted
  let apart (left right : List CanonicalBar) : Prop := bar ∈ left → bar ∉ right
  have separate : (openTimeGroups bars).Pairwise apart := ascending.imp fun before left right =>
    (before bar left bar right).false
  have : Std.Symm apart := ⟨fun _ _ known right left => known left right⟩
  exact separate.forall first second different inside among

end Latest

section Public

variable [PyText] [PublicContracts] {D : Type} [PyDecimal D] {call : PublicArguments} {expected snapshotId : String}
  {raw : List ProviderRawBar} {item : ProviderRawBar} {bars : List CanonicalBar} {bar : CanonicalBar}
  {snapshot : DataSnapshot}

omit [PublicContracts] in
theorem checkArguments_policy {call : SnapshotArguments} {scope : SnapshotScope}
    (checked : checkArguments call = .ok scope) : scope.query.finalityPolicy = call.finalityPolicy := by
  obtain ⟨_, _, checked⟩ := bind_eq_ok.mp checked
  obtain ⟨_, _, checked⟩ := bind_eq_ok.mp checked
  obtain ⟨_, _, checked⟩ := bind_eq_ok.mp checked
  obtain ⟨_, _, checked⟩ := bind_eq_ok.mp checked
  obtain ⟨_, _, checked⟩ := bind_eq_ok.mp checked
  obtain ⟨_, _, checked⟩ := bind_eq_ok.mp checked
  obtain ⟨_, _, checked⟩ := bind_eq_ok.mp checked
  obtain ⟨_, _, checked⟩ := bind_eq_ok.mp checked
  obtain rfl := pure_eq_ok.mp checked
  rfl

/-- What a bar and its raw bar have in common. -/
structure Pictures (item : ProviderRawBar) (bar : CanonicalBar) : Prop where
  openTime : bar.openTimeUtcMs = item.openTimeUtcMs
  revision : bar.revision = item.revision
  state : bar.revisionState = item.revisionState
  finality : bar.finality = item.finality

theorem pictures_of_made {hash : Option String} (made : makeRaw D call expected snapshotId hash item = .ok bar) :
    Pictures item bar := by
  have known := makeRaw_ok made
  obtain ⟨draft, drafted, _, _, rfl⟩ := makeCanonicalBar_eq_ok.mp made
  exact ⟨known.openTime, known.revision, known.state, (Except.ok.inj drafted.finality).symm⟩

/-- The bars of a build with what the proofs need of them. -/
structure BuiltFrom (raw : List ProviderRawBar) (bars : List CanonicalBar) : Prop where
  ofBar : ∀ bar ∈ bars, ∃ item ∈ raw, Pictures item bar
  ofRaw : ∀ item ∈ raw, ∃ bar ∈ bars, Pictures item bar
  sorted : bars.Pairwise fun left right => left.openTimeUtcMs ≤ right.openTimeUtcMs

theorem builtFrom_canonicalized
    (made : canonicalize D call expected snapshotId none none (orderRaw raw) = .ok bars) : BuiltFrom raw bars := by
  have start : canonicalize D call expected snapshotId ((none : Option CanonicalBar).map (·.openTimeUtcMs))
      ((none : Option CanonicalBar).map (·.hash)) (orderRaw raw) = .ok bars := made
  have pairs := (canonicalize_ok start).2
  refine ⟨?_, ?_, ?_⟩
  · intro bar member
    obtain ⟨item, inside, _, own⟩ := Runs.exists_of_forall₂ pairs.flip member
    exact ⟨item, (orderRaw_perm raw).mem_iff.mp inside, pictures_of_made own⟩
  · intro item member
    obtain ⟨bar, inside, _, own⟩ := Runs.exists_of_forall₂ pairs ((orderRaw_perm raw).mem_iff.mpr member)
    exact ⟨bar, inside, pictures_of_made own⟩
  · apply Runs.pairwise_of_forall₂ pairs.flip (orderRaw_sorted raw)
    rintro first second left right ⟨_, one⟩ ⟨_, two⟩ before
    rw [(pictures_of_made one).openTime, (pictures_of_made two).openTime]
    rcases Prod.Lex.le_iff.mp before with less | ⟨equal, _⟩
    · exact less.le
    · exact equal.le

theorem noCollision_renamed (free : CollisionFree D call raw)
    (revision : normalizeProviderRevision call.providerRevision = .ok expected) {pending : List CanonicalBar}
    (pended : canonicalize D call expected "pending" none none (orderRaw raw) = .ok pending)
    (made : canonicalize D call expected snapshotId none none (orderRaw raw) = .ok bars) : NoCollision bars := by
  rw [canonicalize_renamed pended made]
  intro first inside second among same
  obtain ⟨left, leftMember, rfl⟩ := List.mem_map.mp inside
  obtain ⟨right, rightMember, rfl⟩ := List.mem_map.mp among
  exact free expected pending revision pended left leftMember right rightMember same

/-- A raw bar with the highest revision of its time. -/
def Latest (raw : List ProviderRawBar) (item : ProviderRawBar) : Prop :=
  ∀ other ∈ raw, other.openTimeUtcMs = item.openTimeUtcMs → other.revision ≤ item.revision

omit [PyText] [PublicContracts] in
/-- The kept bars are original exactly when no latest raw bar is a correction that the policy admits. -/
theorem kept_original_iff {policy : String} (from' : BuiltFrom raw bars) (distinct : NoCollision bars)
    (selected : SelectedOnce bars) :
    (∀ bar ∈ (openTimeGroups bars).filterMap (keptOf policy), bar.revisionState = .original) ↔
      ∀ item ∈ raw, Latest raw item → item.revisionState = .corrected →
        policy ≠ "ALLOW_OPEN" ∧ item.finality ≠ .final := by
  have inGroup {group : List CanonicalBar} (member : group ∈ openTimeGroups bars) : NoCollision group :=
    fun first inside second among => distinct first (mem_of_mem_group member inside) second
      (mem_of_mem_group member among)
  constructor
  · intro original item member latest corrected
    obtain ⟨bar, inside, pictures⟩ := from'.ofRaw item member
    obtain ⟨group, groups, own, _⟩ := Runs.splitBy_same_run sameOpen_alike from'.sorted inside inside rfl
    obtain ⟨openTime, resolved, done⟩ := selected group groups
    obtain ⟨last, found⟩ := last_of_mem own
    have lastMember := unique_subset group (List.mem_of_getLast? found)
    have identity : barIdentityPayload bar = barIdentityPayload last := by
      rcases below_last done (inGroup groups) found bar own with lower | same
      · obtain ⟨other, others, shown⟩ := from'.ofBar last (mem_of_mem_group groups lastMember)
        have opens := openTime_of_mem_group groups last lastMember bar own
        have highest := latest other others (by rw [← shown.openTime, opens, pictures.openTime])
        rw [← shown.revision, ← pictures.revision] at highest
        omega
      · exact same
    have state : last.revisionState = .corrected := by
      rw [← state_of_identity identity, pictures.state, corrected]
    have finality : last.finality = item.finality := by
      rw [← pictures.finality]
      exact (Finality.value_injective (congrArg BarIdentity.finality identity)).symm
    by_contra admitted
    have kept : keptOf policy group = some last := by
      rw [keptOf, found, Option.filter_some, if_pos]
      rw [decide_eq_true_eq, state, finality]
      exact ⟨by decide, by tauto⟩
    have own := original last (List.mem_filterMap.mpr ⟨group, groups, kept⟩)
    rw [state] at own
    cases own
  · intro none' bar kept
    obtain ⟨group, groups, found⟩ := List.mem_filterMap.mp kept
    obtain ⟨own, last, valid, policy⟩ := keptOf_ok found
    obtain ⟨item, member, pictures⟩ := from'.ofBar bar (mem_of_mem_group groups own)
    cases state : bar.revisionState with
    | original => rfl
    | revoked => exact absurd state valid
    | corrected =>
        have latest : Latest raw item := by
          intro other others opens
          obtain ⟨second, inside, shown⟩ := from'.ofRaw other others
          have same : bar.openTimeUtcMs = second.openTimeUtcMs := by rw [pictures.openTime, shown.openTime, opens]
          obtain ⟨together, among, left, right⟩ := Runs.splitBy_same_run sameOpen_alike from'.sorted
            (mem_of_mem_group groups own) inside same
          obtain rfl := group_unique from'.sorted groups among own left
          obtain ⟨openTime, resolved, done⟩ := selected group groups
          rw [← shown.revision, ← pictures.revision]
          rcases below_last done (inGroup groups) last second right with lower | equal
          · exact lower.le
          · exact (congrArg BarIdentity.revision equal).le
        have refused := none' item member latest (by rw [← pictures.state, state])
        rw [pictures.finality] at policy
        tauto

/-- The validator accepts a snapshot of the builder, with the same envelope, bars, gaps and series hash,
exactly when no latest raw bar is a correction that the policy admits. -/
theorem canonical_snapshot_accepted_iff (sound : SoundContracts) (free : CollisionFree D call raw)
    (built : buildPublicSnapshot D call raw = .ok snapshot) :
    (∃ validated, validateCanonicalSnapshot D snapshot.mapping = .ok validated ∧
      validated.snapshotEnvelope = snapshot.snapshotEnvelope ∧ validated.bars = snapshot.bars ∧
      validated.gaps = snapshot.gaps ∧ validated.seriesHash = snapshot.seriesHash) ↔
    ∀ item ∈ raw, Latest raw item → item.revisionState = .corrected →
      call.finalityPolicy ≠ "ALLOW_OPEN" ∧ item.finality ≠ .final := by
  obtain ⟨expected, pending, bars, revision, _, pended, made, built⟩ := buildPublicSnapshot_eq_ok.mp built
  have each := normalizeSnapshotBar_canonicalized sound made
  obtain ⟨scope, selection, checked, admitted, selected, packed⟩ := (buildDataSnapshot_bars each rfl).mp built
  have chosen := (kept_of_selected each admitted selected).chosen
  rw [checkArguments_policy checked] at chosen
  have shown : snapshot.bars = (openTimeGroups bars).filterMap (keptOf call.finalityPolicy) :=
    (packSnapshot_ok packed).1.trans chosen
  rw [← kept_original_iff (builtFrom_canonicalized made) (noCollision_renamed free revision pended made)
    (selectedOnce_of_run selected), ← shown]
  constructor
  · rintro ⟨validated, accepted, _⟩
    exact ((validated_iff_original each rfl built).mp accepted).1
  · intro original
    exact ⟨_, (validated_iff_original each rfl built).mpr ⟨original, rfl⟩, rfl, rfl, rfl, rfl⟩

end Public

end MarketdataProvider

namespace MarketdataProvider

open Reference Foundation
open scoped Reference

/-- The first minute with one original bar is accepted. -/
theorem canonical_snapshot_accepted_minute :
    ∃ snapshot, buildPublicSnapshot Whole firstMinute [originalRaw] = .ok snapshot ∧
      ∃ validated, validateCanonicalSnapshot Whole snapshot.mapping = .ok validated ∧
        validated.snapshotEnvelope = snapshot.snapshotEnvelope ∧ validated.bars = snapshot.bars ∧
        validated.gaps = snapshot.gaps ∧ validated.seriesHash = snapshot.seriesHash := by
  obtain ⟨snapshot, built⟩ : ∃ snapshot, buildPublicSnapshot Whole firstMinute [originalRaw] = .ok snapshot :=
    eq_ok_of_toBool (by decide +kernel)
  have free : CollisionFree Whole firstMinute [originalRaw] := collisionFree_of_run (by decide +kernel)
  refine ⟨snapshot, built, (canonical_snapshot_accepted_iff publicContracts_sound free built).mpr ?_⟩
  intro item member _ corrected
  rw [List.mem_singleton.mp member] at corrected
  cases corrected

/-- The validator misses the bar that a kept correction supersedes. -/
theorem kept_correction_refused : ∃ snapshot,
    buildPublicSnapshot Whole firstMinute [originalRaw, correctedRaw] = .ok snapshot ∧
      validateCanonicalSnapshot Whole snapshot.mapping = .error (.mdBarConflict
        "bar content conflict at 0: revision chain is missing the preceding canonical bar") := by
  obtain ⟨snapshot, built⟩ := corrected_built
  refine ⟨snapshot, built, ?_⟩
  have refused : PyError.ofExcept (buildPublicSnapshot Whole firstMinute [originalRaw, correctedRaw] >>= fun snapshot =>
      validateCanonicalSnapshot Whole snapshot.mapping) = some (.mdBarConflict
        "bar content conflict at 0: revision chain is missing the preceding canonical bar") := by decide +kernel
  rw [built, ok_bind] at refused
  cases outcome : validateCanonicalSnapshot Whole snapshot.mapping with
  | error error =>
      rw [outcome] at refused
      rw [Option.some.inj refused]
  | ok validated =>
      rw [outcome] at refused
      cases refused

end MarketdataProvider
