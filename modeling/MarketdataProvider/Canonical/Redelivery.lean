import MarketdataProvider.Canonical.Copies

namespace MarketdataProvider

open Foundation

section Renaming

variable [BarContracts] {snapshotId : String} {openTime : Int} {group other bars : List CanonicalBar}
  {bar : CanonicalBar} {resolved : Resolution}

def renameAll (snapshotId : String) (bars : List CanonicalBar) : List CanonicalBar :=
  bars.map fun bar => bar.rename snapshotId

theorem hashes_rename (bars : List CanonicalBar) :
    (renameAll snapshotId bars).map CanonicalBar.hash = bars.map CanonicalBar.hash := by
  rw [renameAll, List.map_map]
  rfl

theorem unique_rename (group : List CanonicalBar) : (renameAll snapshotId group).foldl addUnique [] =
    renameAll snapshotId (group.foldl addUnique []) := by
  induction group using List.reverseRecOn with
  | nil => rfl
  | append_singleton front last ih =>
      rw [renameAll, List.map_append, ← renameAll, List.map_singleton, List.foldl_concat, List.foldl_concat, ih,
        addUnique, addUnique, hashes_rename, rename_hash]
      split_ifs
      · rfl
      · rw [renameAll, renameAll, List.map_append, List.map_singleton]

omit [BarContracts] in
theorem addUnique_again (unique : List CanonicalBar) (bar : CanonicalBar) :
    addUnique (addUnique unique bar) bar = addUnique unique bar := by
  have known : bar.hash ∈ (addUnique unique bar).map CanonicalBar.hash := by
    rw [addUnique]
    split_ifs with known
    · exact known
    · simp
  rw [addUnique, if_pos known]

omit [BarContracts] in
/-- A second copy of a bar right behind it is no further unique bar. -/
theorem unique_copy (left right : List CanonicalBar) (bar : CanonicalBar) :
    (left ++ bar :: bar :: right).foldl addUnique [] = (left ++ bar :: right).foldl addUnique [] := by
  rw [List.foldl_append, List.foldl_append, List.foldl_cons, List.foldl_cons, addUnique_again, List.foldl_cons]

theorem checkChain_rename (snapshotId : String) (openTime : Int) (seen : List Int) (previous : Option CanonicalBar)
    (bars : List CanonicalBar) :
    checkChain openTime seen (previous.map fun bar => bar.rename snapshotId) (renameAll snapshotId bars) =
      checkChain openTime seen previous bars := by
  induction bars generalizing seen previous with
  | nil => rfl
  | cons bar rest ih =>
      have tail := ih (bar.revision :: seen) (some bar)
      cases previous with
      | none =>
          rw [Option.map_none, renameAll, List.map_cons, ← renameAll, checkChain, checkChain]
          exact if_congr Iff.rfl rfl (if_congr Iff.rfl rfl tail)
      | some before =>
          rw [Option.map_some, renameAll, List.map_cons, ← renameAll, checkChain, checkChain]
          exact if_congr Iff.rfl rfl (if_congr Iff.rfl rfl (if_congr Iff.rfl rfl (if_congr Iff.rfl rfl tail)))

/-- A group that is resolved as another one is, up to the name of the snapshot and the duplicates. -/
structure Answers (snapshotId : String) (group other : List CanonicalBar) : Prop where
  head : other.head?.map (·.openTimeUtcMs) = group.head?.map (·.openTimeUtcMs)
  resolves : ∀ openTime resolved, resolveBarGroup openTime group = .ok resolved → ∃ answer,
    resolveBarGroup openTime other = .ok answer ∧
      answer.selected = resolved.selected.map (fun bar => bar.rename snapshotId) ∧ answer.chain = resolved.chain

/-- The unique bars of a group decide how it is resolved. -/
theorem answers_of_unique (head : other.head?.map (·.openTimeUtcMs) = group.head?.map (·.openTimeUtcMs))
    (unique : other.foldl addUnique [] = renameAll snapshotId (group.foldl addUnique [])) :
    Answers snapshotId group other := by
  refine ⟨head, ?_⟩
  intro openTime resolved done
  unfold resolveBarGroup at done ⊢
  obtain ⟨_, providers, done⟩ := bind_eq_ok.mp done
  obtain ⟨_, checked, done⟩ := bind_eq_ok.mp done
  have sameProviders : (renameAll snapshotId (group.foldl addUnique [])).map (·.provider.str) =
      (group.foldl addUnique []).map (·.provider.str) := by
    rw [renameAll, List.map_map]
    rfl
  have sameCheck := (checkChain_rename snapshotId openTime [] none (group.foldl addUnique [])).trans checked
  rw [Option.map_none] at sameCheck
  dsimp only
  rw [unique, sameProviders, providers, ok_bind, sameCheck, ok_bind]
  have last : (renameAll snapshotId (group.foldl addUnique [])).getLast? =
      (group.foldl addUnique []).getLast?.map fun bar => bar.rename snapshotId := List.getLast?_map
  rw [last]
  dsimp only at done
  split at done
  · cases done
  · rename_i selected found
    obtain rfl := pure_eq_ok.mp done
    rw [found]
    refine ⟨_, rfl, ?_, ?_⟩
    · change (if selected.revisionState = .revoked then none else some (selected.rename snapshotId)) = _
      split_ifs <;> rfl
    · simp only [renameAll, List.length_map, List.map_map]
      rfl

theorem answers_rename (group : List CanonicalBar) : Answers snapshotId group (renameAll snapshotId group) := by
  apply answers_of_unique _ (unique_rename group)
  cases group <;> rfl

theorem answers_copy (left right : List CanonicalBar) (bar : CanonicalBar) :
    Answers snapshotId (left ++ bar :: right) (renameAll snapshotId (left ++ bar :: bar :: right)) := by
  apply answers_of_unique
  · cases left <;> rfl
  · rw [unique_rename, unique_copy]

end Renaming

section Groups

variable [BarContracts] {snapshotId : String}

theorem openTimeGroups_rename (bars : List CanonicalBar) :
    openTimeGroups (renameAll snapshotId bars) = (openTimeGroups bars).map (renameAll snapshotId) := by
  rw [openTimeGroups, renameAll]
  exact Runs.splitBy_map fun _ _ => rfl

/-- Renamed bars with a second copy of one of them answer group by group. -/
theorem openTimeGroups_copy (front back : List CanonicalBar) (bar : CanonicalBar) :
    List.Forall₂ (Answers snapshotId) (openTimeGroups (front ++ bar :: back))
      (openTimeGroups (renameAll snapshotId (front ++ bar :: bar :: back))) := by
  let alike (left right : CanonicalBar) : Bool := right.openTimeUtcMs = left.openTimeUtcMs
  have same : alike bar bar = true := decide_eq_true rfl
  obtain ⟨before, left, right, after, once, twice⟩ := Runs.splitBy_copy same front back
  rw [openTimeGroups_rename, openTimeGroups, openTimeGroups, once, twice, List.map_append, List.map_cons]
  have each (groups : List (List CanonicalBar)) :
      List.Forall₂ (Answers snapshotId) groups (groups.map (renameAll snapshotId)) := by
    rw [List.forall₂_map_right_iff, List.forall₂_same]
    exact fun group _ => answers_rename group
  exact List.rel_append (each before) (.cons (answers_copy left right bar) (each after))

end Groups

section Selections

variable [BarContracts] {snapshotId policy : String} {state after other : Selection}
  {group answer : List CanonicalBar} {groups answers : List (List CanonicalBar)}

/-- Two states of the loop that differ in the name of the snapshot and in the duplicates. -/
structure Selection.Answers (snapshotId : String) (state other : Selection) : Prop where
  kept : other.kept = renameAll snapshotId state.kept
  chains : other.revisionChains = state.revisionChains
  previousClose : other.previousClose = state.previousClose

theorem Selection.Answers.step (related : state.Answers snapshotId other)
    (answered : MarketdataProvider.Answers snapshotId group answer)
    (selected : selectGroup policy state group = .ok after) :
    ∃ final, selectGroup policy other answer = .ok final ∧ after.Answers snapshotId final := by
  unfold selectGroup at selected
  split at selected
  swap
  · cases selected
  rename_i first found
  have head := answered.head
  rw [found, Option.map_some, Option.map_eq_some_iff] at head
  obtain ⟨start, begun, same⟩ := head
  obtain ⟨resolved, done, selected⟩ := bind_eq_ok.mp selected
  obtain ⟨reply, replied, chosen, chain⟩ := answered.resolves _ _ done
  unfold selectGroup
  rw [begun]
  dsimp only
  rw [same, replied, ok_bind, chosen, chain, related.chains]
  split at selected
  · rename_i none'
    obtain rfl := pure_eq_ok.mp selected
    rw [none']
    exact ⟨_, rfl, related.kept, rfl, related.previousClose⟩
  · rename_i bar some'
    obtain ⟨_, free, selected⟩ := bind_eq_ok.mp selected
    obtain rfl := pure_eq_ok.mp selected
    rw [some', Option.map_some, related.previousClose]
    dsimp only
    rw [free, ok_bind]
    refine ⟨_, rfl, ?_, rfl, rfl⟩
    change (if policy = "ALLOW_OPEN" ∨ bar.finality = .final then _ else _) = _
    rw [related.kept]
    split_ifs
    · simp only [renameAll, List.map_append, List.map_singleton]
    · rfl

theorem Selection.Answers.run (related : state.Answers snapshotId other)
    (answered : List.Forall₂ (MarketdataProvider.Answers snapshotId) groups answers)
    (selected : groups.foldlM (selectGroup policy) state = .ok after) :
    ∃ final, answers.foldlM (selectGroup policy) other = .ok final ∧ after.Answers snapshotId final := by
  induction answered generalizing state other with
  | nil =>
      obtain rfl := pure_eq_ok.mp selected
      exact ⟨other, rfl, related⟩
  | cons head rest ih =>
      rw [List.foldlM_cons, bind_eq_ok] at selected
      obtain ⟨middle, first, selected⟩ := selected
      obtain ⟨next, replied, kept⟩ := related.step head first
      obtain ⟨final, done, ended⟩ := ih kept selected
      refine ⟨final, ?_, ended⟩
      rw [List.foldlM_cons, replied, ok_bind, done]

end Selections

section Admission

variable [PyText] [SnapshotContracts] {D : Type} [PyDecimal D] {scope : SnapshotScope} {snapshotId : String}
  {bars front back normalized : List CanonicalBar} {bar : CanonicalBar} {previous : Option Int}

/-- Each bar passes the checks of the loop behind the bar in front of it. -/
def AdmittedFrom (scope : SnapshotScope) : Option Int → List CanonicalBar → Prop
  | _, [] => True
  | previous, bar :: rest => admitBar scope previous bar = .ok () ∧ AdmittedFrom scope (some bar.openTimeUtcMs) rest

/-- Normalized bars pass the loop as they are. -/
theorem normalizeNext_run (each : ∀ bar ∈ bars, normalizeSnapshotBar D bar.mapping = .ok bar) :
    (bars.map fun bar => some bar.mapping).foldlM (normalizeNext D scope) front = .ok normalized ↔
      AdmittedFrom scope (front.getLast?.map (·.openTimeUtcMs)) bars ∧ normalized = front ++ bars := by
  induction bars generalizing front with
  | nil =>
      rw [List.map_nil, List.foldlM_nil, pure_eq_ok, List.append_nil, eq_comm]
      exact ⟨fun known => ⟨trivial, known⟩, And.right⟩
  | cons bar rest ih =>
      have own := each bar List.mem_cons_self
      have others : (rest.map fun bar => some bar.mapping).foldlM (normalizeNext D scope) (front ++ [bar]) =
          .ok normalized ↔ AdmittedFrom scope (some bar.openTimeUtcMs) rest ∧ normalized = front ++ [bar] ++ rest := by
        have known := @ih (front ++ [bar]) fun other member => each other (List.mem_cons_of_mem _ member)
        rwa [List.getLast?_concat, Option.map_some] at known
      rw [List.map_cons, List.foldlM_cons, AdmittedFrom]
      have first : normalizeNext D scope front (some bar.mapping) =
          (admitBar scope (front.getLast?.map (·.openTimeUtcMs)) bar >>= fun _ => .ok (front ++ [bar])) := by
        unfold normalizeNext
        dsimp only
        rw [own, ok_bind]
        rfl
      rw [first]
      simp only [bind_eq_ok]
      constructor
      · rintro ⟨_, ⟨⟨⟩, admitted, ok⟩, rest⟩
        obtain rfl := Except.ok.inj ok
        obtain ⟨behind, whole⟩ := others.mp rest
        exact ⟨⟨admitted, behind⟩, by simpa using whole⟩
      · rintro ⟨⟨admitted, behind⟩, rfl⟩
        exact ⟨_, ⟨(), admitted, rfl⟩, others.mpr ⟨behind, by simp⟩⟩

omit [PyText] in
theorem admitBar_rename (admitted : admitBar scope previous bar = .ok ()) :
    admitBar { scope with snapshotId } previous (bar.rename snapshotId) = .ok () := by
  unfold admitBar at admitted ⊢
  split_ifs at admitted with instrument timeframe snapshot revision range open'
  have named : ¬ (bar.rename snapshotId).snapshotId ≠ .text snapshotId := not_not_intro rfl
  exact (if_neg instrument).trans ((if_neg timeframe).trans ((if_neg named).trans ((if_neg revision).trans
    ((if_neg range).trans (if_neg open')))))

omit [PyText] [SnapshotContracts] in
/-- A bar is admitted behind a copy of itself. -/
theorem admitBar_again (admitted : admitBar scope previous bar = .ok ()) :
    admitBar scope (some bar.openTimeUtcMs) bar = .ok () := by
  unfold admitBar at admitted ⊢
  split_ifs at admitted with instrument timeframe snapshot revision range
  rw [if_neg instrument, if_neg timeframe, if_neg snapshot, if_neg revision, if_neg range]
  simp

omit [PyText] in
theorem AdmittedFrom.rename (admitted : AdmittedFrom scope previous bars) :
    AdmittedFrom { scope with snapshotId } previous (renameAll snapshotId bars) := by
  induction bars generalizing previous with
  | nil => trivial
  | cons bar rest ih => exact ⟨admitBar_rename admitted.1, ih admitted.2⟩

omit [PyText] [SnapshotContracts] in
theorem AdmittedFrom.copy (admitted : AdmittedFrom scope previous (front ++ bar :: back)) :
    AdmittedFrom scope previous (front ++ bar :: bar :: back) := by
  induction front generalizing previous with
  | nil => exact ⟨admitted.1, admitBar_again admitted.1, admitted.2⟩
  | cons first front ih => exact ⟨admitted.1, ih admitted.2⟩

end Admission

section Public

variable [PyText] [PublicContracts] {D : Type} [PyDecimal D] {call : PublicArguments} {expected snapshotId : String}
  {items raw permuted copied : List ProviderRawBar} {item : ProviderRawBar} {bars others : List CanonicalBar}
  {snapshot before after : DataSnapshot}

/-- What the package relies on: written decimals are canonical, a sealed payload is verified, and the
schemas accept each hash as the name of a snapshot. -/
structure SoundContracts [PublicContracts] : Prop where
  decimals : CanonicalDecimals
  named : ∀ identity, PublicContracts.snapshotIdHash identity ≠ ""
  verifies : ∀ bar : CanonicalBar, bar.rest.lookup "content_hash" = none →
    BarContracts.verifyContentHash (sealedBar bar) = true
  schema : ∀ (bar : CanonicalBar) (first second : SnapshotIdentity),
    BarContracts.validatePayload
        (sealedBar { bar with snapshotId := .text (PublicContracts.snapshotIdHash first) }) = none →
      BarContracts.validatePayload
        (sealedBar { bar with snapshotId := .text (PublicContracts.snapshotIdHash second) }) = none
  verifiesSnapshot : ∀ payload, SnapshotContracts.verifySnapshot (sealedSnapshot payload) = true
  snapshotSchema : ∀ (payload : SnapshotPayload) (first second : SnapshotIdentity),
    SnapshotContracts.validateSnapshot (sealedSnapshot { payload with
        body := { payload.body with snapshotId := PublicContracts.snapshotIdHash first } }) = none →
      SnapshotContracts.validateSnapshot (sealedSnapshot { payload with
        body := { payload.body with snapshotId := PublicContracts.snapshotIdHash second } }) = none

/-- The bars under two names are the same, renamed. -/
theorem canonicalize_renamed {first second : String} {previousOpen : Option Int} {previousHash : Option String}
    (made : canonicalize D call expected first previousOpen previousHash items = .ok bars)
    (again : canonicalize D call expected second previousOpen previousHash items = .ok others) :
    others = renameAll second bars := by
  induction items generalizing previousOpen previousHash bars others with
  | nil =>
      obtain rfl := Except.ok.inj made
      exact (Except.ok.inj again).symm
  | cons item rest ih =>
      obtain ⟨bar, head, made⟩ := bind_eq_ok.mp made
      obtain ⟨behind, tail, returned⟩ := bind_eq_ok.mp made
      obtain rfl := pure_eq_ok.mp returned
      obtain ⟨renamed, rehead, again⟩ := bind_eq_ok.mp again
      obtain ⟨rebehind, retail, rereturned⟩ := bind_eq_ok.mp again
      obtain rfl := pure_eq_ok.mp rereturned
      obtain rfl := makeRaw_rename head rehead
      rw [rename_hash] at retail
      rw [ih tail retail]
      rfl

/-- A snapshot may have any hash as its name. -/
theorem canonicalize_rename (sound : SoundContracts) (first second : SnapshotIdentity) {previousOpen : Option Int}
    {previousHash : Option String} (made : canonicalize D call expected (PublicContracts.snapshotIdHash first)
      previousOpen previousHash items = .ok bars) :
    canonicalize D call expected (PublicContracts.snapshotIdHash second) previousOpen previousHash items =
      .ok (renameAll (PublicContracts.snapshotIdHash second) bars) := by
  induction items generalizing previousOpen previousHash bars with
  | nil =>
      obtain rfl := Except.ok.inj made
      rfl
  | cons item rest ih =>
      obtain ⟨bar, head, made⟩ := bind_eq_ok.mp made
      obtain ⟨behind, tail, returned⟩ := bind_eq_ok.mp made
      obtain rfl := pure_eq_ok.mp returned
      obtain ⟨draft, drafted, valid, _, rfl⟩ := makeCanonicalBar_eq_ok.mp head
      have own : draft = { draft with snapshotId := .text (PublicContracts.snapshotIdHash first) } := by
        have named := drafted.snapshot.2
        obtain ⟨⟩ := draft
        simp only at named
        rw [named]
        rfl
      obtain ⟨metadata, _, described⟩ := drafted.rest
      have unsealed : draft.rest.lookup "content_hash" = none := by
        rw [described]
        simp [EnvelopeMetadata.entries, List.lookup_cons]
      have again : makeRaw D call expected (PublicContracts.snapshotIdHash second)
          (carriedHash previousOpen previousHash item) item =
          .ok ((sealedBar draft).rename (PublicContracts.snapshotIdHash second)) := by
        rw [rename_sealedBar]
        apply makeCanonicalBar_eq_ok.mpr
        refine ⟨_, drafted.rename (sound.named second), ?_, sound.verifies _ unsealed, rfl⟩
        apply sound.schema draft first second
        rw [← own]
        exact valid
      rw [canonicalize, again, ok_bind, rename_hash, ih tail, ok_bind]
      rfl

theorem normalizeSnapshotBar_canonicalized (sound : SoundContracts)
    (made : canonicalize D call expected snapshotId none none items = .ok bars) :
    ∀ bar ∈ bars, normalizeSnapshotBar D bar.mapping = .ok bar := by
  have start : canonicalize D call expected snapshotId ((none : Option CanonicalBar).map (·.openTimeUtcMs))
      ((none : Option CanonicalBar).map (·.hash)) items = .ok bars := made
  intro bar member
  obtain ⟨item, _, hash, own⟩ := Runs.exists_of_forall₂ (canonicalize_ok start).2.flip member
  exact normalizeSnapshotBar_made sound.decimals own

theorem buildPublicSnapshot_eq_ok : buildPublicSnapshot D call raw = .ok snapshot ↔ ∃ expected pending bars,
    normalizeProviderRevision call.providerRevision = .ok expected ∧
    (∀ item ∈ orderRaw raw, item.providerRevision = expected) ∧
    canonicalize D call expected "pending" none none (orderRaw raw) = .ok pending ∧
    canonicalize D call expected (PublicContracts.snapshotIdHash (snapshotIdentity call expected pending)) none none
      (orderRaw raw) = .ok bars ∧
    buildDataSnapshot D (call.snapshotArguments expected
      (PublicContracts.snapshotIdHash (snapshotIdentity call expected pending)) bars) = .ok snapshot := by
  unfold buildPublicSnapshot
  simp only [bind_eq_ok, refuse_eq_ok, exists_const, exists_and_left, not_exists, not_and, not_not, ne_eq]

theorem buildDataSnapshot_made (each : ∀ bar ∈ bars, normalizeSnapshotBar D bar.mapping = .ok bar) :
    buildDataSnapshot D (call.snapshotArguments expected snapshotId bars) = .ok snapshot ↔ ∃ scope selection,
      checkArguments (call.snapshotArguments expected snapshotId bars) = .ok scope ∧
      AdmittedFrom scope none bars ∧
      (openTimeGroups bars).foldlM (selectGroup scope.query.finalityPolicy) ⟨[], [], [], none⟩ = .ok selection ∧
      packSnapshot (call.snapshotArguments expected snapshotId bars) scope selection = .ok snapshot := by
  unfold buildDataSnapshot
  have run (scope : SnapshotScope) (normalized : List CanonicalBar) :
      (call.snapshotArguments expected snapshotId bars).bars.foldlM (normalizeNext D scope) [] = .ok normalized ↔
        AdmittedFrom scope none bars ∧ normalized = bars := normalizeNext_run each
  simp only [bind_eq_ok, run]
  constructor
  · rintro ⟨scope, checked, _, ⟨admitted, rfl⟩, selection, selected, packed⟩
    exact ⟨scope, selection, checked, admitted, selected, packed⟩
  · rintro ⟨scope, selection, checked, admitted, selected, packed⟩
    exact ⟨scope, checked, bars, ⟨admitted, rfl⟩, selection, selected, packed⟩

/-- The bars of a run have no hash in common unless their identities are the same. -/
def CollisionFree (D : Type) [PyDecimal D] (call : PublicArguments) (raw : List ProviderRawBar) : Prop :=
  ∀ expected bars, normalizeProviderRevision call.providerRevision = .ok expected →
    canonicalize D call expected "pending" none none (orderRaw raw) = .ok bars → NoCollision bars

omit [PyText] [PublicContracts] in
theorem selectedOnce_of_run {policy : String} {state final : Selection} {groups : List (List CanonicalBar)}
    (selected : groups.foldlM (selectGroup policy) state = .ok final) :
    ∀ group ∈ groups, ∃ openTime resolved, resolveBarGroup openTime group = .ok resolved := by
  induction groups generalizing state with
  | nil => simp
  | cons group groups ih =>
      rw [List.foldlM_cons, bind_eq_ok] at selected
      obtain ⟨middle, first, rest⟩ := selected
      refine List.forall_mem_cons.mpr ⟨?_, ih rest⟩
      unfold selectGroup at first
      split at first
      · obtain ⟨resolved, done, _⟩ := bind_eq_ok.mp first
        exact ⟨_, resolved, done⟩
      · cases first

/-- In the raw bars of a snapshot, those with one key are twins. -/
theorem twins_of_built (sound : SoundContracts) (free : CollisionFree D call raw)
    (built : buildPublicSnapshot D call raw = .ok snapshot) {expected : String}
    (known : normalizeProviderRevision call.providerRevision = .ok expected) :
    (orderRaw raw).Pairwise fun left right => left.key = right.key → Twins D call expected left right := by
  obtain ⟨again, pending, bars, revision, _, pended, made, built⟩ := buildPublicSnapshot_eq_ok.mp built
  obtain rfl := Except.ok.inj (known.symm.trans revision)
  obtain ⟨scope, selection, _, _, selected, _⟩ :=
    (buildDataSnapshot_made (normalizeSnapshotBar_canonicalized sound made)).mp built
  have distinct : NoCollision bars := by
    rw [canonicalize_renamed pended made]
    intro first inside second among same
    obtain ⟨left, leftMember, rfl⟩ := List.mem_map.mp inside
    obtain ⟨right, rightMember, rfl⟩ := List.mem_map.mp among
    exact free expected pending revision pended left leftMember right rightMember same
  exact twins_of_selected made (orderRaw_sorted raw) distinct (selectedOnce_of_run selected)

/-- A snapshot of raw bars is the snapshot of each order of them. -/
theorem built_of_perm (sound : SoundContracts) (free : CollisionFree D call raw) (perm : permuted.Perm raw)
    (built : buildPublicSnapshot D call raw = .ok snapshot) : buildPublicSnapshot D call permuted = .ok snapshot := by
  have whole := built
  obtain ⟨expected, pending, bars, revision, given, pended, made, built⟩ := buildPublicSnapshot_eq_ok.mp built
  have each := interchangeable_of_twins (twins_of_built sound free whole revision)
  have ordered : (orderRaw raw).Perm (orderRaw permuted) :=
    (orderRaw_perm raw).trans (perm.symm.trans (orderRaw_perm permuted).symm)
  have places := Runs.forall₂_of_sorted ordered (orderRaw_sorted raw) (orderRaw_sorted permuted) each
  rw [buildPublicSnapshot_eq_ok]
  exact ⟨expected, pending, bars, revision, fun item member => given item (ordered.mem_iff.mpr member),
    canonicalize_interchangeable places pended, canonicalize_interchangeable places made, built⟩

section Copy

/-- What another snapshot of the same bars keeps: all but the name of the snapshot, what is sealed with
it, and the duplicates. -/
structure KeepsSnapshot (before after : DataSnapshot) : Prop where
  hashes : after.bars.map (·.barContentHash) = before.bars.map (·.barContentHash)
  seriesHash : after.seriesHash = before.seriesHash
  coverage : after.body.coverage = before.body.coverage ∧ after.coverage = before.coverage
  gaps : after.gaps = before.gaps
  bars : after.bars = renameAll after.body.snapshotId before.bars
  payload : after.snapshotEnvelope.toSnapshotPayload = { before.snapshotEnvelope.toSnapshotPayload with
    body := { before.body with snapshotId := after.body.snapshotId } }
  revisionChains : after.revisionChains = before.revisionChains

omit [PublicContracts] in
theorem checkArguments_rename {second : String} {scope : SnapshotScope}
    (checked : checkArguments (call.snapshotArguments expected snapshotId bars) = .ok scope) (named : second ≠ "")
    (others : List CanonicalBar) :
    scope.snapshotId = snapshotId ∧
      checkArguments (call.snapshotArguments expected second others) = .ok { scope with snapshotId := second } := by
  obtain ⟨_, first, checked⟩ := bind_eq_ok.mp checked
  obtain ⟨_, instrument, checked⟩ := bind_eq_ok.mp checked
  obtain ⟨_, timeframe, checked⟩ := bind_eq_ok.mp checked
  obtain ⟨_, revision, checked⟩ := bind_eq_ok.mp checked
  obtain ⟨_, start, checked⟩ := bind_eq_ok.mp checked
  obtain ⟨_, stop, checked⟩ := bind_eq_ok.mp checked
  obtain ⟨_, ordered, checked⟩ := bind_eq_ok.mp checked
  obtain ⟨_, policy, checked⟩ := bind_eq_ok.mp checked
  obtain rfl := pure_eq_ok.mp checked
  refine ⟨requiredText_text first, ?_⟩
  have filled : requiredText "snapshot_id" (.text second) = .ok second := if_neg named
  exact bind_eq_ok.mpr ⟨_, filled, bind_eq_ok.mpr ⟨_, instrument, bind_eq_ok.mpr ⟨_, timeframe,
    bind_eq_ok.mpr ⟨_, revision, bind_eq_ok.mpr ⟨_, start, bind_eq_ok.mpr ⟨_, stop, bind_eq_ok.mpr ⟨_, ordered,
      bind_eq_ok.mpr ⟨_, policy, rfl⟩⟩⟩⟩⟩⟩⟩⟩

omit [PyText] in
theorem coverageMetadata_rename (snapshotId : String) (bars : List CanonicalBar) (start stop : Int) :
    coverageMetadata (renameAll snapshotId bars) start stop = coverageMetadata bars start stop := by
  have scanned : (renameAll snapshotId bars).foldl scanBar ([], start) = bars.foldl scanBar ([], start) := by
    rw [renameAll, List.foldl_map]
    rfl
  unfold coverageMetadata
  rw [scanned]
  simp only [renameAll, List.head?_map, List.getLast?_map, List.length_map, Option.map_map]
  rfl

omit [PyText] in
theorem contractCoverage_rename (snapshotId : String) (bars : List CanonicalBar) (instrumentId timeframe : String) :
    contractCoverage (renameAll snapshotId bars) instrumentId timeframe =
      contractCoverage bars instrumentId timeframe := by
  rw [contractCoverage, renameAll, List.foldl_map]
  rfl

omit [PyText] in
theorem contentHashes_rename (snapshotId : String) (bars : List CanonicalBar) :
    (renameAll snapshotId bars).map (·.barContentHash) = bars.map (·.barContentHash) := by
  rw [renameAll, List.map_map]
  rfl

theorem packSnapshot_rename (sound : SoundContracts) {first second : SnapshotIdentity} {scope : SnapshotScope}
    {selection other : Selection} (name : scope.snapshotId = PublicContracts.snapshotIdHash first)
    (related : selection.Answers (PublicContracts.snapshotIdHash second) other)
    (packed : packSnapshot (call.snapshotArguments expected (PublicContracts.snapshotIdHash first) bars) scope
      selection = .ok before) :
    ∃ after, packSnapshot (call.snapshotArguments expected (PublicContracts.snapshotIdHash second) others)
      { scope with snapshotId := PublicContracts.snapshotIdHash second } other = .ok after ∧
        KeepsSnapshot before after := by
  have metadata := coverageMetadata_rename (PublicContracts.snapshotIdHash second) selection.kept
    scope.query.startUtcMs scope.query.endUtcMs
  have hashes := contentHashes_rename (PublicContracts.snapshotIdHash second) selection.kept
  have body (createdAt : Int) : { scope with snapshotId := PublicContracts.snapshotIdHash second }.body
      (renameAll (PublicContracts.snapshotIdHash second) selection.kept) createdAt =
      { scope.body selection.kept createdAt with snapshotId := PublicContracts.snapshotIdHash second } := by
    unfold SnapshotScope.body
    dsimp only
    rw [metadata, hashes, contractCoverage_rename, renameAll, List.length_map]
  obtain ⟨createdAt, clock, packed⟩ := bind_eq_ok.mp packed
  obtain ⟨described, envelope, packed⟩ := bind_eq_ok.mp packed
  obtain ⟨sealed, sealing, packed⟩ := bind_eq_ok.mp packed
  obtain rfl := pure_eq_ok.mp packed
  obtain ⟨_, valid, sealing⟩ := bind_eq_ok.mp sealing
  obtain ⟨_, _, sealing⟩ := bind_eq_ok.mp sealing
  obtain rfl := pure_eq_ok.mp sealing
  have own : { scope.body selection.kept createdAt with snapshotId := PublicContracts.snapshotIdHash first } =
      scope.body selection.kept createdAt := by
    rw [← name]
    rfl
  have again := sound.snapshotSchema ⟨"openpine.marketdata.v2", described, "snapshot", scope.body selection.kept createdAt⟩
    first second (by rw [own]; exact refuseText_eq_ok.mp valid)
  unfold packSnapshot
  simp only [related.kept, body, metadata, related.chains]
  refine ⟨_, bind_eq_ok.mpr ⟨createdAt, clock, bind_eq_ok.mpr ⟨described, envelope, bind_eq_ok.mpr ⟨_,
    bind_eq_ok.mpr ⟨(), refuseText_eq_ok.mpr again, bind_eq_ok.mpr ⟨(), refuse_eq_ok.mpr ?_, rfl⟩⟩, rfl⟩⟩⟩, ?_⟩
  · rw [sound.verifiesSnapshot]
    decide
  · exact ⟨hashes, rfl, ⟨rfl, rfl⟩, rfl, rfl, rfl, rfl⟩

/-- A second copy of an original raw bar keeps the snapshot. -/
theorem built_of_copy (sound : SoundContracts) (free : CollisionFree D call raw) (member : item ∈ raw)
    (original : item.revisionState = .original) (perm : copied.Perm (item :: raw))
    (built : buildPublicSnapshot D call raw = .ok before) :
    ∃ after, buildPublicSnapshot D call copied = .ok after ∧ KeepsSnapshot before after := by
  have whole := built
  obtain ⟨expected, pending, bars, revision, given, pended, made, built⟩ := buildPublicSnapshot_eq_ok.mp built
  have each := interchangeable_of_twins (twins_of_built sound free whole revision)
  have inside : item ∈ orderRaw raw := (orderRaw_perm raw).mem_iff.mpr member
  obtain ⟨front, back, split⟩ := List.append_of_mem inside
  have sorted := orderRaw_sorted raw
  rw [split] at sorted pended made each given
  have doubled : (front ++ item :: item :: back).Pairwise fun left right => left.key ≤ right.key := by
    rw [List.pairwise_append] at sorted ⊢
    obtain ⟨first, second, between⟩ := sorted
    refine ⟨first, ?_, ?_⟩
    · refine List.pairwise_cons.mpr ⟨?_, second⟩
      exact List.forall_mem_cons.mpr ⟨le_refl _, (List.pairwise_cons.mp second).1⟩
    · intro left among
      exact List.forall_mem_cons.mpr ⟨between left among item List.mem_cons_self, between left among⟩
  have members : ∀ other ∈ front ++ item :: item :: back, other ∈ front ++ item :: back := by
    intro other among
    simpa using among
  have order : (front ++ item :: item :: back).Perm (orderRaw copied) := by
    have raised : (front ++ item :: item :: back).Perm (item :: (front ++ item :: back)) := List.perm_middle
    rw [← split] at raised
    exact raised.trans (((orderRaw_perm raw).cons item).trans (perm.symm.trans (orderRaw_perm copied).symm))
  have places := Runs.forall₂_of_sorted order doubled (orderRaw_sorted copied)
    fun left first right second => each left (members left first) right (members right second)
  obtain ⟨first, own, last, _, _, pendedTwice⟩ := canonicalize_copy original pended
  obtain ⟨early, bar, late, rfl, _, madeTwice⟩ := canonicalize_copy original made
  have pendedAgain := canonicalize_interchangeable places pendedTwice
  obtain ⟨identity, known⟩ : ∃ identity, identity = snapshotIdentity call expected (first ++ own :: own :: last) :=
    ⟨_, rfl⟩
  have madeAgain := canonicalize_rename sound _ identity (canonicalize_interchangeable places madeTwice)
  obtain ⟨scope, selection, checked, admitted, selected, packed⟩ :=
    (buildDataSnapshot_made (normalizeSnapshotBar_canonicalized sound made)).mp built
  obtain ⟨name, rechecked⟩ := checkArguments_rename checked (sound.named identity)
    (renameAll (PublicContracts.snapshotIdHash identity) (early ++ bar :: bar :: late))
  have start : Selection.Answers (PublicContracts.snapshotIdHash identity) ⟨[], [], [], none⟩ ⟨[], [], [], none⟩ :=
    ⟨rfl, rfl, rfl⟩
  obtain ⟨final, reselected, related⟩ := start.run (openTimeGroups_copy early late bar) selected
  obtain ⟨after, repacked, keeps⟩ := packSnapshot_rename sound name related packed
  refine ⟨after, ?_, keeps⟩
  rw [buildPublicSnapshot_eq_ok]
  refine ⟨expected, _, _, revision, ?_, pendedAgain, known ▸ madeAgain, ?_⟩
  · intro other among
    exact given other (members other (order.mem_iff.mpr among))
  · rw [← known, buildDataSnapshot_made (normalizeSnapshotBar_canonicalized sound madeAgain)]
    exact ⟨_, final, rechecked, admitted.copy.rename, reselected, repacked⟩

/-- Only original raw bars occur twice among the raw bars of a snapshot. -/
theorem original_of_copy (sound : SoundContracts) (free : CollisionFree D call copied) (member : item ∈ raw)
    (perm : copied.Perm (item :: raw)) (built : buildPublicSnapshot D call copied = .ok after) :
    item.revisionState = .original := by
  have whole := built
  obtain ⟨expected, _, _, revision, _⟩ := buildPublicSnapshot_eq_ok.mp built
  have twins := twins_of_built sound free whole revision
  have twice : 2 ≤ (orderRaw copied).count item := by
    rw [((orderRaw_perm copied).trans perm).count_eq, List.count_cons_self]
    have once := List.count_pos_iff.mpr member
    omega
  have pair : [item, item].Sublist (orderRaw copied) := List.replicate_sublist_iff.mpr twice
  have own := (List.pairwise_cons.mp (twins.sublist pair)).1 item List.mem_cons_self rfl
  exact own.1.1

/-- A snapshot does not depend on the order of its raw bars, and it is kept when a copy of one of them
comes in exactly where that bar is original. -/
theorem public_snapshot_copies (sound : SoundContracts) (free : CollisionFree D call raw) :
    (∀ permuted, permuted.Perm raw → CollisionFree D call permuted → ∀ snapshot,
      (buildPublicSnapshot D call permuted = .ok snapshot ↔ buildPublicSnapshot D call raw = .ok snapshot)) ∧
    (∀ before, buildPublicSnapshot D call raw = .ok before → ∀ item ∈ raw, ∀ copied, copied.Perm (item :: raw) →
      CollisionFree D call copied →
        ((∃ after, buildPublicSnapshot D call copied = .ok after ∧ KeepsSnapshot before after) ↔
          item.revisionState = .original)) := by
  constructor
  · intro permuted perm others snapshot
    exact ⟨built_of_perm sound others perm.symm, built_of_perm sound free perm⟩
  · intro before built item member copied perm others
    constructor
    · rintro ⟨after, again, _⟩
      exact original_of_copy sound others member perm again
    · intro original
      exact built_of_copy sound free member original perm built

end Copy

end Public

end MarketdataProvider

namespace MarketdataProvider.Reference

open scoped Reference

scoped instance publicContracts : PublicContracts where
  snapshotIdHash identity := "snapshot." ++ toString identity.orderedInputHashes.length

theorem publicContracts_sound : SoundContracts where
  decimals value text written := by
    change wholeText value = some text at written
    unfold wholeText at written
    split at written
    · split_ifs at written with number
      obtain rfl := Option.some.inj written
      exact if_pos number
    · cases written
  named identity empty := by
    have lengths := congrArg String.length empty
    change ("snapshot." ++ _ : String).length = _ at lengths
    rw [String.length_append] at lengths
    have long : "snapshot.".length = 9 := by decide
    have short : "".length = 0 := by decide
    omega
  verifies bar unsealed := by
    change decide ((bar.rest ++ [("content_hash", FieldValue.text (sealName bar))]).lookup "content_hash" =
      some (.text (sealName bar))) = true
    rw [List.lookup_append, unsealed]
    exact decide_eq_true rfl
  schema _ _ _ _ := rfl
  verifiesSnapshot _ := decide_eq_true rfl
  snapshotSchema _ _ _ _ := rfl

end MarketdataProvider.Reference

namespace MarketdataProvider

open Reference Foundation
open scoped Reference

instance (bars : List CanonicalBar) : Decidable (NoCollision bars) :=
  inferInstanceAs (Decidable (∀ first ∈ bars, ∀ second ∈ bars, first.hash = second.hash →
    barIdentityPayload first = barIdentityPayload second))

/-- A raw bar of the first minute. -/
def minuteRaw (price : Int) (state : RevisionState) (revision : Int) : ProviderRawBar where
  instrumentId := "binance/spot/BTCUSDT"
  timeframe := "1m"
  openTimeUtcMs := 0
  closeTimeUtcMs := none
  openPrice := .text (toString price)
  high := .text (toString price)
  low := .text (toString price)
  close := .text (toString price)
  volume := .text "1"
  finality := .final
  provider := "binance"
  providerRevision := "rest-1"
  revisionState := state
  revision := revision

def firstMinute : PublicArguments where
  query := minuteQuery 0 60000 minute_positive
  providerRevision := knownRevision "rest-1"
  producerCommit := "1111111111111111111111111111111111111111"
  stackId := "sha256:2222222222222222222222222222222222222222222222222222222222222222"
  finalityPolicy := "CLOSED_BAR_ONLY"

def originalRaw : ProviderRawBar := minuteRaw 10 .original 0

def correctedRaw : ProviderRawBar := minuteRaw 11 .corrected 1

theorem collisionFree_of_run {raw : List ProviderRawBar}
    (run : (canonicalize Whole firstMinute "rest-1" "pending" none none (orderRaw raw)).toOption.all
      (fun bars => decide (NoCollision bars)) = true) : CollisionFree Whole firstMinute raw := by
  intro expected bars revision made
  have known : normalizeProviderRevision firstMinute.providerRevision = .ok "rest-1" :=
    eq_ok_of_toOption (by decide +kernel)
  obtain rfl := Except.ok.inj (known.symm.trans revision)
  rw [made] at run
  exact of_decide_eq_true run

theorem corrected_free : CollisionFree Whole firstMinute [originalRaw, correctedRaw] :=
  collisionFree_of_run (by decide +kernel)

theorem corrected_built : ∃ snapshot,
    buildPublicSnapshot Whole firstMinute [originalRaw, correctedRaw] = .ok snapshot :=
  eq_ok_of_toBool (by decide +kernel)

def PyError.ofExcept {Value : Type} : Except PyError Value → Option PyError
  | .error error => some error
  | .ok _ => none

/-- A correction that is delivered twice makes a conflict with itself. -/
theorem redelivered_correction : ∃ before,
    buildPublicSnapshot Whole firstMinute [originalRaw, correctedRaw] = .ok before ∧
      buildPublicSnapshot Whole firstMinute [originalRaw, correctedRaw, correctedRaw] =
        .error (.mdBarConflict "bar content conflict at 0: same revision has different content") := by
  obtain ⟨before, built⟩ := corrected_built
  refine ⟨before, built, ?_⟩
  have refused : PyError.ofExcept (buildPublicSnapshot Whole firstMinute [originalRaw, correctedRaw, correctedRaw]) =
      some (.mdBarConflict "bar content conflict at 0: same revision has different content") := by decide +kernel
  cases outcome : buildPublicSnapshot Whole firstMinute [originalRaw, correctedRaw, correctedRaw] with
  | error error =>
      rw [outcome] at refused
      rw [Option.some.inj refused]
  | ok snapshot =>
      rw [outcome] at refused
      cases refused

/-- The other order gives the same snapshot, and a second copy of the original bar keeps it. -/
theorem public_snapshot_copies_minute : ∃ before,
    buildPublicSnapshot Whole firstMinute [originalRaw, correctedRaw] = .ok before ∧
    buildPublicSnapshot Whole firstMinute [correctedRaw, originalRaw] = .ok before ∧
    ∃ after, buildPublicSnapshot Whole firstMinute [originalRaw, correctedRaw, originalRaw] = .ok after ∧
      KeepsSnapshot before after := by
  obtain ⟨before, built⟩ := corrected_built
  obtain ⟨orders, copies⟩ := public_snapshot_copies publicContracts_sound corrected_free
  have reversed : orderRaw [correctedRaw, originalRaw] = orderRaw [originalRaw, correctedRaw] := by decide
  have otherFree : CollisionFree Whole firstMinute [correctedRaw, originalRaw] := by
    rw [CollisionFree, reversed]
    exact corrected_free
  have doubledFree : CollisionFree Whole firstMinute [originalRaw, correctedRaw, originalRaw] :=
    collisionFree_of_run (by decide +kernel)
  have doubled : [originalRaw, correctedRaw, originalRaw].Perm [originalRaw, originalRaw, correctedRaw] :=
    (List.Perm.swap ..).cons originalRaw
  have member : originalRaw ∈ [originalRaw, correctedRaw] := List.mem_cons_self
  refine ⟨before, built, (orders _ (List.Perm.swap ..) otherFree before).mpr built, ?_⟩
  exact (copies before built originalRaw member _ doubled doubledFree).mpr rfl

end MarketdataProvider
