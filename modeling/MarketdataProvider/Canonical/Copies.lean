import MarketdataProvider.Canonical.RawOrder

namespace MarketdataProvider

open Foundation

section Revisions

variable {openTime : Int} {group bars : List CanonicalBar} {resolved : Resolution}

/-- The revisions of a chain that passes its checks ascend. -/
theorem checkChain_ascending {seen : List Int} {previous : Option CanonicalBar}
    (checked : checkChain openTime seen previous bars = .ok ()) :
    (∀ before, previous = some before → ∀ bar ∈ bars, before.revision < bar.revision) ∧
      bars.Pairwise fun left right => left.revision < right.revision := by
  induction bars generalizing seen previous with
  | nil => simp
  | cons bar rest ih =>
      have tail : checkChain openTime (bar.revision :: seen) (some bar) rest = .ok () ∧
          ∀ before, previous = some before → before.revision < bar.revision := by
        cases previous with
        | none =>
            simp only [checkChain] at checked
            split_ifs at checked
            exact ⟨checked, by simp⟩
        | some before =>
            simp only [checkChain] at checked
            split_ifs at checked with _ falling
            refine ⟨checked, ?_⟩
            intro other same
            obtain rfl := Option.some.inj same
            exact not_le.mp falling
      obtain ⟨later, ordered⟩ := ih tail.1
      constructor
      · intro before same
        have first := tail.2 before same
        refine List.forall_mem_cons.mpr ⟨first, ?_⟩
        exact fun other member => first.trans (later bar rfl other member)
      · exact List.pairwise_cons.mpr ⟨later bar rfl, ordered⟩

/-- Each bar of a group has its hash among the unique bars. -/
theorem exists_unique (group : List CanonicalBar) :
    ∀ bar ∈ group, ∃ other ∈ group.foldl addUnique [], other.hash = bar.hash := by
  induction group using List.reverseRecOn with
  | nil => simp
  | append_singleton front last ih =>
      rw [List.foldl_concat]
      have kept : ∀ other ∈ front.foldl addUnique [], other ∈ addUnique (front.foldl addUnique []) last := by
        intro other member
        unfold addUnique
        split_ifs
        · exact member
        · exact List.mem_append_left _ member
      rw [List.forall_mem_append]
      constructor
      · intro bar member
        obtain ⟨other, inside, same⟩ := ih bar member
        exact ⟨other, kept other inside, same⟩
      · intro bar member
        rw [List.mem_singleton.mp member]
        by_cases known : last.hash ∈ (front.foldl addUnique []).map CanonicalBar.hash
        · obtain ⟨other, inside, same⟩ := List.mem_map.mp known
          exact ⟨other, kept other inside, same⟩
        · refine ⟨last, ?_, rfl⟩
          rw [addUnique, if_neg known]
          exact List.mem_concat_self

theorem resolveBarGroup_checked (done : resolveBarGroup openTime group = .ok resolved) :
    checkChain openTime [] none (group.foldl addUnique []) = .ok () := by
  unfold resolveBarGroup at done
  obtain ⟨_, _, done⟩ := bind_eq_ok.mp done
  obtain ⟨_, checked, _⟩ := bind_eq_ok.mp done
  exact checked

/-- A resolved group has one hash for each revision. -/
theorem hash_of_revision (done : resolveBarGroup openTime group = .ok resolved) (distinct : NoCollision group) :
    ∀ first ∈ group, ∀ second ∈ group, first.revision = second.revision → first.hash = second.hash := by
  intro first inside second among same
  have ascending := (checkChain_ascending (resolveBarGroup_checked done)).2
  obtain ⟨left, leftMember, leftHash⟩ := exists_unique group first inside
  obtain ⟨right, rightMember, rightHash⟩ := exists_unique group second among
  have leftRevision : left.revision = first.revision :=
    congrArg BarIdentity.revision (distinct left (unique_subset group leftMember) first inside leftHash)
  have rightRevision : right.revision = second.revision :=
    congrArg BarIdentity.revision (distinct right (unique_subset group rightMember) second among rightHash)
  by_cases equal : left = right
  · rw [← leftHash, equal, rightHash]
  · let apart (left right : CanonicalBar) : Prop := left.revision ≠ right.revision
    have separate : (group.foldl addUnique []).Pairwise apart := ascending.imp fun less => less.ne
    have : Std.Symm apart := ⟨fun _ _ => Ne.symm⟩
    exact absurd (leftRevision.trans (same.trans rightRevision.symm))
      (separate.forall leftMember rightMember equal)

end Revisions

section Twins

variable [PyText] [BarContracts] {D : Type} [PyDecimal D] {call : PublicArguments} {expected snapshotId : String}
  {items others : List ProviderRawBar} {bars : List CanonicalBar} {item other : ProviderRawBar}

def ProviderRawBar.key (item : ProviderRawBar) : Int ×ₗ Int := toLex (item.openTimeUtcMs, item.revision)

omit [PyText] [BarContracts] in
theorem orderRaw_sorted (raw : List ProviderRawBar) :
    (orderRaw raw).Pairwise fun left right => left.key ≤ right.key := by
  apply (List.pairwise_insertionSort ProviderRawBar.Before raw).imp
  intro left right before
  exact Prod.Lex.le_iff.mpr before

omit [PyText] [BarContracts] in
theorem orderRaw_perm (raw : List ProviderRawBar) : (orderRaw raw).Perm raw := List.perm_insertionSort _ raw

omit [PyText] [BarContracts] in
theorem key_eq_iff : item.key = other.key ↔
    item.openTimeUtcMs = other.openTimeUtcMs ∧ item.revision = other.revision := by
  simp [ProviderRawBar.key]

/-- What selecting the bars of all groups says of bars with one time and one revision. -/
def SelectedOnce (bars : List CanonicalBar) : Prop :=
  ∀ group ∈ openTimeGroups bars, ∃ openTime resolved, resolveBarGroup openTime group = .ok resolved

omit [PyText] [BarContracts] in
theorem sameOpen_alike (left right : CanonicalBar) :
    decide (right.openTimeUtcMs = left.openTimeUtcMs) = true ↔ left.openTimeUtcMs = right.openTimeUtcMs := by
  rw [decide_eq_true_eq, eq_comm]

/-- Raw bars with one key are twins when the groups of their bars are resolved. -/
theorem twins_of_selected (made : canonicalize D call expected snapshotId none none items = .ok bars)
    (sorted : items.Pairwise fun left right => left.key ≤ right.key) (distinct : NoCollision bars)
    (selected : SelectedOnce bars) :
    items.Pairwise fun left right => left.key = right.key → Twins D call expected left right := by
  have start : canonicalize D call expected snapshotId ((none : Option CanonicalBar).map (·.openTimeUtcMs))
      ((none : Option CanonicalBar).map (·.hash)) items = .ok bars := made
  obtain ⟨threaded, pairs⟩ := canonicalize_ok start
  have ordered : bars.Pairwise fun left right => toLex (left.openTimeUtcMs, left.revision) ≤
      toLex (right.openTimeUtcMs, right.revision) := by
    apply Runs.pairwise_of_forall₂ pairs.flip sorted
    rintro first second left right ⟨_, one⟩ ⟨_, two⟩ before
    have one := makeRaw_ok one
    have two := makeRaw_ok two
    rw [one.openTime, one.revision, two.openTime, two.revision]
    exact before
  have opens : bars.Pairwise fun left right => left.openTimeUtcMs ≤ right.openTimeUtcMs := by
    apply ordered.imp
    intro left right before
    rcases Prod.Lex.le_iff.mp before with less | ⟨equal, _⟩
    · exact less.le
    · exact equal.le
  have hashes : ∀ first ∈ bars, ∀ second ∈ bars, first.openTimeUtcMs = second.openTimeUtcMs →
      first.revision = second.revision → first.hash = second.hash := by
    intro first inside second among same
    obtain ⟨group, member, left, right⟩ := Runs.splitBy_same_run sameOpen_alike opens inside among same
    obtain ⟨openTime, resolved, done⟩ := selected group member
    exact hash_of_revision done (fun one first two second => distinct one (mem_of_mem_group member first) two
      (mem_of_mem_group member second)) first left second right
  apply Runs.pairwise_of_forall₂ pairs (original_of_sameRevision threaded distinct ordered hashes)
  rintro first second left right ⟨_, one⟩ ⟨_, two⟩ known same
  obtain ⟨opens, revisions⟩ := key_eq_iff.mp same
  have from' := makeRaw_ok one
  have next := makeRaw_ok two
  obtain ⟨original, identity⟩ := known (by rw [from'.openTime, next.openTime, opens])
    (by rw [from'.revision, next.revision, revisions])
  rw [from'.state, next.state] at original
  exact twins_of_identity one two original identity

/-- Raw bars that may take each other's place: they are equal, or they are twins. -/
def Interchangeable (D : Type) [PyDecimal D] (call : PublicArguments) (expected : String)
    (item other : ProviderRawBar) : Prop :=
  item.openTimeUtcMs = other.openTimeUtcMs ∧ (item = other ∨ Twins D call expected item other)

theorem Twins.symm (twins : Twins D call expected item other) :
    Twins D call expected other item :=
  ⟨⟨twins.1.2, twins.1.1⟩, fun name bar => (twins.2 name bar).symm⟩

/-- In a list whose equal keys are twins, members with one key are interchangeable. -/
theorem interchangeable_of_twins
    (twins : items.Pairwise fun left right => left.key = right.key → Twins D call expected left right) :
    ∀ left ∈ items, ∀ right ∈ items, left.key = right.key → Interchangeable D call expected left right := by
  intro left first right second same
  refine ⟨(key_eq_iff.mp same).1, ?_⟩
  by_cases equal : left = right
  · exact .inl equal
  · let related (left right : ProviderRawBar) : Prop := left.key = right.key → Twins D call expected left right
    have : Std.Symm related := ⟨fun _ _ known same => (known same.symm).symm⟩
    have known : items.Pairwise related := twins
    exact .inr (known.forall first second equal same)

theorem makeRaw_interchangeable {hash : Option String} {bar : CanonicalBar}
    (known : Interchangeable D call expected item other) :
    makeRaw D call expected snapshotId hash item = .ok bar ↔
      makeRaw D call expected snapshotId hash other = .ok bar := by
  rcases known.2 with rfl | ⟨original, same⟩
  · exact Iff.rfl
  · rw [makeRaw_original original.1, makeRaw_original original.2]
    exact same snapshotId bar

/-- Interchangeable raw bars make the same bars. -/
theorem canonicalize_interchangeable {previousOpen : Option Int} {previousHash : Option String}
    (known : List.Forall₂ (Interchangeable D call expected) items others)
    (made : canonicalize D call expected snapshotId previousOpen previousHash items = .ok bars) :
    canonicalize D call expected snapshotId previousOpen previousHash others = .ok bars := by
  induction known generalizing previousOpen previousHash bars with
  | nil => exact made
  | @cons item other items others head rest ih =>
      obtain ⟨bar, first, made⟩ := bind_eq_ok.mp made
      obtain ⟨behind, tail, returned⟩ := bind_eq_ok.mp made
      obtain rfl := pure_eq_ok.mp returned
      have carried : carriedHash previousOpen previousHash item = carriedHash previousOpen previousHash other := by
        rw [carriedHash, carriedHash, head.1]
      rw [carried, makeRaw_interchangeable head] at first
      rw [head.1] at tail
      rw [canonicalize, first, ok_bind, ih tail, ok_bind]
      rfl

/-- A second copy of an original raw bar makes a second copy of its bar. -/
theorem canonicalize_copy {previousOpen : Option Int} {previousHash : Option String}
    {front back : List ProviderRawBar} (original : item.revisionState = .original)
    (made : canonicalize D call expected snapshotId previousOpen previousHash (front ++ item :: back) = .ok bars) :
    ∃ before bar after, bars = before ++ bar :: after ∧ before.length = front.length ∧
      canonicalize D call expected snapshotId previousOpen previousHash (front ++ item :: item :: back) =
        .ok (before ++ bar :: bar :: after) := by
  induction front generalizing previousOpen previousHash bars with
  | nil =>
      obtain ⟨bar, first, made⟩ := bind_eq_ok.mp made
      obtain ⟨behind, tail, returned⟩ := bind_eq_ok.mp made
      obtain rfl := pure_eq_ok.mp returned
      refine ⟨[], bar, behind, rfl, rfl, ?_⟩
      have again : makeRaw D call expected snapshotId
          (carriedHash (some item.openTimeUtcMs) (some bar.hash) item) item = .ok bar := by
        rw [makeRaw_original original]
        rwa [makeRaw_original original] at first
      rw [List.nil_append, canonicalize, first, ok_bind, canonicalize, again, ok_bind, tail, ok_bind]
      rfl
  | cons head front ih =>
      obtain ⟨bar, first, made⟩ := bind_eq_ok.mp made
      obtain ⟨behind, tail, returned⟩ := bind_eq_ok.mp made
      obtain rfl := pure_eq_ok.mp returned
      obtain ⟨before, copied, after, rfl, length, twice⟩ := ih tail
      refine ⟨bar :: before, copied, after, rfl, by rw [List.length_cons, length, List.length_cons], ?_⟩
      have whole : canonicalize D call expected snapshotId (some head.openTimeUtcMs) (some bar.hash)
          (front.append (item :: item :: back)) = .ok (before ++ copied :: copied :: after) := twice
      change canonicalize D call expected snapshotId previousOpen previousHash
        (head :: (front.append (item :: item :: back))) = _
      rw [canonicalize, first, ok_bind, whole, ok_bind]
      rfl

end Twins

end MarketdataProvider
