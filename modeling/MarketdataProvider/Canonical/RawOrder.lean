import MarketdataProvider.Canonical.Provider
import MarketdataProvider.Foundation.Runs
import Mathlib.Data.Prod.Lex

namespace MarketdataProvider

open Foundation

section Names

variable [BarContracts]

/-- A sealed bar under another name of its snapshot; the old seal is taken off first. -/
def CanonicalBar.rename (bar : CanonicalBar) (snapshotId : String) : CanonicalBar :=
  sealedBar { bar with snapshotId := .text snapshotId, rest := bar.rest.dropLast }

theorem rename_sealedBar (draft : CanonicalBar) (snapshotId : String) :
    (sealedBar draft).rename snapshotId = sealedBar { draft with snapshotId := .text snapshotId } := by
  simp [CanonicalBar.rename, sealedBar]

@[simp] theorem rename_hash (bar : CanonicalBar) (snapshotId : String) : (bar.rename snapshotId).hash = bar.hash := rfl

end Names

section Threads

variable [PyText] [BarContracts] {D : Type} [PyDecimal D] {call : PublicArguments} {expected snapshotId : String}
  {previousHash : Option String} {item other : ProviderRawBar} {bar : CanonicalBar} {bars : List CanonicalBar}
  {items : List ProviderRawBar}

/-- What a bar keeps of the raw bar that it is made from. -/
structure MadeFrom (call : PublicArguments) (expected snapshotId : String) (previousHash : Option String)
    (item : ProviderRawBar) (bar : CanonicalBar) : Prop where
  openTime : bar.openTimeUtcMs = item.openTimeUtcMs
  revision : bar.revision = item.revision
  state : bar.revisionState = item.revisionState
  superseded : bar.supersededBarHash = if item.revisionState ≠ .original then previousHash else none
  bound : item.revisionState ≠ .original → previousHash ≠ none
  hashed : bar.barContentHash = .text (BarContracts.contentHash (barIdentityPayload bar))

theorem makeRaw_ok (made : makeRaw D call expected snapshotId previousHash item = .ok bar) :
    MadeFrom call expected snapshotId previousHash item bar := by
  obtain ⟨draft, drafted, _, _, rfl⟩ := makeCanonicalBar_eq_ok.mp made
  have state : draft.revisionState = item.revisionState := (Except.ok.inj drafted.state).symm
  refine ⟨drafted.openTime.2, drafted.revision.2, state, drafted.superseded_eq, ?_, drafted.hashed⟩
  intro later missing
  have lineage := drafted.superseded
  rw [state] at lineage
  simp only [PublicArguments.barArguments, later, ne_eq, not_false_eq_true, if_true, missing] at lineage
  unfold supersededHash at lineage
  rw [if_neg later] at lineage
  change Except.error _ = Except.ok _ at lineage
  cases lineage

/-- The hash in front of an original bar does not matter. -/
theorem makeRaw_original (original : item.revisionState = .original) :
    makeRaw D call expected snapshotId previousHash item = makeRaw D call expected snapshotId none item := by
  simp only [makeRaw, original, ne_eq, not_true_eq_false, if_false]

/-- A bar under a name is the bar under another one, renamed. -/
theorem makeRaw_rename {first second : String} {renamed : CanonicalBar}
    (made : makeRaw D call expected first previousHash item = .ok bar)
    (again : makeRaw D call expected second previousHash item = .ok renamed) : renamed = bar.rename second := by
  obtain ⟨draft, drafted, _, _, rfl⟩ := makeCanonicalBar_eq_ok.mp made
  obtain ⟨other, named, _, _, rfl⟩ := makeCanonicalBar_eq_ok.mp again
  have filled : second ≠ "" := by
    rintro rfl
    exact absurd named.snapshot.1 (by simp [requiredText, PublicArguments.barArguments])
  have same := (draftBar_eq_ok.mpr named).symm.trans (draftBar_eq_ok.mpr (drafted.rename filled))
  rw [Except.ok.inj same, rename_sealedBar]

theorem makeRaw_unnamed : ∀ bar, makeRaw D call expected "" previousHash item ≠ .ok bar := by
  intro bar made
  obtain ⟨draft, drafted, _⟩ := makeCanonicalBar_eq_ok.mp made
  exact absurd drafted.snapshot.1 (by simp [requiredText, PublicArguments.barArguments])

/-- Two original bars of one time that are made into the same bar under each name. -/
def Twins (D : Type) [PyDecimal D] (call : PublicArguments) (expected : String) (item other : ProviderRawBar) : Prop :=
  (item.revisionState = .original ∧ other.revisionState = .original) ∧
    ∀ snapshotId bar, makeRaw D call expected snapshotId none item = .ok bar ↔
      makeRaw D call expected snapshotId none other = .ok bar

/-- Original bars with one identity are twins. -/
theorem twins_of_identity {second : CanonicalBar} {otherHash : Option String}
    (made : makeRaw D call expected snapshotId previousHash item = .ok bar)
    (others : makeRaw D call expected snapshotId otherHash other = .ok second)
    (original : item.revisionState = .original ∧ other.revisionState = .original)
    (same : barIdentityPayload bar = barIdentityPayload second) : Twins D call expected item other := by
  refine ⟨original, ?_⟩
  rw [makeRaw_original original.1] at made
  rw [makeRaw_original original.2] at others
  obtain ⟨draft, drafted, _, _, rfl⟩ := makeCanonicalBar_eq_ok.mp made
  obtain ⟨again, redrafted, _, _, rfl⟩ := makeCanonicalBar_eq_ok.mp others
  have equal : draft = again := drafted.eq_of_identity redrafted ⟨rfl, rfl, rfl, rfl⟩ same
  intro name result
  by_cases filled : name = ""
  · rw [filled]
    exact iff_of_false (makeRaw_unnamed result) (makeRaw_unnamed result)
  · have first := draftBar_eq_ok.mpr (drafted.rename filled)
    have second := draftBar_eq_ok.mpr (redrafted.rename filled)
    rw [equal] at first
    have drafts : makeRaw D call expected name none item = makeRaw D call expected name none other :=
      congrArg (· >>= sealBar) (first.trans second.symm)
    rw [drafts]

/-- A bar follows the one in front of it: unless it is original, both have one open time, and it
supersedes that bar. -/
def Follows (previous : Option CanonicalBar) (bar : CanonicalBar) : Prop :=
  bar.revisionState ≠ .original → ∃ before, previous = some before ∧
    before.openTimeUtcMs = bar.openTimeUtcMs ∧ bar.supersededBarHash = some before.hash

def Threaded : Option CanonicalBar → List CanonicalBar → Prop
  | _, [] => True
  | previous, bar :: rest => Follows previous bar ∧ Threaded (some bar) rest

/-- Each bar is made from its raw bar behind the bars in front of it. -/
theorem canonicalize_ok {previous : Option CanonicalBar}
    (made : canonicalize D call expected snapshotId (previous.map (·.openTimeUtcMs)) (previous.map (·.hash)) items =
      .ok bars) :
    Threaded previous bars ∧ List.Forall₂ (fun item bar => ∃ hash,
      makeRaw D call expected snapshotId hash item = .ok bar) items bars := by
  induction items generalizing previous bars with
  | nil =>
      obtain rfl := Except.ok.inj made
      exact ⟨trivial, .nil⟩
  | cons item rest ih =>
      obtain ⟨bar, head, made⟩ := bind_eq_ok.mp made
      obtain ⟨others, tail, returned⟩ := bind_eq_ok.mp made
      obtain rfl := pure_eq_ok.mp returned
      have from' := makeRaw_ok head
      have behind : canonicalize D call expected snapshotId ((some bar).map (·.openTimeUtcMs))
          ((some bar).map (·.hash)) rest = .ok others := by
        rw [Option.map_some, Option.map_some, from'.openTime]
        exact tail
      obtain ⟨threaded, related⟩ := ih behind
      refine ⟨⟨?_, threaded⟩, .cons ⟨_, head⟩ related⟩
      intro later
      rw [from'.state] at later
      have bound := from'.bound later
      have lineage := from'.superseded
      rw [if_pos later] at lineage
      unfold carriedHash at bound lineage
      split_ifs at bound lineage with different
      · exact absurd rfl bound
      · cases previous with
        | none => exact absurd rfl bound
        | some before =>
            refine ⟨before, rfl, ?_, lineage⟩
            rw [from'.openTime]
            simpa [eq_comm] using different

end Threads

section Lineage

variable {previous : Option CanonicalBar} {bars front : List CanonicalBar} {bar : CanonicalBar}

/-- Bars with one hash have one identity. -/
def NoCollision (bars : List CanonicalBar) : Prop :=
  ∀ first ∈ bars, ∀ second ∈ bars, first.hash = second.hash → barIdentityPayload first = barIdentityPayload second

theorem state_of_identity {first second : CanonicalBar}
    (same : barIdentityPayload first = barIdentityPayload second) : first.revisionState = second.revisionState := by
  have values := congrArg (fun identity => RevisionState.ofValue identity.revisionState) same
  simp only [barIdentityPayload, RevisionState.ofValue_value] at values
  exact Option.some.inj values

theorem Threaded.last (threaded : Threaded previous (front ++ [bar])) : Follows (front.getLast?.or previous) bar := by
  induction front generalizing previous with
  | nil => exact threaded.1
  | cons first front ih =>
      have behind := ih threaded.2
      cases front with
      | nil => exact behind
      | cons second front =>
          obtain ⟨last, found⟩ : ∃ last, (second :: front).getLast? = some last :=
            ⟨_, List.getLast?_eq_some_getLast (List.cons_ne_nil second front)⟩
          rw [found, Option.some_or] at behind
          rw [List.getLast?_cons_cons, found, Option.some_or]
          exact behind

theorem Threaded.begin (threaded : Threaded previous (front ++ bars)) : Threaded previous front := by
  induction front generalizing previous with
  | nil => trivial
  | cons first front ih => exact ⟨threaded.1, ih threaded.2⟩

/-- No later revision supersedes itself: the bar in front of it would have the same identity. -/
theorem Threaded.not_self (threaded : Threaded none bars) (distinct : NoCollision bars) :
    ∀ bar ∈ bars, bar.revisionState ≠ .original → bar.supersededBarHash ≠ some bar.hash := by
  induction bars using List.reverseRecOn with
  | nil => simp
  | append_singleton front last ih =>
      have kept := ih threaded.begin fun first inside second among =>
        distinct first (List.mem_append_left _ inside) second (List.mem_append_left _ among)
      rw [List.forall_mem_append]
      refine ⟨kept, ?_⟩
      intro bar same
      rw [List.mem_singleton.mp same]
      intro later self
      obtain ⟨before, found, _, lineage⟩ := threaded.last later
      rw [Option.or_none] at found
      have inside := List.mem_of_getLast? found
      have hashes : before.hash = last.hash := Option.some.inj (lineage.symm.trans self)
      have identity := distinct before (List.mem_append_left _ inside) last List.mem_concat_self hashes
      have superseded : before.supersededBarHash = last.supersededBarHash :=
        congrArg BarIdentity.supersededBarHash identity
      apply kept before inside
      · rw [state_of_identity identity]
        exact later
      · rw [superseded, self, hashes]

/-- Of bars in the order of times and revisions, those with one time and one revision are original,
when they have one hash. -/
theorem original_of_sameRevision (threaded : Threaded none bars) (distinct : NoCollision bars)
    (sorted : bars.Pairwise fun left right => toLex (left.openTimeUtcMs, left.revision) ≤
      toLex (right.openTimeUtcMs, right.revision))
    (hashes : ∀ first ∈ bars, ∀ second ∈ bars, first.openTimeUtcMs = second.openTimeUtcMs →
      first.revision = second.revision → first.hash = second.hash) :
    bars.Pairwise fun left right => left.openTimeUtcMs = right.openTimeUtcMs → left.revision = right.revision →
      (left.revisionState = .original ∧ right.revisionState = .original) ∧
        barIdentityPayload left = barIdentityPayload right := by
  have notSelf := threaded.not_self distinct
  induction bars using List.reverseRecOn with
  | nil => exact .nil
  | append_singleton front last ih =>
      obtain ⟨ordered, _, before⟩ := List.pairwise_append.mp sorted
      have inner := ih threaded.begin (fun first inside second among =>
        distinct first (List.mem_append_left _ inside) second (List.mem_append_left _ among)) ordered
        (fun first inside second among => hashes first (List.mem_append_left _ inside) second
          (List.mem_append_left _ among)) (fun bar inside => notSelf bar (List.mem_append_left _ inside))
      rw [List.pairwise_append]
      refine ⟨inner, List.pairwise_singleton .., ?_⟩
      intro first inside second same opens revisions
      rw [List.mem_singleton.mp same] at opens revisions ⊢
      have identity := distinct first (List.mem_append_left _ inside) last List.mem_concat_self
        (hashes first (List.mem_append_left _ inside) last List.mem_concat_self opens revisions)
      have original : last.revisionState = .original := by
        by_contra later
        obtain ⟨previous, found, time, lineage⟩ := threaded.last later
        rw [Option.or_none] at found
        have among := List.mem_of_getLast? found
        -- The bar in front of the last one lies between the two, so it has their revision.
        have between : first.revision ≤ previous.revision := by
          obtain ⟨rest, rfl⟩ := List.getLast?_eq_some_iff.mp found
          rcases List.mem_append.mp inside with early | same
          · have below := (List.pairwise_append.mp ordered).2.2 first early previous List.mem_cons_self
            rcases Prod.Lex.le_iff.mp below with less | ⟨_, le⟩
            · exact absurd (opens.trans time.symm) less.ne
            · exact le
          · rw [List.mem_singleton.mp same]
        have above : previous.revision ≤ last.revision := by
          have below := before previous among last List.mem_cons_self
          rcases Prod.Lex.le_iff.mp below with less | ⟨_, le⟩
          · exact absurd time less.ne
          · exact le
        have equal : previous.hash = last.hash := hashes previous (List.mem_append_left _ among) last
          List.mem_concat_self time (by omega)
        exact notSelf last List.mem_concat_self later (by rw [lineage, equal])
      refine ⟨⟨?_, original⟩, identity⟩
      rw [state_of_identity identity]
      exact original

end Lineage

end MarketdataProvider
