import MarketdataProvider.Canonical.Snapshot
import MarketdataProvider.Core.Intervals
import MarketdataProvider.Exchanges.PageCursor
import Mathlib.Data.List.SplitBy

namespace MarketdataProvider

open Foundation

section Closing

variable [PyText] {tf : String} {time close : Int}

omit [PyText] in
/-- A supported timeframe is a positive count of a fixed unit, or a unit of the calendar. -/
theorem supportedTimeframes_spec (supported : tf ∈ supportedTimeframes) : CalendarTimeframe tf ∨
    ∃ (count : Nat) (unit : Char), 0 < count ∧ CanonicalUnit unit ∧
      tf = String.ofList (Nat.toDigits 10 count ++ [unit]) := by
  have second : CanonicalUnit 's' := .inl rfl
  have minute : CanonicalUnit 'm' := .inr (.inl rfl)
  have hour : CanonicalUnit 'h' := .inr (.inr (.inl rfl))
  simp only [supportedTimeframes, List.mem_cons, List.not_mem_nil, or_false] at supported
  rcases supported with rfl | rfl | rfl | rfl | rfl | rfl | rfl | rfl | rfl | rfl | rfl | rfl | rfl | rfl
  · exact .inr ⟨1, 's', by decide, second, by decide⟩
  · exact .inr ⟨1, 'm', by decide, minute, by decide⟩
  · exact .inr ⟨3, 'm', by decide, minute, by decide⟩
  · exact .inr ⟨5, 'm', by decide, minute, by decide⟩
  · exact .inr ⟨15, 'm', by decide, minute, by decide⟩
  · exact .inr ⟨30, 'm', by decide, minute, by decide⟩
  · exact .inr ⟨1, 'h', by decide, hour, by decide⟩
  · exact .inr ⟨2, 'h', by decide, hour, by decide⟩
  · exact .inr ⟨4, 'h', by decide, hour, by decide⟩
  · exact .inr ⟨6, 'h', by decide, hour, by decide⟩
  · exact .inr ⟨12, 'h', by decide, hour, by decide⟩
  · exact .inl (.inl rfl)
  · exact .inl (.inr (.inl rfl))
  · exact .inl (.inr (.inr rfl))

/-- A bar of a supported timeframe does not close before it opens. -/
theorem le_close_of_supported (accepted : canonicalTimeframe tf = .ok tf)
    (supported : tf ∈ supportedTimeframes) (closes : closeTimeMs time tf = .ok close) : time ≤ close := by
  have inside := datetimeRange_of_close closes
  by_cases calendar : CalendarTimeframe tf
  · rw [closeTimeMs_calendar accepted calendar inside] at closes
    have after := (calendar_tiles tf).lt_next time
    have ends := Except.ok.inj closes
    omega
  · obtain ⟨count, unit, positive, letter, rfl⟩ := (supportedTimeframes_spec supported).resolve_left calendar
    obtain ⟨duration, known, rfl⟩ := close_of_fixed accepted calendar closes
    obtain ⟨factor, unitLength, rfl⟩ := timeframeMs_fixed count letter known
    have long : 0 < (count : Int) * factor := Int.mul_pos (by omega) (fixedUnit_pos unitLength)
    omega

end Closing

section Bars

variable [PyText] {D : Type} [PyDecimal D]

theorem canonicalTimeframeField_ok {value : FieldValue} {tf : String}
    (checked : canonicalTimeframeField value = .ok tf) :
    value = .text tf ∧ canonicalTimeframe tf = .ok tf ∧ tf ∈ supportedTimeframes := by
  obtain ⟨timeframe, named, rest⟩ := bind_eq_ok.mp checked
  obtain ⟨normalized, accepted, compared⟩ := bind_eq_ok.mp rest
  obtain ⟨_, same, member⟩ := bind_eq_ok.mp compared
  obtain ⟨_, known, returned⟩ := bind_eq_ok.mp member
  obtain rfl := pure_eq_ok.mp returned
  obtain rfl := not_not.mp (refuse_eq_ok.mp same)
  refine ⟨?_, ?_, not_not.mp (refuse_eq_ok.mp known)⟩
  · cases value with
    | text written =>
        rw [requiredText] at named
        split_ifs at named
        rw [Except.ok.inj named]
    | _ => cases named
  · rw [readTimeframe] at accepted
    split at accepted
    · cases accepted
    · exact accepted

theorem canonicalCloseTime_ok {tf : String} {time close : Int} {supplied : FieldValue}
    (checked : canonicalCloseTime tf time supplied = .ok close) : closeTimeMs time tf = .ok close := by
  obtain ⟨expected, closes, rest⟩ := bind_eq_ok.mp checked
  rw [closes]
  split_ifs at rest with missing
  · exact congrArg Except.ok (pure_eq_ok.mp rest)
  · obtain ⟨given, _, compared⟩ := bind_eq_ok.mp rest
    obtain ⟨_, same, returned⟩ := bind_eq_ok.mp compared
    obtain rfl := pure_eq_ok.mp returned
    rw [not_not.mp (refuse_eq_ok.mp same)]

variable [BarContracts] {bar : CanonicalBar}

theorem normalizeFields_close {fields : BarFields} (normalized : normalizeFields D fields = .ok bar) :
    bar.openTimeUtcMs ≤ bar.closeTimeUtcMs := by
  obtain ⟨_, _, normalized⟩ := bind_eq_ok.mp normalized
  obtain ⟨_, _, normalized⟩ := bind_eq_ok.mp normalized
  obtain ⟨_, _, normalized⟩ := bind_eq_ok.mp normalized
  obtain ⟨_, _, normalized⟩ := bind_eq_ok.mp normalized
  obtain ⟨tf, known, normalized⟩ := bind_eq_ok.mp normalized
  obtain ⟨openTime, _, normalized⟩ := bind_eq_ok.mp normalized
  obtain ⟨closeTime, closes, normalized⟩ := bind_eq_ok.mp normalized
  obtain ⟨_, _, normalized⟩ := bind_eq_ok.mp normalized
  obtain ⟨_, _, normalized⟩ := bind_eq_ok.mp normalized
  obtain rfl := pure_eq_ok.mp normalized
  obtain ⟨_, accepted, supported⟩ := canonicalTimeframeField_ok known
  exact le_close_of_supported accepted supported (canonicalCloseTime_ok closes)

theorem normalizeSnapshotBar_close {mapping : BarMapping} (normalized : normalizeSnapshotBar D mapping = .ok bar) :
    bar.openTimeUtcMs ≤ bar.closeTimeUtcMs := by
  obtain ⟨fields, _, rest⟩ := bind_eq_ok.mp normalized
  obtain ⟨made, typed, checks⟩ := bind_eq_ok.mp rest
  obtain ⟨_, _, returned⟩ := bind_eq_ok.mp checks
  obtain rfl := pure_eq_ok.mp returned
  exact normalizeFields_close typed

end Bars

section Groups

variable {openTime : Int} {group : List CanonicalBar} {resolved : Resolution} {selected : CanonicalBar}

theorem mem_of_mem_addUnique {unique : List CanonicalBar} {bar other : CanonicalBar}
    (member : other ∈ addUnique unique bar) : other ∈ unique ∨ other = bar := by
  unfold addUnique at member
  split_ifs at member with known
  · exact .inl member
  · rcases List.mem_append.mp member with member | member
    · exact .inl member
    · exact .inr (List.mem_singleton.mp member)

theorem unique_subset (group : List CanonicalBar) : group.foldl addUnique [] ⊆ group := by
  induction group using List.reverseRecOn with
  | nil => simp
  | append_singleton front bar ih =>
      intro other member
      rw [List.foldl_concat] at member
      rcases mem_of_mem_addUnique member with member | rfl
      · exact List.mem_append_left _ (ih member)
      · exact List.mem_concat_self

/-- The selected bar is one of the group. -/
theorem selected_mem (done : resolveBarGroup openTime group = .ok resolved)
    (chosen : resolved.selected = some selected) : selected ∈ group := by
  unfold resolveBarGroup at done
  dsimp only at done
  obtain ⟨_, _, done⟩ := bind_eq_ok.mp done
  obtain ⟨_, _, done⟩ := bind_eq_ok.mp done
  split at done
  · cases done
  · rename_i last found
    obtain rfl := pure_eq_ok.mp done
    dsimp only at chosen
    split_ifs at chosen
    obtain rfl := Option.some.inj chosen
    exact unique_subset group (List.mem_of_mem_getLast? found)

theorem openTime_of_mem_group {bars : List CanonicalBar} (member : group ∈ openTimeGroups bars) :
    ∀ first ∈ group, ∀ other ∈ group, first.openTimeUtcMs = other.openTimeUtcMs := by
  have chain := List.isChain_of_mem_splitBy member
  simp only [decide_eq_true_eq] at chain
  let same (left right : CanonicalBar) : Prop := right.openTimeUtcMs = left.openTimeUtcMs
  have : IsTrans CanonicalBar same := ⟨fun _ _ _ front back => back.trans front⟩
  have sorted : group.Pairwise same := List.isChain_iff_pairwise.mp chain
  intro first inside other among
  have : Std.Symm same := ⟨fun _ _ alike => alike.symm⟩
  have own : ∀ bar ∈ group, same bar bar := fun _ _ => rfl
  have alike : same first other := sorted.forall_of_forall own inside among
  exact alike.symm

theorem mem_of_mem_group {bars : List CanonicalBar} {bar : CanonicalBar}
    (member : group ∈ openTimeGroups bars) (inside : bar ∈ group) : bar ∈ bars := by
  have whole : bars = (openTimeGroups bars).flatten := (List.flatten_splitBy _ bars).symm
  rw [whole]
  exact List.mem_flatten.mpr ⟨group, member, inside⟩

end Groups

section Kept

/-- A bar inside a range that does not close before it opens. -/
structure InRange (start stop : Int) (bar : CanonicalBar) : Prop where
  opens : start ≤ bar.openTimeUtcMs
  long : bar.openTimeUtcMs ≤ bar.closeTimeUtcMs
  closes : bar.closeTimeUtcMs < stop

/-- The kept bars follow one another, and none of them closes after the last selected bar. -/
structure KeptInOrder (start stop : Int) (state : Selection) : Prop where
  inside : ∀ bar ∈ state.kept, InRange start stop bar
  ordered : state.kept.Pairwise fun first second => first.closeTimeUtcMs < second.openTimeUtcMs
  ended : ∀ bar ∈ state.kept, ∃ close, state.previousClose = some close ∧ bar.closeTimeUtcMs ≤ close

variable {start stop : Int} {policy : String} {state after : Selection} {group bars : List CanonicalBar}

theorem KeptInOrder.selectGroup (kept : KeptInOrder start stop state) (member : group ∈ openTimeGroups bars)
    (inside : ∀ bar ∈ bars, InRange start stop bar) (step : selectGroup policy state group = .ok after) :
    KeptInOrder start stop after := by
  unfold MarketdataProvider.selectGroup at step
  split at step
  swap
  · cases step
  rename_i first found
  obtain ⟨resolved, done, step⟩ := bind_eq_ok.mp step
  split at step
  · obtain rfl := pure_eq_ok.mp step
    exact ⟨kept.inside, kept.ordered, kept.ended⟩
  · rename_i selected chosen
    obtain ⟨_, free, step⟩ := bind_eq_ok.mp step
    obtain rfl := pure_eq_ok.mp step
    have chosenMem := selected_mem done chosen
    have own := inside selected (mem_of_mem_group member chosenMem)
    have opens := openTime_of_mem_group member first (List.mem_of_mem_head? found) selected chosenMem
    have overlap := refuse_eq_ok.mp free
    have before : ∀ bar ∈ state.kept, bar.closeTimeUtcMs < selected.openTimeUtcMs := by
      intro bar among
      obtain ⟨close, last, bound⟩ := kept.ended bar among
      rw [last, Option.any_some, decide_eq_true_eq] at overlap
      omega
    dsimp only
    constructor
    · dsimp only
      split_ifs
      · exact List.forall_mem_append.mpr ⟨kept.inside, by simpa using own⟩
      · exact kept.inside
    · dsimp only
      split_ifs
      · rw [List.pairwise_append]
        refine ⟨kept.ordered, List.pairwise_singleton .., ?_⟩
        intro bar among other same
        rw [List.mem_singleton.mp same]
        exact before bar among
      · exact kept.ordered
    · intro bar among
      refine ⟨_, rfl, ?_⟩
      dsimp only at among
      have long := own.long
      split_ifs at among
      · rcases List.mem_append.mp among with among | among
        · have ended := before bar among
          omega
        · rw [List.mem_singleton.mp among]
      · have ended := before bar among
        omega

end Kept

section Arguments

variable [PyText] [SnapshotContracts] {D : Type} [PyDecimal D] {call : SnapshotArguments} {scope : SnapshotScope}

omit [PyText] [SnapshotContracts] in
theorem integerField_int {name : String} {value result : Int} (checked : integerField name (.int value) = .ok result) :
    result = value := by
  rw [integerField] at checked
  split_ifs at checked
  exact (Except.ok.inj checked).symm

omit [PyText] [SnapshotContracts] in
theorem requiredText_text {name value result : String} (checked : requiredText name (.text value) = .ok result) :
    result = value := by
  rw [requiredText] at checked
  split_ifs at checked
  exact (Except.ok.inj checked).symm

omit [SnapshotContracts] in
theorem checkArguments_ok (checked : checkArguments call = .ok scope) :
    scope.query.instrumentId = call.instrumentId ∧ scope.query.timeframe = call.timeframe ∧
      scope.query.startUtcMs = call.startUtcMs ∧ scope.query.endUtcMs = call.endUtcMs := by
  obtain ⟨_, _, checked⟩ := bind_eq_ok.mp checked
  obtain ⟨_, instrument, checked⟩ := bind_eq_ok.mp checked
  obtain ⟨_, timeframe, checked⟩ := bind_eq_ok.mp checked
  obtain ⟨_, _, checked⟩ := bind_eq_ok.mp checked
  obtain ⟨_, start, checked⟩ := bind_eq_ok.mp checked
  obtain ⟨_, stop, checked⟩ := bind_eq_ok.mp checked
  obtain ⟨_, _, checked⟩ := bind_eq_ok.mp checked
  obtain ⟨_, _, checked⟩ := bind_eq_ok.mp checked
  obtain rfl := pure_eq_ok.mp checked
  exact ⟨requiredText_text instrument, (FieldValue.text.inj (canonicalTimeframeField_ok timeframe).1).symm,
    integerField_int start, integerField_int stop⟩

omit [PyText] [SnapshotContracts] in
theorem admitBar_inRange {previous : Option Int} {bar : CanonicalBar} (long : bar.openTimeUtcMs ≤ bar.closeTimeUtcMs)
    (admitted : admitBar scope previous bar = .ok ()) :
    InRange scope.query.startUtcMs scope.query.endUtcMs bar := by
  unfold admitBar at admitted
  split_ifs at admitted with _ _ _ _ outside
  rw [not_or, not_lt, not_le] at outside
  exact ⟨outside.1, long, outside.2⟩

theorem normalizeNext_inRange {normalized after : List CanonicalBar} {raw : Option BarMapping}
    (inside : ∀ bar ∈ normalized, InRange scope.query.startUtcMs scope.query.endUtcMs bar)
    (step : normalizeNext D scope normalized raw = .ok after) :
    ∀ bar ∈ after, InRange scope.query.startUtcMs scope.query.endUtcMs bar := by
  unfold normalizeNext at step
  split at step
  swap
  · cases step
  obtain ⟨bar, made, step⟩ := bind_eq_ok.mp step
  obtain ⟨_, admitted, step⟩ := bind_eq_ok.mp step
  obtain rfl := pure_eq_ok.mp step
  refine List.forall_mem_append.mpr ⟨inside, ?_⟩
  intro other same
  rw [List.mem_singleton.mp same]
  exact admitBar_inRange (normalizeSnapshotBar_close made) admitted

end Arguments

section Partition

variable {bars : List CanonicalBar} {start stop : Int}

theorem coverageMetadata_gaps : (coverageMetadata bars start stop).2 =
    Extent.gaps start stop (bars.map CanonicalBar.extent) := by
  rw [coverageMetadata, Extent.gaps, List.foldl_map]
  rfl

theorem contractCoverage_extents (instrumentId timeframe : String) :
    (contractCoverage bars instrumentId timeframe).map CoverageRange.toExtent =
      Extent.joined (bars.map CanonicalBar.extent) := by
  induction bars using List.reverseRecOn with
  | nil => rfl
  | append_singleton front bar ih =>
      rw [contractCoverage, List.foldl_concat, List.map_append, List.map_singleton, Extent.joined,
        List.foldl_concat, ← Extent.joined, ← ih, ← contractCoverage, addRange, Extent.join, List.getLast?_map]
      cases (contractCoverage front instrumentId timeframe).getLast? with
      | none => simp [CanonicalBar.extent]
      | some last =>
          rw [Option.map_some]
          dsimp only
          by_cases touches : bar.openTimeUtcMs ≤ last.stop
          · have same : bar.extent.start ≤ last.stop := touches
            rw [if_pos touches, if_pos same, List.map_append, List.map_dropLast, List.map_singleton]
            rfl
          · have same : ¬ bar.extent.start ≤ last.stop := touches
            rw [if_neg touches, if_neg same, List.map_append, List.map_singleton]
            rfl

theorem covers_bars {time : Int} : Extent.Covers (bars.map CanonicalBar.extent) time ↔
    ∃ bar ∈ bars, bar.openTimeUtcMs ≤ time ∧ time ≤ bar.closeTimeUtcMs := by
  simp only [Extent.Covers, List.mem_map, exists_exists_and_eq_and, CanonicalBar.extent, Int.lt_add_one_iff]

variable {state : Selection}

theorem KeptInOrder.extents (kept : KeptInOrder start stop state) :
    (∀ extent ∈ state.kept.map CanonicalBar.extent, start ≤ extent.start ∧ extent.start < extent.stop ∧
        extent.stop ≤ stop) ∧
      (state.kept.map CanonicalBar.extent).Pairwise fun first second => first.start ≤ second.start := by
  constructor
  · intro extent member
    obtain ⟨bar, among, rfl⟩ := List.mem_map.mp member
    obtain ⟨opens, long, closes⟩ := kept.inside bar among
    dsimp only [CanonicalBar.extent]
    omega
  · rw [List.pairwise_map]
    apply kept.ordered.imp_of_mem
    intro first second among _ before
    have long := (kept.inside first among).long
    dsimp only [CanonicalBar.extent]
    omega

end Partition

section Snapshots

variable [PyText] [SnapshotContracts] {D : Type} [PyDecimal D] {call : SnapshotArguments}
  {snapshot : DataSnapshot}

/-- A snapshot packs bars that follow one another inside its range. -/
theorem buildDataSnapshot_ok (built : buildDataSnapshot D call = .ok snapshot) :
    ∃ scope selection, checkArguments call = .ok scope ∧
      KeptInOrder call.startUtcMs call.endUtcMs selection ∧ packSnapshot call scope selection = .ok snapshot := by
  obtain ⟨scope, checked, built⟩ := bind_eq_ok.mp built
  obtain ⟨normalized, admitted, built⟩ := bind_eq_ok.mp built
  obtain ⟨selection, selected, packed⟩ := bind_eq_ok.mp built
  obtain ⟨_, _, start, stop⟩ := checkArguments_ok checked
  have inside : ∀ bar ∈ normalized, InRange call.startUtcMs call.endUtcMs bar := by
    rw [← start, ← stop]
    exact foldlM_keeps (fun _ _ _ _ known step => normalizeNext_inRange known step) (by simp) admitted
  refine ⟨scope, selection, checked, ?_, packed⟩
  exact foldlM_keeps (fun group member _ _ kept step => kept.selectGroup member inside step)
    ⟨by simp, .nil, by simp⟩ selected

omit [PyText] in
theorem packSnapshot_ok {scope : SnapshotScope} {selection : Selection}
    (packed : packSnapshot call scope selection = .ok snapshot) :
    snapshot.bars = selection.kept ∧
      snapshot.coverage = (coverageMetadata selection.kept scope.query.startUtcMs scope.query.endUtcMs).1 ∧
      snapshot.gaps = (coverageMetadata selection.kept scope.query.startUtcMs scope.query.endUtcMs).2 ∧
      snapshot.body.coverage =
        contractCoverage selection.kept scope.query.instrumentId scope.query.timeframe := by
  obtain ⟨_, _, packed⟩ := bind_eq_ok.mp packed
  obtain ⟨_, _, packed⟩ := bind_eq_ok.mp packed
  obtain ⟨envelope, sealed, packed⟩ := bind_eq_ok.mp packed
  obtain rfl := pure_eq_ok.mp packed
  obtain ⟨_, _, sealed⟩ := bind_eq_ok.mp sealed
  obtain ⟨_, _, sealed⟩ := bind_eq_ok.mp sealed
  obtain rfl := pure_eq_ok.mp sealed
  exact ⟨rfl, rfl, rfl, rfl⟩

/-- The coverage and the gaps of a snapshot are apart, and they partition the requested range into the
times of the kept bars and the others. -/
theorem snapshot_partitions_range (built : buildDataSnapshot D call = .ok snapshot) :
    let ranges := snapshot.body.coverage.map CoverageRange.toExtent
    (Extent.Apart ranges ∧ ∀ range ∈ ranges, call.startUtcMs ≤ range.start ∧ range.stop ≤ call.endUtcMs) ∧
      (Extent.Apart snapshot.gaps ∧
        ∀ gap ∈ snapshot.gaps, call.startUtcMs ≤ gap.start ∧ gap.stop ≤ call.endUtcMs) ∧
      (∀ time, Extent.Covers ranges time ↔
        ∃ bar ∈ snapshot.bars, bar.openTimeUtcMs ≤ time ∧ time ≤ bar.closeTimeUtcMs) ∧
      (∀ time, call.startUtcMs ≤ time → time < call.endUtcMs →
        (Extent.Covers snapshot.gaps time ↔ ¬ Extent.Covers ranges time)) ∧
      snapshot.coverage.gapCount = snapshot.gaps.length ∧
      (snapshot.coverage.complete = true ↔
        ∀ time, call.startUtcMs ≤ time → time < call.endUtcMs → Extent.Covers ranges time) := by
  obtain ⟨scope, selection, checked, kept, packed⟩ := buildDataSnapshot_ok built
  obtain ⟨_, _, start, stop⟩ := checkArguments_ok checked
  obtain ⟨bars, details, gaps, coverage⟩ := packSnapshot_ok packed
  obtain ⟨inside, sorted⟩ := kept.extents
  have nonempty := fun extent member => (inside extent member).2.1
  obtain ⟨joinedApart, joinedCovers⟩ := Extent.joined_spec nonempty sorted
  obtain ⟨gapsApart, gapsInside, complement⟩ := Extent.gaps_spec call.startUtcMs nonempty sorted
    (fun extent member => (inside extent member).2.2)
  have whole := Extent.gaps_eq_nil_iff call.startUtcMs nonempty sorted (fun extent member => (inside extent member).2.2)
  have details : snapshot.coverage.gapCount = snapshot.gaps.length ∧
      snapshot.coverage.complete = snapshot.gaps.isEmpty := by
    rw [details, gaps]
    exact ⟨rfl, rfl⟩
  rw [start, stop, coverageMetadata_gaps] at gaps
  dsimp only
  rw [coverage, contractCoverage_extents, details.2, gaps, bars, List.isEmpty_iff]
  refine ⟨⟨joinedApart, ?_⟩, ⟨gapsApart, gapsInside⟩, ?_, ?_, by rw [details.1, gaps], ?_⟩
  · exact Extent.joined_inside fun extent member => ⟨(inside extent member).1, (inside extent member).2.2⟩
  · intro time
    rw [joinedCovers, covers_bars]
  · intro time first last
    rw [joinedCovers, complement time first last]
  · rw [whole]
    simp only [joinedCovers]

end Snapshots

end MarketdataProvider

namespace MarketdataProvider

open Reference Foundation
open scoped Reference

/-- A monthly bar of a price; its lineage is given. -/
def monthBar (openTime price : Int) (finality : Finality) (state : RevisionState) (revision : Int)
    (superseded : Option String) : Except PyError CanonicalBar :=
  makeCanonicalBar Whole {
    instrumentId := "binance/spot/BTCUSDT"
    timeframe := "1M"
    openTimeUtcMs := openTime
    closeTimeUtcMs := none
    openPrice := .text (toString price)
    high := .text (toString price)
    low := .text (toString price)
    close := .text (toString price)
    volume := .text "1"
    snapshotId := "months"
    provider := "binance"
    providerRevision := knownRevision "rest-1"
    producerCommit := "1111111111111111111111111111111111111111"
    stackId := "sha256:2222222222222222222222222222222222222222222222222222222222222222"
    createdAtUtcMs := 0
    supersededBarHash := superseded
    finality := some (.member finality)
    revisionState := .member state
    revision }

/-- January is final, February open, and March revoked. -/
def monthBars : Except PyError (List CanonicalBar) := do
  let january ← monthBar 0 10 .final .original 0 none
  let february ← monthBar 2678400000 11 .opened .original 0 none
  let march ← monthBar 5097600000 12 .final .original 0 none
  let revoked ← monthBar 5097600000 12 .final .revoked 1 (some march.hash)
  return [january, february, march, revoked]

def monthCall : SnapshotArguments where
  snapshotId := "months"
  instrumentId := "binance/spot/BTCUSDT"
  timeframe := "1M"
  providerRevision := knownRevision "rest-1"
  producerCommit := "1111111111111111111111111111111111111111"
  stackId := "sha256:2222222222222222222222222222222222222222222222222222222222222222"
  startUtcMs := 0
  endUtcMs := 10368000000
  bars := (monthBars.toOption.getD []).map fun bar => some bar.mapping
  finalityPolicy := "CLOSED_BAR_ONLY"
  clock := 5

theorem monthCall_returns : (buildDataSnapshot Whole monthCall).toOption.map (fun snapshot =>
    (snapshot.gaps, snapshot.body.coverage.map CoverageRange.toExtent)) =
    some ([⟨2678400000, 10368000000⟩], [⟨0, 2678400000⟩]) := by decide +kernel

/-- January is covered; the other months until the end of April are one gap. -/
theorem snapshot_partitions_months : ∃ snapshot, buildDataSnapshot Whole monthCall = .ok snapshot ∧
    snapshot.gaps = [⟨2678400000, 10368000000⟩] ∧
    snapshot.body.coverage.map CoverageRange.toExtent = [⟨0, 2678400000⟩] ∧
    Extent.Apart snapshot.gaps ∧ ¬ Extent.Covers snapshot.gaps 0 := by
  obtain ⟨snapshot, found, shown⟩ := Option.map_eq_some_iff.mp monthCall_returns
  have built : buildDataSnapshot Whole monthCall = .ok snapshot := eq_ok_of_toOption found
  obtain ⟨gaps, coverage⟩ := Prod.mk.inj shown
  obtain ⟨_, ⟨apart, _⟩, _, complement, _⟩ := snapshot_partitions_range built
  refine ⟨snapshot, built, gaps, coverage, apart, ?_⟩
  rw [complement 0 (le_refl (0 : Int)) (by decide), coverage, not_not]
  exact ⟨⟨0, 2678400000⟩, by simp, by decide⟩

end MarketdataProvider
