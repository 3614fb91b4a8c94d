import MarketdataProvider.Service.CandleAdapter
import MarketdataProvider.Service.Composition
import MarketdataProvider.Service.MarketDataService

namespace MarketdataProvider

open Foundation

section Parts

variable [PyText] {F : Type} [PyFloat F] {D : Type} [PyDecimal D] [AggregateHash] [PySum F]
  {query : BarQuery} {duration time : Int} {stored out : List (MarketBar F)} {bar : MarketBar F}

/-- The stored bars of a bucket. -/
def wholeBucket (duration time : Int) (stored : List (MarketBar F)) : List (MarketBar F) :=
  stored.filter fun bar => bucketTime duration bar = time

/-- The part of a bucket before the end of a query. -/
def bucketPart (query : BarQuery) (duration time : Int) (stored : List (MarketBar F)) : List (MarketBar F) :=
  (wholeBucket duration time stored).filter fun bar => bar.time < query.endMs

/-- A bar that `_aggregate_bucket` makes of these bars. -/
def AggregateOf (D : Type) [PyDecimal D] (query : BarQuery) (part : List (MarketBar F)) (bar : MarketBar F) : Prop :=
  ∃ first rest, part = first :: rest ∧ aggregateBucket D bar.time first rest query = .ok bar

theorem aggregateBucket_closed {first : MarketBar F} {rest : List (MarketBar F)}
    (made : aggregateBucket D time first rest query = .ok bar) :
    bar.isClosed = (first :: rest).all MarketBar.isClosed := by
  simp only [aggregateBucket, bind_eq_ok, pure_eq_ok] at made
  obtain ⟨_, -, _, -, _, -, _, -, _, -, _, -, _, -, rfl⟩ := made
  rfl

omit [PyFloat F] [AggregateHash] [PySum F] in
/-- The bars between the bounds of a query whose bucket is this one. -/
theorem filter_range (positive : 0 < duration) (from_start : query.startMs ≤ time) (before : time < query.endMs) :
    ((stored.filter (inRange (some query.startMs) (some query.endMs))).filter (inBuckets duration query)).filter
        (fun bar => bucketTime duration bar = time) = bucketPart query duration time stored := by
  rw [bucketPart, wholeBucket, List.filter_filter, List.filter_filter, List.filter_filter]
  apply List.filter_congr
  intro bar _
  have low := Int.ediv_mul_le bar.time positive.ne'
  by_cases own : bucketTime duration bar = time
  · have bounds : (inBuckets duration query bar && inRange (some query.startMs) (some query.endMs) bar) =
        decide (bar.time < query.endMs) := by
      have start : bar.time / duration * duration = time := own
      rw [Bool.eq_iff_iff]
      simp only [inRange, inBuckets, Option.all_some, Bool.and_eq_true, decide_eq_true_eq, start]
      omega
    simpa [own] using bounds
  · simp [own]

/-- Bars behind the end of a query whose bucket the query persists as a closed bar. -/
def Uncut (query : BarQuery) (duration : Int) (stored : List (MarketBar F)) : Prop :=
  ∀ bar ∈ stored, query.endMs ≤ bar.time → query.startMs ≤ bucketTime duration bar →
    bucketTime duration bar < query.endMs →
      bucketPart query duration (bucketTime duration bar) stored = [] ∨
        ∃ other ∈ bucketPart query duration (bucketTime duration bar) stored, other.isClosed = false

/-- A bar that aggregates the part of its bucket before the end of the query only. -/
def CutAggregate (D : Type) [PyDecimal D] (query : BarQuery) (duration : Int) (stored : List (MarketBar F))
    (bar : MarketBar F) : Prop :=
  AggregateOf D query (bucketPart query duration bar.time stored) bar ∧
    bucketPart query duration bar.time stored ≠ wholeBucket duration bar.time stored

/-- Every aggregated bar is made of the part of its bucket, and every part makes a bar. -/
theorem aggregate_parts (positive : 0 < duration) (known : query.timeframe.durationMs = some duration)
    (ascending : stored.Pairwise (·.time < ·.time))
    (made : aggregateMarketBars D (stored.filter (inRange (some query.startMs) (some query.endMs))) query = .ok out) :
    (∀ bar ∈ out, query.startMs ≤ bar.time ∧ bar.time < query.endMs ∧
      AggregateOf D query (bucketPart query duration bar.time stored) bar) ∧
    ∀ time, query.startMs ≤ time → time < query.endMs → bucketPart query duration time stored ≠ [] →
      ∃ bar ∈ out, bar.time = time := by
  have ranged := ascending.filter (inRange (some query.startMs) (some query.endMs))
  obtain ⟨result, rfl, each⟩ := results_of_aggregate positive known made
  have cut := @bucketsOf_cut _ F _ query _ positive ranged
  constructor
  · intro bar member
    obtain ⟨bucket, inside, rfl⟩ := List.mem_map.mp member
    have aggregated := each bucket inside
    have own := (aggregateBucket_times D aggregated).1
    have members := cut.members_eq inside
    have head : bucket.first ∈ bucket.bars := List.mem_cons_self
    rw [← members, List.mem_filter] at head
    have bounds := (List.mem_filter.mp head.1).2
    have key : bucketTime duration bucket.first = bucket.time := of_decide_eq_true head.2
    have inQuery : query.startMs ≤ bucket.time ∧ bucket.time < query.endMs := by
      rw [inBuckets, show bucket.first.time / duration * duration = bucket.time from key, Bool.and_eq_true,
        decide_eq_true_eq, decide_eq_true_eq] at bounds
      exact bounds
    rw [own]
    refine ⟨inQuery.1, inQuery.2, bucket.first, bucket.rest, ?_, by rw [own]; exact aggregated⟩
    exact (filter_range positive inQuery.1 inQuery.2).symm.trans members
  · intro time from_start before filled
    rw [← filter_range positive from_start before] at filled
    obtain ⟨bar, member⟩ := List.exists_mem_of_ne_nil _ filled
    obtain ⟨inside, key⟩ := List.mem_filter.mp member
    obtain ⟨bucket, there, same⟩ := cut.label_iff.mpr ⟨bar, inside, of_decide_eq_true key⟩
    refine ⟨result bucket, List.mem_map_of_mem there, ?_⟩
    rw [(aggregateBucket_times D (each bucket there)).1]
    exact same

/-- No bar aggregates a cut bucket, when the bar is closed. -/
def NoCut (D : Type) [PyDecimal D] (query : BarQuery) (duration : Int) (stored out : List (MarketBar F)) : Prop :=
  ∀ bar ∈ out, bar.isClosed = true → ¬ CutAggregate D query duration stored bar

omit [PyFloat F] [AggregateHash] [PySum F] in
theorem part_ne_whole_iff : bucketPart query duration time stored ≠ wholeBucket duration time stored ↔
    ∃ bar ∈ stored, query.endMs ≤ bar.time ∧ bucketTime duration bar = time := by
  rw [bucketPart, Ne, List.filter_eq_self]
  push Not
  constructor
  · rintro ⟨bar, member, late⟩
    obtain ⟨inside, own⟩ := List.mem_filter.mp member
    exact ⟨bar, inside, by simpa using late, of_decide_eq_true own⟩
  · rintro ⟨bar, inside, late, own⟩
    exact ⟨bar, List.mem_filter.mpr ⟨inside, decide_eq_true own⟩, by simpa using late⟩

/-- The closed bars of an aggregation are whole exactly when the query cuts no bucket of stored bars. -/
theorem noCut_iff_uncut (positive : 0 < duration) (known : query.timeframe.durationMs = some duration)
    (ascending : stored.Pairwise (·.time < ·.time))
    (made : aggregateMarketBars D (stored.filter (inRange (some query.startMs) (some query.endMs))) query = .ok out) :
    NoCut D query duration stored out ↔ Uncut query duration stored := by
  obtain ⟨each, every⟩ := aggregate_parts positive known ascending made
  constructor
  · intro noCut bar inside late from_start before
    by_contra part
    push Not at part
    obtain ⟨filled, closed⟩ := part
    obtain ⟨made, member, own⟩ := every _ from_start before filled
    obtain ⟨-, -, aggregate⟩ := each made member
    have whole : bucketPart query duration made.time stored ≠ wholeBucket duration made.time stored :=
      part_ne_whole_iff.mpr ⟨bar, inside, late, own.symm⟩
    refine noCut made member ?_ ⟨aggregate, whole⟩
    obtain ⟨first, rest, same, aggregated⟩ := aggregate
    rw [aggregateBucket_closed aggregated, ← same, own, List.all_eq_true]
    intro other there
    simpa using closed other there
  · rintro uncut bar member closed ⟨⟨first, rest, same, aggregated⟩, part⟩
    obtain ⟨other, inside, late, own⟩ := part_ne_whole_iff.mp part
    obtain ⟨from_start, before, -⟩ := each bar member
    rcases uncut other inside late (own ▸ from_start) (own ▸ before) with empty | ⟨open_bar, there, isOpen⟩
    · rw [own, same] at empty
      cases empty
    · rw [own, same] at there
      rw [aggregateBucket_closed aggregated, List.all_eq_true] at closed
      rw [closed open_bar there] at isOpen
      cases isOpen

end Parts

section Merges

variable [PyText] {F : Type} {query base : BarQuery} {key : SeriesKey} {bars : List (MarketBar F)}

/-- A call that merges into one series only. -/
def MergesInto (key : SeriesKey) (op : StoreCall F) : Prop :=
  ∀ other bars, op = .mergeClosed other bars → other = key

theorem upsertOpen_only (bar : MarketBar F) : (upsertOpen bar).Only (MergesInto key) := by
  unfold upsertOpen
  split
  · refine .bind (.bind ⟨nofun, fun _ => trivial⟩ fun _ => .bind ⟨nofun, fun _ => trivial⟩
      fun _ => trivial) ?_
    exact fun _ => trivial
  · refine .bind ⟨nofun, fun _ => trivial⟩ fun stored => ?_
    split
    · exact trivial
    · exact .bind ⟨nofun, fun _ => trivial⟩ fun _ => trivial

theorem upsertOpenBars_only : (upsertOpenBars bars).Only (MergesInto key) := by
  induction bars with
  | nil => exact trivial
  | cons bar rest ih =>
      unfold upsertOpenBars
      split
      · exact ih
      · exact .bind (upsertOpen_only bar) fun _ => ih

theorem deleteCurrentBars_only : (deleteCurrentBars bars).Only (MergesInto key) := by
  induction bars with
  | nil => exact trivial
  | cons bar rest ih => exact .bind ⟨nofun, fun _ => trivial⟩ fun _ => ih

variable [PyFloat F]

omit [PyFloat F] in
theorem storedBarsOf_only : (storedBarsOf query : Service F (List (MarketBar F))).Only (MergesInto key) :=
  ⟨nofun, fun _ => trivial⟩

omit [PyFloat F] in
theorem storedCoverageComplete_only : (storedCoverageComplete query : Service F Bool).Only (MergesInto key) := by
  unfold storedCoverageComplete
  split
  · exact trivial
  · exact .bind ⟨nofun, fun _ => trivial⟩ fun _ => trivial

omit [PyFloat F] in
theorem storedSpanComplete_only : (storedSpanComplete query : Service F Bool).Only (MergesInto key) :=
  .bind ⟨nofun, fun _ => trivial⟩ fun _ => trivial

omit [PyFloat F] in
theorem appendStream_only : (appendStream query bars).Only (MergesInto key) := by
  refine .bind upsertOpenBars_only fun _ => ?_
  split
  · exact trivial
  · exact .bind ⟨nofun, fun _ => trivial⟩ fun _ => deleteCurrentBars_only

omit [PyFloat F] in
theorem ensureWhole_only : (ensureWhole query : Service F Bool).Only (MergesInto query.key) := by
  refine .bind storedBarsOf_only fun _ => .bind (.ofExcept _) fun complete => ?_
  split
  · exact trivial
  · refine .bind ⟨nofun, fun _ => trivial⟩ fun fetched => ?_
    split
    · exact trivial
    · refine .bind upsertOpenBars_only fun _ => ?_
      split
      · exact trivial
      · refine .bind ⟨?_, fun _ => trivial⟩ fun _ => .bind deleteCurrentBars_only fun _ => trivial
        rintro other bars ⟨⟩
        rfl

omit [PyFloat F] in
/-- Storing a query merges into its own series only. -/
theorem ensureStored_only : (ensureStored query : Service F Bool).Only (MergesInto query.key) := by
  refine .bind storedCoverageComplete_only fun complete => ?_
  split
  · exact trivial
  · refine .bind ⟨nofun, fun _ => trivial⟩ fun span => ?_
    split
    · exact ensureWhole_only
    · refine .bind ⟨nofun, fun _ => trivial⟩ fun fetched => ?_
      split
      · exact ensureWhole_only
      · exact .bind appendStream_only fun _ => trivial

end Merges

section Derive

variable [PyText] {F : Type} [PyFloat F] [Sha256] {D : Type} [PyDecimal D] [AggregateHash] [PySum F]
  {environment : Environment F} {others : World F → World F → Prop} {config : HistoryConfig}
  {query base : BarQuery} {key : SeriesKey} {bars : List (MarketBar F)} {world place : World F}

/-- The base bars of a place and what the query makes of them. -/
def DerivedFrom (D : Type) [PyDecimal D] (base query : BarQuery) (place : World F)
    (bars : List (MarketBar F)) : Prop :=
  ∃ stored, place.seriesOf base.key = .ok stored ∧
    aggregateMarketBars D (rangeOf stored (some query.startMs) (some query.endMs)) query = .ok bars

/-- Other calls leave the base series alone. -/
def LeavesBase (others : World F → World F → Prop) (base : BarQuery) : Prop :=
  ∀ before after, others before after → after.seriesOf base.key = before.seriesOf base.key

omit [Sha256] in
theorem LeavesBase.derivedFrom (quiet : LeavesBase others base) {middle : World F}
    (led : Relation.ReflTransGen others middle place) (derived : DerivedFrom D base query middle bars) :
    DerivedFrom D base query place bars := by
  induction led with
  | refl => exact derived
  | tail _ step ih =>
      obtain ⟨stored, located, made⟩ := ih
      exact ⟨stored, (quiet _ _ step).trans located, made⟩

theorem aggregateStoredBase_ok (quiet : LeavesBase others base) {meets : StoreCall F → World F → Prop}
    (ran : Calls.Interleaved (handle environment) meets others (aggregateStoredBase D base query) world (.ok bars)
      place) :
    DerivedFrom D base query place bars := by
  have ensured : Calls.Ensures (handle environment) meets others (aggregateStoredBase D base query) world
      (fun bars place => DerivedFrom D base query place bars) (fun _ _ => True) := by
    apply Calls.Ensures.call (fun _ _ (_ : True) _ => trivial) ?_ trivial
    intro state _ _
    have answered : handle environment (.readAll base.key (some query.startMs) (some query.endMs)) state =
        looks state ((rangeOf · (some query.startMs) (some query.endMs)) <$> state.seriesOf base.key) := rfl
    rw [answered]
    cases located : state.seriesOf base.key with
    | error error => exact trivial
    | ok stored =>
        change Calls.Ensures (handle environment) meets others
          (Calls.ofExcept (aggregateMarketBars D (rangeOf stored (some query.startMs) (some query.endMs)) query))
          state _ _
        cases made : aggregateMarketBars D (rangeOf stored (some query.startMs) (some query.endMs)) query with
        | error error => exact .fail (fun _ _ (_ : True) _ => trivial) (fun _ _ => trivial) trivial
        | ok out =>
            have stable (before after : World F) (derived : DerivedFrom D base query before out)
                (step : others before after) : DerivedFrom D base query after out :=
              quiet.derivedFrom (.single step) derived
            exact Calls.Ensures.done stable (fun _ derived => derived) ⟨stored, located, made⟩
  exact ensured _ _ ran

omit [AggregateHash] [PySum F] in
/-- The merge of derived bars is made where the others have led. -/
theorem mergeDerivedBars_makes {out : List (MarketBar F)}
    (makes : Calls.Makes (handle environment) others (mergeDerivedBars query bars) world (.mergeClosed key out)
      place) :
    out = bars ∧ Relation.ReflTransGen others world place := by
  cases bars with
  | nil => exact absurd makes Calls.not_makes_done
  | cons first rest =>
      rw [mergeDerivedBars] at makes
      split at makes
      · exact absurd makes Calls.not_makes_fail
      · obtain ⟨same, led⟩ := Calls.makes_call makes
        cases same
        exact ⟨rfl, led⟩

/-- A merge after the aggregation of stored base bars is one of its outcome. -/
theorem aggregated_merge (quiet : LeavesBase others base) {out : List (MarketBar F)} {Value : Type}
    {rest : List (MarketBar F) → Service F Value}
    (merges : ∀ derived middle,
      Calls.Makes (handle environment) others (rest derived) middle (.mergeClosed key out) place →
      out = derived ∧ Relation.ReflTransGen others middle place)
    (makes : Calls.Makes (handle environment) others (aggregateStoredBase D base query >>= rest) world
      (.mergeClosed key out) place) : DerivedFrom D base query place out := by
  rcases Calls.makes_bind makes with early | ⟨derived, middle, ran, late⟩
  · have only : (aggregateStoredBase D base query : Service F _).Only fun op : StoreCall F =>
        ∀ key bars, op ≠ .mergeClosed key bars := .bind ⟨nofun, fun _ => trivial⟩ fun _ => .ofExcept _
    exact absurd rfl (only.makes early key out)
  · obtain ⟨rfl, led⟩ := merges derived middle late
    exact quiet.derivedFrom led (aggregateStoredBase_ok quiet ran)

/-- The calls that persist derived bars. -/
inductive DerivingCall where
  | fetchBars
  | materializeBars

def DerivingCall.program (D : Type) [PyDecimal D] (config : HistoryConfig) (query : BarQuery) :
    DerivingCall → Service F Unit
  | .fetchBars => do
      let _ ← MarketdataProvider.fetchBars D config query
  | .materializeBars => do
      let _ ← MarketdataProvider.materializeBars D config query

omit [PySum F] [AggregateHash] in
/-- A merge into another series is not made by a part that merges into the base only. -/
theorem merge_later {Value Result : Type} {program : Service F Value} {rest : Value → Service F Result}
    {out : List (MarketBar F)} {goal : Prop} (other : key ≠ base.key) (only : program.Only (MergesInto base.key))
    (later : ∀ value middle,
      Calls.Makes (handle environment) others (rest value) middle (.mergeClosed key out) place →
      goal)
    (makes : Calls.Makes (handle environment) others (program >>= rest) world (.mergeClosed key out) place) :
    goal := by
  rcases Calls.makes_bind makes with early | ⟨value, middle, -, late⟩
  · exact absurd (only.makes early key out rfl) other
  · exact later value middle late

omit [PySum F] [AggregateHash] in
theorem no_merge {Value : Type} {program : Service F Value} {out : List (MarketBar F)} {goal : Prop}
    (other : key ≠ base.key) (only : program.Only (MergesInto base.key))
    (makes : Calls.Makes (handle environment) others program world (.mergeClosed key out) place) : goal :=
  absurd (only.makes makes key out rfl) other

omit [Sha256] [PySum F] [AggregateHash] in
theorem fromStorage_only {query : BarQuery} :
    (fromStorage query bars : Service F (BarSeries F)).Only (MergesInto key) :=
  .ofExcept _

omit [Sha256] [PySum F] [AggregateHash] in
theorem fetchStored_only : (fetchStored query : Service F (BarSeries F)).Only (MergesInto query.key) := by
  refine .bind storedBarsOf_only fun bars => .bind (.ofExcept _) fun complete => ?_
  split
  · exact fromStorage_only
  · refine .bind ensureStored_only fun _ => .bind storedBarsOf_only fun bars => ?_
    split
    · exact fromStorage_only
    · refine .bind (.ofExcept _) fun complete => ?_
      split
      · exact fromStorage_only
      · exact trivial

theorem fetchDerived_merge (quiet : LeavesBase others base) (other : key ≠ base.key) {out : List (MarketBar F)}
    (makes : Calls.Makes (handle environment) others (fetchDerived D base query) world (.mergeClosed key out) place) :
    DerivedFrom D base query place out := by
  refine merge_later other storedBarsOf_only (fun derived first makes => ?_) makes
  refine merge_later other (.ofExcept _) (fun complete second makes => ?_) makes
  split at makes
  · exact no_merge other fromStorage_only makes
  · refine merge_later other ensureStored_only (fun _ third makes => ?_) makes
    refine merge_later other storedBarsOf_only (fun derived fourth makes => ?_) makes
    refine merge_later other (.ofExcept _) (fun complete fifth makes => ?_) makes
    split at makes
    · exact no_merge other fromStorage_only makes
    · refine aggregated_merge quiet (fun derived middle makes => ?_) makes
      split at makes
      · exact no_merge other fromStorage_only makes
      · rcases Calls.makes_bind makes with early | ⟨_, middle, -, late⟩
        · exact mergeDerivedBars_makes early
        · refine merge_later other storedBarsOf_only (fun derived first makes => ?_) late
          refine merge_later other (.ofExcept _) (fun complete second makes => ?_) makes
          split at makes
          · exact no_merge other fromStorage_only makes
          · exact absurd makes Calls.not_makes_fail

omit [PyFloat F] [Sha256] [AggregateHash] [PySum F] in
theorem materialized_only {changed : Bool} {rows : Option Nat} :
    (materialized query changed rows : Service F Materialized).Only (MergesInto key) :=
  .bind storedCoverageComplete_only fun _ => .bind storedSpanComplete_only fun _ => trivial

theorem materializeDerived_merge (quiet : LeavesBase others base) (other : key ≠ base.key)
    {out : List (MarketBar F)}
    (makes : Calls.Makes (handle environment) others (materializeDerived D base query) world (.mergeClosed key out)
      place) : DerivedFrom D base query place out := by
  refine aggregated_merge quiet (fun derived middle makes => ?_) makes
  split at makes
  · exact no_merge other materialized_only makes
  · rcases Calls.makes_bind makes with early | ⟨_, middle, -, late⟩
    · exact mergeDerivedBars_makes early
    · exact no_merge other materialized_only late

/-- Every merge of a call into another series than that of its base is one of the bars derived there. -/
theorem merge_derivedFrom (quiet : LeavesBase others base) (based : baseQuery config query = .ok base)
    (other : key ≠ base.key) {out : List (MarketBar F)} (call : DerivingCall)
    (makes : Calls.Makes (handle environment) others (call.program D config query) world (.mergeClosed key out)
      place) :
    DerivedFrom D base query place out := by
  cases call with
  | fetchBars =>
      rcases Calls.makes_bind makes with makes | ⟨_, _, -, late⟩
      · rw [fetchBars, based, Calls.ofExcept_ok, Calls.done_bind] at makes
        split at makes
        · exact no_merge other fetchStored_only makes
        · exact fetchDerived_merge quiet other makes
      · exact absurd late Calls.not_makes_done
  | materializeBars =>
      rcases Calls.makes_bind makes with makes | ⟨_, _, -, late⟩
      · rw [materializeBars, based, Calls.ofExcept_ok, Calls.done_bind] at makes
        refine merge_later other storedCoverageComplete_only (fun complete first makes => ?_) makes
        split at makes
        · exact merge_later other storedSpanComplete_only (fun _ _ late => absurd late Calls.not_makes_done) makes
        · split at makes
          · refine merge_later other ensureStored_only (fun changed second makes => ?_) makes
            exact no_merge other materialized_only makes
          · refine merge_later other ensureStored_only (fun changed second makes => ?_) makes
            refine merge_later other storedCoverageComplete_only (fun complete third makes => ?_) makes
            split at makes
            · exact merge_later other storedSpanComplete_only (fun _ _ late => absurd late Calls.not_makes_done) makes
            · split at makes
              · exact materializeDerived_merge quiet other makes
              · refine merge_later other storedSpanComplete_only (fun spans fourth makes => ?_) makes
                split at makes
                · exact merge_later other storedCoverageComplete_only
                    (fun _ _ late => absurd late Calls.not_makes_done) makes
                · exact materializeDerived_merge quiet other makes
      · exact absurd late Calls.not_makes_done

/-- The same prices, volume and decimal texts. -/
structure SamePrices (left right : MarketBar F) : Prop where
  openPrice : left.openPrice = right.openPrice
  high : left.high = right.high
  low : left.low = right.low
  close : left.close = right.close
  volume : left.volume = right.volume
  openText : left.openText = right.openText
  highText : left.highText = right.highText
  lowText : left.lowText = right.lowText
  closeText : left.closeText = right.closeText
  volumeText : left.volumeText = right.volumeText

end Derive

section Independent

variable [PyText] {F : Type} [PyFloat F] [Sha256] {D : Type} [PyDecimal D] [AggregateHash] [PySum F]

/-- A run of a call, beside others, that persists these bars of a timeframe derived from the base. -/
inductive Persists (D : Type) [PyDecimal D] (query base : BarQuery) (stored : Option (ClosedSeries F))
    (bars : List (MarketBar F)) : Prop where
  | of_run {environment : Environment F} {others : World F → World F → Prop} {call : DerivingCall}
      {world place : World F} {key : SeriesKey} (based : baseQuery environment.config query = .ok base)
      (derived : key ≠ base.key) (quiet : LeavesBase others base) (located : place.seriesOf base.key = .ok stored)
      (makes : Calls.Makes (handle environment) others (call.program D environment.config query) world
        (.mergeClosed key bars) place)
      (persisted : (handle environment (.mergeClosed key bars) place).1 = .ok ()) :
      Persists D query base stored bars

variable {query left right base leftBase rightBase : BarQuery} {duration time : Int}
  {stored : Option (ClosedSeries F)} {bars leftBars rightBars : List (MarketBar F)}

omit [Sha256] [AggregateHash] [PySum F] in
theorem rangeOf_eq (start stop : Option Int) :
    rangeOf stored start stop = (storedBars stored).filter (inRange start stop) := by
  cases stored with
  | none => rfl
  | some series => rfl

omit [Sha256] [AggregateHash] [PySum F] in
theorem storedBars_sorted : (storedBars stored).Pairwise (·.time < ·.time) := by
  cases stored with
  | none => exact .nil
  | some series => exact series.sorted

theorem Persists.aggregated (persists : Persists D query base stored bars) :
    aggregateMarketBars D ((storedBars stored).filter (inRange (some query.startMs) (some query.endMs))) query =
      .ok bars := by
  obtain ⟨based, derived, quiet, located, makes, -⟩ := persists
  obtain ⟨found, there, made⟩ := merge_derivedFrom quiet based derived _ makes
  obtain rfl := Except.ok.inj (located.symm.trans there)
  rwa [rangeOf_eq] at made

omit [Sha256] in
/-- Of the query, the aggregate of a bucket depends on the instrument and the timeframe. -/
theorem aggregateBucket_congr (instrument : left.instrument = right.instrument)
    (timeframe : left.timeframe = right.timeframe) (first : MarketBar F) (rest : List (MarketBar F)) :
    aggregateBucket D time first rest left = aggregateBucket D time first rest right := by
  simp only [aggregateBucket, instrument, timeframe]

/-- Closed bars of two queries that cut no bucket are the same. -/
theorem same_of_noCut (positive : 0 < duration) (known : left.timeframe.durationMs = some duration)
    (instrument : left.instrument = right.instrument) (timeframe : left.timeframe = right.timeframe)
    (first : Persists D left leftBase stored leftBars) (second : Persists D right rightBase stored rightBars)
    (leftWhole : NoCut D left duration (storedBars stored) leftBars)
    (rightWhole : NoCut D right duration (storedBars stored) rightBars) {bar other : MarketBar F}
    (member : bar ∈ leftBars) (there : other ∈ rightBars) (closed : bar.isClosed = true)
    (otherClosed : other.isClosed = true) (same_time : bar.time = other.time) : bar = other := by
  obtain ⟨-, -, ours⟩ := (aggregate_parts positive known storedBars_sorted first.aggregated).1 bar member
  obtain ⟨-, -, theirs⟩ :=
    (aggregate_parts positive (timeframe ▸ known) storedBars_sorted second.aggregated).1 other there
  have whole : bucketPart left duration bar.time (storedBars stored) =
      wholeBucket duration bar.time (storedBars stored) := by
    by_contra cut
    exact leftWhole bar member closed ⟨ours, cut⟩
  have otherWhole : bucketPart right duration other.time (storedBars stored) =
      wholeBucket duration other.time (storedBars stored) := by
    by_contra cut
    exact rightWhole other there otherClosed ⟨theirs, cut⟩
  obtain ⟨head, tail, parts, made⟩ := ours
  obtain ⟨otherHead, otherTail, otherParts, otherMade⟩ := theirs
  have equal : head :: tail = otherHead :: otherTail := by
    rw [← parts, ← otherParts, whole, otherWhole, same_time]
  cases equal
  rw [aggregateBucket_congr instrument timeframe, same_time, otherMade] at made
  exact (Except.ok.inj made).symm

/-- The closed bars that two queries persist at one time have the same values, and none is of a cut bucket,
exactly when neither query cuts a bucket of stored bars. -/
theorem derived_bars_independent_iff (positive : 0 < duration) (known : left.timeframe.durationMs = some duration)
    (instrument : left.instrument = right.instrument) (timeframe : left.timeframe = right.timeframe)
    (first : Persists D left leftBase stored leftBars) (second : Persists D right rightBase stored rightBars) :
    ((∀ bar ∈ leftBars, ∀ other ∈ rightBars, bar.isClosed = true → other.isClosed = true →
        bar.time = other.time → SamePrices bar other) ∧
      NoCut D left duration (storedBars stored) leftBars ∧ NoCut D right duration (storedBars stored) rightBars) ↔
    Uncut left duration (storedBars stored) ∧ Uncut right duration (storedBars stored) := by
  have leftWhole := noCut_iff_uncut positive known storedBars_sorted first.aggregated
  have rightWhole := noCut_iff_uncut positive (timeframe ▸ known) storedBars_sorted second.aggregated
  rw [← leftWhole, ← rightWhole]
  constructor
  · intro independent
    exact independent.2
  · intro whole
    refine ⟨?_, whole⟩
    intro bar member other there closed otherClosed same_time
    obtain rfl := same_of_noCut positive known instrument timeframe first second whole.1 whole.2 member there closed
      otherClosed same_time
    exact ⟨rfl, rfl, rfl, rfl, rfl, rfl, rfl, rfl, rfl, rfl⟩

end Independent

open Reference

open scoped Reference

namespace Reference

def twoMinutes : Timeframe where
  canonical := "2m"
  durationMs := some 120000
  fixedPoint := eq_ok_of_toOption (by decide +kernel)
  duration := eq_ok_of_toOption (by decide +kernel)

theorem twoCandles_sorted : [candle 0, candle 60000].Pairwise (·.time < ·.time) := by decide

theorem twoCandles_formed : ∀ bar ∈ [candle 0, candle 60000], bar.WellFormed :=
  List.forall_mem_cons.mpr ⟨candle_formed 0, List.forall_mem_singleton.mpr (candle_formed 60000)⟩

theorem twoCandles_digested :
    ∀ bar ∈ [candle 0, candle 60000], ∃ digest, updateChecksum .v4 bar = .ok digest :=
  List.forall_mem_cons.mpr ⟨eq_ok_of_toBool (by decide +kernel),
    List.forall_mem_singleton.mpr (eq_ok_of_toBool (by decide +kernel))⟩

/-- Two minutes of one bucket. -/
def twoCandles : ClosedSeries Whole where
  format := .csv
  bars := [candle 0, candle 60000]
  sorted := twoCandles_sorted
  formed := twoCandles_formed
  digested := twoCandles_digested

/-- Only the series of the one minute candles is stored. -/
def minutesOnly : World Whole :=
  ⟨fun directory => if directory.getLast? = some "timeframe=1m" then some twoCandles else none, [], 0⟩

theorem bucket_positive : (0 : Int) < 120000 := by decide

def wholeQuery : BarQuery := ⟨btcusdt, twoMinutes, 0, 120000, .fail, bucket_positive⟩

/-- A query that ends in the middle of the bucket. -/
def halfQuery : BarQuery := ⟨btcusdt, twoMinutes, 0, 60000, .fail, minute_positive⟩

/-- The bars of a merge into another series than the base, which still holds both minutes. -/
def derivedMerge (base : BarQuery) : StoreCall Whole × World Whole → Option (List (MarketBar Whole))
  | (.mergeClosed key bars, place) =>
      if key ≠ base.key ∧
          (place.seriesOf base.key).toOption.join.map (fun series => (series.format, series.bars)) =
            some (.csv, [candle 0, candle 60000]) ∧
          (handle offline (.mergeClosed key bars) place).1.toBool = true then
        some bars
      else none
  | _ => none

theorem derivedMerge_some {base : BarQuery} {made : StoreCall Whole × World Whole} {bars : List (MarketBar Whole)}
    (merge : derivedMerge base made = some bars) : ∃ key place, made = (.mergeClosed key bars, place) ∧
      key ≠ base.key ∧ place.seriesOf base.key = .ok (some twoCandles) ∧
        (handle offline (.mergeClosed key bars) place).1 = .ok () := by
  unfold derivedMerge at merge
  split at merge
  · rename_i key given place
    split at merge
    · rename_i facts
      cases merge
      obtain ⟨derived, located, answered⟩ := facts
      obtain ⟨⟨⟩, persisted⟩ := eq_ok_of_toBool answered
      refine ⟨key, place, rfl, derived, ?_, persisted⟩
      cases found : place.seriesOf base.key with
      | error error =>
          rw [found] at located
          cases located
      | ok stored =>
          cases stored with
          | none =>
              rw [found] at located
              cases located
          | some series =>
              rw [found] at located
              have parts : (series.format, series.bars) = (.csv, [candle 0, candle 60000]) := Option.some.inj located
              have same : series = twoCandles := ClosedSeries.ext (Prod.ext_iff.mp parts).1 (Prod.ext_iff.mp parts).2
              rw [same]
    · cases merge
  · cases merge

/-- The bars that a call of `fetch_bars` persists. -/
def persistedBars (query base : BarQuery) : List (List (MarketBar Whole)) :=
  ((DerivingCall.fetchBars.program Whole offline.config query).trace (handle offline) minutesOnly).filterMap
    (derivedMerge base)

theorem persists_of_mem {query base : BarQuery} (based : baseQuery offline.config query = .ok base)
    {bars : List (MarketBar Whole)} (member : bars ∈ persistedBars query base) :
    Persists Whole query base (some twoCandles) bars := by
  obtain ⟨made, inside, merge⟩ := List.mem_filterMap.mp member
  obtain ⟨key, place, rfl, derived, located, persisted⟩ := derivedMerge_some merge
  have quiet : LeavesBase (fun _ _ : World Whole => False) base := fun _ _ step => step.elim
  exact .of_run based derived quiet located (Calls.makes_of_trace inside) persisted

/-- What a query persists, when it is one bar. -/
theorem persists_one {query base : BarQuery} (based : baseQuery offline.config query = .ok base) {volume : Int}
    (single : (persistedBars query base).map (List.map fun bar => (bar.time, bar.isClosed, bar.volume.value)) =
      [[(0, true, volume)]]) : ∃ bar, Persists Whole query base (some twoCandles) [bar] ∧ bar.time = 0 ∧
        bar.isClosed = true ∧ bar.volume.value = volume := by
  obtain ⟨bars, persisted, one⟩ := List.map_eq_singleton_iff.mp single
  obtain ⟨bar, rfl, values⟩ := List.map_eq_singleton_iff.mp one
  have persists := persists_of_mem based (persisted ▸ List.mem_singleton_self _)
  simp only [Prod.mk.injEq] at values
  exact ⟨bar, persists, values⟩

end Reference

/-- A query of half a bucket persists a closed bar with half of the volume, since it cuts the bucket. -/
theorem derived_bars_independent_half : ∃ whole half,
    Persists Whole wholeQuery (minuteQuery 0 120000 (by decide)) (some twoCandles) [whole] ∧
    Persists Whole halfQuery (minuteQuery 0 60000 (by decide)) (some twoCandles) [half] ∧
    whole.isClosed = true ∧ half.isClosed = true ∧ whole.time = half.time ∧ ¬ SamePrices whole half ∧
    ¬ (Uncut wholeQuery 120000 (storedBars (some twoCandles)) ∧
      Uncut halfQuery 120000 (storedBars (some twoCandles))) := by
  have both : (persistedBars wholeQuery (minuteQuery 0 120000 (by decide))).map
      (List.map fun bar => (bar.time, bar.isClosed, bar.volume.value)) = [[(0, true, 2)]] := by
    decide +kernel
  have part : (persistedBars halfQuery (minuteQuery 0 60000 (by decide))).map
      (List.map fun bar => (bar.time, bar.isClosed, bar.volume.value)) = [[(0, true, 1)]] := by
    decide +kernel
  obtain ⟨whole, wholePersists, wholeTime, wholeClosed, wholeVolume⟩ :=
    persists_one (eq_ok_of_toOption (by decide +kernel)) both
  obtain ⟨half, halfPersists, halfTime, halfClosed, halfVolume⟩ :=
    persists_one (eq_ok_of_toOption (by decide +kernel)) part
  have differ : ¬ SamePrices whole half := by
    intro same
    rw [same.volume, halfVolume] at wholeVolume
    cases wholeVolume
  have times := wholeTime.trans halfTime.symm
  refine ⟨whole, half, wholePersists, halfPersists, wholeClosed, halfClosed, times, differ, ?_⟩
  intro uncut
  have instrument : wholeQuery.instrument = halfQuery.instrument := rfl
  have timeframe : wholeQuery.timeframe = halfQuery.timeframe := rfl
  have independent := (derived_bars_independent_iff (by decide) rfl instrument timeframe
    wholePersists halfPersists).mpr uncut
  exact differ (independent.1 whole List.mem_cons_self half List.mem_cons_self wholeClosed halfClosed times)

end MarketdataProvider
