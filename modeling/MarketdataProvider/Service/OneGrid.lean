import MarketdataProvider.Exchanges.BinanceArchive
import MarketdataProvider.Service.Aggregation

namespace MarketdataProvider

open Foundation

/-- `_normalize_open_time` -/
def normalizeOpenTime (openTime duration : Int) : Int := openTime / duration * duration

/-- The times that lie together on the grid of a duration. -/
theorem le_of_normalizeOpenTime (time : Int) {duration : Int} (positive : 0 < duration) :
    normalizeOpenTime time duration ≤ time ∧ time < normalizeOpenTime time duration + duration := by
  have split := Int.mul_ediv_add_emod time duration
  have low := Int.emod_nonneg time (Int.ne_of_gt positive)
  have high := Int.emod_lt_of_pos time positive
  rw [normalizeOpenTime, Int.mul_comm]
  omega

theorem normalizeOpenTime_mul (count : Int) {duration : Int} (positive : 0 < duration) :
    normalizeOpenTime (count * duration) duration = count * duration := by
  rw [normalizeOpenTime, Int.mul_ediv_cancel _ (Int.ne_of_gt positive)]

section Grid

variable [PyText] {tf canonical : String} {duration openTime : Int}

/-- The calendar closes a bucket of the grid where the grid does. -/
def OneGridAt (tf : String) (duration time : Int) : Prop :=
  ∃ close, closeTimeMs (time / duration * duration) tf = .ok close ∧
    time / duration * duration ≤ time ∧ time ≤ close ∧ close + 1 = time / duration * duration + duration

/-- The opens that an exchange counts from the epoch, one after the other. -/
inductive ExchangeOpen (tf : String) : Int → Prop where
  | first {close : Int} (closes : closeTimeMs 0 tf = .ok close) : ExchangeOpen tf (close + 1)
  | next {openTime close : Int} (opens : ExchangeOpen tf openTime)
      (closes : closeTimeMs openTime tf = .ok close) : ExchangeOpen tf (close + 1)

/-- Where a bucket closes: a week of the calendar starts on Monday, one of the grid on Thursday. -/
theorem closeTimeMs_bucket (accepted : canonicalTimeframe tf = .ok canonical)
    (known : timeframeMs tf = .ok duration) (positive : 0 < duration) (count : Int)
    (inside : datetimeRange (count * duration) = true) :
    closeTimeMs (count * duration) tf = .ok (count * duration + duration - 1 -
      if canonical = "1W" then 3 * dayMs else 0) := by
  have nonzero := Int.ne_of_gt positive
  rw [closeTimeMs, accepted, ok_bind]
  dsimp only
  rw [if_neg (by simp [inside])]
  have form := known
  rw [timeframeMs, accepted, ok_bind] at form
  by_cases day : canonical = "1D"
  · subst day
    rw [if_pos (by decide)] at form
    obtain rfl := Except.ok.inj form
    rw [if_pos rfl, if_neg (by decide), dayMs, Int.mul_ediv_cancel _ nonzero]
    congr 1
    omega
  · by_cases week : canonical = "1W"
    · subst week
      rw [if_neg (by decide), if_pos (by decide)] at form
      obtain rfl := Except.ok.inj form
      rw [if_neg day, if_pos rfl, if_pos rfl, dayMs]
      congr 1
      omega
    · have month : canonical ≠ "1M" := by
        rintro rfl
        cases form
      rw [if_neg day, if_neg week, if_neg month, if_neg week, timeframeMs_canonical accepted, known]
      change Except.ok _ = Except.ok _
      congr 1
      omega

/-- The calendar closes nothing outside of its years. -/
theorem inside_of_closeTimeMs {time close : Int} (accepted : canonicalTimeframe tf = .ok canonical)
    (closes : closeTimeMs time tf = .ok close) : datetimeRange time = true := by
  by_contra outside
  rw [closeTimeMs, accepted, ok_bind] at closes
  dsimp only at closes
  rw [if_pos (by simpa using outside)] at closes
  cases closes

/-- A time and its bucket are on one grid unless the timeframe is a week. -/
theorem oneGridAt_iff (accepted : canonicalTimeframe tf = .ok canonical)
    (known : timeframeMs tf = .ok duration) (positive : 0 < duration) (time : Int) :
    OneGridAt tf duration time ↔
      canonical ≠ "1W" ∧ datetimeRange (time / duration * duration) = true := by
  obtain ⟨low, high⟩ := le_of_normalizeOpenTime time positive
  rw [normalizeOpenTime] at low high
  constructor
  · rintro ⟨close, closes, -, -, abuts⟩
    have inside : datetimeRange (time / duration * duration) = true :=
      inside_of_closeTimeMs accepted closes
    refine ⟨?_, inside⟩
    rintro rfl
    rw [closeTimeMs_bucket accepted known positive _ inside, if_pos rfl, dayMs] at closes
    obtain rfl := Except.ok.inj closes
    omega
  · rintro ⟨other, inside⟩
    refine ⟨_, closeTimeMs_bucket accepted known positive _ inside, low, ?_, ?_⟩
    · rw [if_neg other]
      omega
    · rw [if_neg other]
      omega

/-- Every open that the exchange counts is a point of the grid. -/
theorem ExchangeOpen.aligned (opens : ExchangeOpen tf openTime)
    (accepted : canonicalTimeframe tf = .ok canonical) (known : timeframeMs tf = .ok duration)
    (positive : 0 < duration) (other : canonical ≠ "1W") :
    ∃ count, openTime = count * duration := by
  have steps (count close : Int) (closes : closeTimeMs (count * duration) tf = .ok close) :
      close + 1 = (count + 1) * duration := by
    have inside : datetimeRange (count * duration) = true := inside_of_closeTimeMs accepted closes
    rw [closeTimeMs_bucket accepted known positive _ inside, if_neg other] at closes
    obtain rfl := Except.ok.inj closes
    rw [Int.add_mul]
    omega
  induction opens with
  | first closes => exact ⟨_, steps 0 _ (by rw [Int.zero_mul]; exact closes)⟩
  | next _ closes ih =>
      obtain ⟨count, rfl⟩ := ih
      exact ⟨_, steps count _ closes⟩

/-- The first week that the exchange counts opens on a Monday, which is no point of the grid. -/
theorem exchangeOpen_week (accepted : canonicalTimeframe tf = .ok "1W") :
    ExchangeOpen tf (4 * dayMs) := by
  have closes : closeTimeMs 0 tf = .ok (4 * dayMs - 1) := by
    rw [closeTimeMs, accepted]
    rfl
  exact .first closes

/-- An archive keeps the opens of the exchange unless the timeframe is a week. -/
theorem normalizeOpenTime_exchangeOpen (accepted : canonicalTimeframe tf = .ok canonical)
    (known : timeframeMs tf = .ok duration) (positive : 0 < duration) :
    (∀ openTime, ExchangeOpen tf openTime → normalizeOpenTime openTime duration = openTime) ↔
      canonical ≠ "1W" := by
  constructor
  · rintro keeps rfl
    have moved := keeps _ (exchangeOpen_week accepted)
    rw [timeframeMs, accepted, ok_bind, if_neg (by decide), if_pos (by decide)] at known
    obtain rfl := Except.ok.inj known
    exact absurd moved (by decide)
  · intro other openTime opens
    obtain ⟨count, rfl⟩ := opens.aligned accepted known positive other
    exact normalizeOpenTime_mul count positive

end Grid

section Bars

variable [PyText] {F : Type} [PyFloat F] {tf canonical : String} {duration : Int}

/-- An aggregated bar ends where the next one begins, and the bars of its bucket lie inside. -/
def SpansBucket (bars : List (MarketBar F)) (duration : Int) (bar : MarketBar F) : Prop :=
  ∃ close, bar.timeClose = some close ∧ close + 1 = bar.time + duration ∧
    ∀ part ∈ bars, part.time / duration * duration = bar.time →
      bar.time ≤ part.time ∧ part.time ≤ close ∧
        ∀ base partClose, 0 < base → base ∣ duration → base ∣ part.time →
          part.timeClose = some partClose → partClose + 1 = part.time + base → partClose ≤ close

omit [PyText] in
/-- A bar that starts on a finer grid ends on it, inside of the bucket in which it starts. -/
theorem close_le_of_dvd {base time bucket : Int} (positive : 0 < base) (divides : base ∣ duration)
    (aligned : base ∣ time) (grid : duration ∣ bucket) (low : bucket ≤ time)
    (high : time < bucket + duration) : time + base ≤ bucket + duration := by
  obtain ⟨steps, rfl⟩ := aligned
  obtain ⟨ends, equal⟩ : base ∣ bucket + duration := Int.dvd_add (Int.dvd_trans divides grid) divides
  rw [equal] at high ⊢
  have fewer : steps < ends := Int.lt_of_mul_lt_mul_left high positive.le
  have scaled := Int.mul_le_mul_of_nonneg_left (show steps + 1 ≤ ends by omega) positive.le
  rw [Int.mul_add, Int.mul_one] at scaled
  exact scaled

omit [PyText] [PyFloat F] in
theorem addToBuckets_aligned {buckets : List (Bucket F)} {bar : MarketBar F}
    (aligned : ∀ bucket ∈ buckets, duration ∣ bucket.time) :
    ∀ bucket ∈ addToBuckets duration buckets bar, duration ∣ bucket.time := by
  have opened : duration ∣ bar.time / duration * duration := Dvd.intro_left _ rfl
  intro bucket member
  unfold addToBuckets at member
  dsimp only at member
  split at member
  · rw [List.mem_singleton.mp member]
    exact opened
  · rename_i current found
    split at member
    · rcases List.mem_append.mp member with old | joined
      · exact aligned bucket (List.dropLast_subset _ old)
      · rw [List.mem_singleton.mp joined]
        exact aligned current (List.mem_of_getLast? found)
    · rcases List.mem_append.mp member with old | fresh
      · exact aligned bucket old
      · rw [List.mem_singleton.mp fresh]
        exact opened

omit [PyText] [PyFloat F] in
theorem buckets_aligned (bars : List (MarketBar F)) :
    ∀ bucket ∈ bars.foldl (addToBuckets duration) [], duration ∣ bucket.time := by
  induction bars using List.reverseRecOn with
  | nil =>
      intro bucket member
      cases member
  | append_singleton rest bar ih =>
      rw [List.foldl_append]
      exact addToBuckets_aligned ih

omit [PyFloat F] in
/-- A query has the duration of its timeframe. -/
theorem BarQuery.durationMs_eq {query : BarQuery} (named : query.timeframe.canonical = canonical)
    (accepted : canonicalTimeframe tf = .ok canonical) (known : timeframeMs tf = .ok duration) :
    query.timeframe.durationMs = some duration := by
  have own := query.timeframe.duration
  have month : canonical ≠ "1M" := by
    rintro rfl
    rw [timeframeMs, accepted] at known
    cases known
  rw [named, timeframeDuration, if_neg month, timeframeMs_canonical accepted, known] at own
  exact (Except.ok.inj own).symm

/-- The bar of an archive row opens at the grid point of the row. -/
theorem archiveRowBar_time {symbol market timeframe : String} {start stop epoch : Int}
    {row : List String} {bar : MarketBar F} (read : pyInt (row.headD "").toList = some epoch)
    (made : archiveRowBar symbol market timeframe duration start stop row = .ok (some bar)) :
    bar.time = normalizeOpenTime (epochToMs epoch) duration := by
  rw [archiveRowBar, read] at made
  dsimp only at made
  split_ifs at made
  · simp only [bind_eq_ok, pure_eq_ok] at made
    obtain ⟨_, -, _, -, _, -, _, -, _, -, same⟩ := made
    cases same
    rfl
  · cases made

variable (D : Type) [PyDecimal D] [AggregateHash] [PySum F]

theorem aggregateBucket_times {bucketTime : Int} {first bar : MarketBar F} {rest : List (MarketBar F)}
    {query : BarQuery} (made : aggregateBucket D bucketTime first rest query = .ok bar) :
    bar.time = bucketTime ∧ ∃ close, bar.timeClose = some close ∧
      closeTimeMs bucketTime query.timeframe.canonical = .ok close := by
  simp only [aggregateBucket, bind_eq_ok, pure_eq_ok] at made
  obtain ⟨_, -, _, -, _, -, _, -, _, -, _, -, close, closes, rfl⟩ := made
  exact ⟨rfl, close, rfl, closes⟩

/-- Every aggregated bar spans its bucket unless the timeframe is a week. -/
theorem aggregateMarketBars_spans (accepted : canonicalTimeframe tf = .ok canonical)
    (known : timeframeMs tf = .ok duration) (positive : 0 < duration) {bars out : List (MarketBar F)}
    {query : BarQuery} (named : query.timeframe.canonical = canonical)
    (made : aggregateMarketBars D bars query = .ok out) :
    ∀ bar ∈ out, SpansBucket bars duration bar ↔ canonical ≠ "1W" := by
  intro bar member
  rw [aggregateMarketBars, BarQuery.durationMs_eq named accepted known] at made
  dsimp only at made
  split at made
  · cases made
  · obtain ⟨bucket, inBuckets, aggregated⟩ := of_mem_mapM made bar member
    obtain ⟨opens, close, closing, closes⟩ := aggregateBucket_times D aggregated
    obtain ⟨count, aligned⟩ := buckets_aligned _ bucket inBuckets
    rw [Int.mul_comm] at aligned
    have fixed : canonicalTimeframe canonical = .ok canonical := canonicalTimeframe_idempotent accepted
    have inside : datetimeRange (count * duration) = true := by
      rw [named, aligned] at closes
      exact inside_of_closeTimeMs fixed closes
    rw [named, aligned, closeTimeMs_bucket fixed ((timeframeMs_canonical accepted).trans known) positive
      count inside] at closes
    obtain rfl := Except.ok.inj closes
    rw [aligned] at opens
    constructor
    · rintro ⟨other, same, abuts, -⟩ rfl
      obtain rfl := Option.some.inj (closing.symm.trans same)
      rw [if_pos rfl, dayMs] at abuts
      omega
    · intro other
      rw [if_neg other] at closing
      refine ⟨_, closing, by omega, ?_⟩
      intro part _ here
      obtain ⟨low, high⟩ := le_of_normalizeOpenTime part.time positive
      rw [normalizeOpenTime, here] at low high
      refine ⟨low, by omega, ?_⟩
      intro base partClose baseful divides starts _ ends
      have within := close_le_of_dvd baseful divides starts ⟨count, by rw [opens, Int.mul_comm]⟩ low high
      omega

/-- The grid of a duration and the calendar agree exactly when the timeframe is no week: for the close
of a bucket, for the span of an aggregated bar and for the open of an archive row. -/
theorem one_grid_iff_not_week (accepted : canonicalTimeframe tf = .ok canonical)
    (known : timeframeMs tf = .ok duration) (positive : 0 < duration) :
    (∀ time, 0 ≤ time → (OneGridAt tf duration time ↔
      canonical ≠ "1W" ∧ datetimeRange (time / duration * duration) = true)) ∧
    (∀ (bars out : List (MarketBar F)) (query : BarQuery), query.timeframe.canonical = canonical →
      aggregateMarketBars D bars query = .ok out →
        ∀ bar ∈ out, SpansBucket bars duration bar ↔ canonical ≠ "1W") ∧
    ((∀ openTime, ExchangeOpen tf openTime → normalizeOpenTime openTime duration = openTime) ↔
      canonical ≠ "1W") ∧
    (canonical ≠ "1W" → ∀ (symbol market timeframe : String) (start stop epoch : Int)
      (row : List String) (bar : MarketBar F), pyInt (row.headD "").toList = some epoch →
        ExchangeOpen tf (epochToMs epoch) →
          archiveRowBar symbol market timeframe duration start stop row = .ok (some bar) →
            bar.time = epochToMs epoch) := by
  have opens := normalizeOpenTime_exchangeOpen accepted known positive
  refine ⟨fun time _ => oneGridAt_iff accepted known positive time, ?_, opens, ?_⟩
  · intro bars out query named made
    exact aggregateMarketBars_spans D accepted known positive named made
  · intro other symbol market timeframe start stop epoch row bar read opened made
    rw [archiveRowBar_time read made]
    exact opens.mpr other _ opened

end Bars

end MarketdataProvider

namespace MarketdataProvider

open Foundation Reference
open scoped Reference

/-- The minutes of the grid, closed by the calendar. -/
theorem one_grid_minute : OneGridAt "1m" 60000 61234 := by
  have accepted : canonicalTimeframe "1m" = .ok "1m" := eq_ok_of_toOption (by decide +kernel)
  have known : timeframeMs "1m" = .ok 60000 := eq_ok_of_toOption (by decide +kernel)
  obtain ⟨grid, -⟩ := one_grid_iff_not_week (F := Whole) Whole accepted known (by decide)
  exact (grid 61234 (by decide)).mpr ⟨by decide, by decide⟩

/-- The week of the grid in which the epoch lies closes on a Wednesday, the calendar's on a Sunday. -/
theorem week_off_grid : ¬ OneGridAt "1W" (7 * dayMs) 0 := by
  rintro ⟨close, closes, -, -, abuts⟩
  have sunday : closeTimeMs 0 "1W" = .ok (4 * dayMs - 1) := eq_ok_of_toOption (by decide +kernel)
  rw [show (0 : Int) / (7 * dayMs) * (7 * dayMs) = 0 by decide] at closes abuts
  obtain rfl := Except.ok.inj (sunday.symm.trans closes)
  exact absurd abuts (by decide)

end MarketdataProvider
