import MarketdataProvider.Contracts.Footprint
import MarketdataProvider.Foundation.Accumulate
import MarketdataProvider.Exchanges.BinanceTrades

namespace MarketdataProvider

open Foundation

/-- The float arithmetic of the price levels. -/
class PriceLevels (F : Type) where
  /-- `left + right` -/
  add : F → F → F
  /-- `math.floor(price / bucket_size) * bucket_size`, which is never the negative zero -/
  priceLow : F → F → Except PyError F

/-- Volumes and counts of the buyers and the sellers at one price. -/
structure LevelTotals (F : Type) where
  buyVolume : F
  sellVolume : F
  buyCount : Int
  sellCount : Int

/-- The levels of one bar by their price, and the number of its trades. -/
structure BucketTotals (F : Type) where
  levels : List (F × LevelTotals F)
  tradesCount : Int

section Aggregate

variable [PyText] {F : Type} [PyFloat F] [PriceLevels F]

omit [PyText] in
def LevelTotals.add (totals : LevelTotals F) (trade : AggTrade F) : LevelTotals F :=
  if trade.buyerMaker then
    { totals with
      sellVolume := PriceLevels.add totals.sellVolume trade.quantity
      sellCount := totals.sellCount + 1 }
  else
    { totals with
      buyVolume := PriceLevels.add totals.buyVolume trade.quantity
      buyCount := totals.buyCount + 1 }

omit [PyText] in
def BucketTotals.add (bucketSize : F) (totals : BucketTotals F) (trade : AggTrade F) :
    Except PyError (BucketTotals F) := do
  let priceLow ← PriceLevels.priceLow trade.price bucketSize
  let level := Accumulate.totalOf ⟨PyFloat.zero, PyFloat.zero, 0, 0⟩ totals.levels priceLow
  return ⟨Keyed.upsert Prod.fst totals.levels (priceLow, level.add trade), totals.tradesCount + 1⟩

omit [PriceLevels F] in
/-- The bar of a trade, unless the trade or the opening of its bar is outside of the query. -/
def FootprintQuery.barTime (query : FootprintQuery F) (trade : AggTrade F) : Except PyError (Option Int) :=
  if query.startMs ≤ trade.time ∧ trade.time < query.endMs then
    if query.duration = 0 then .error .zeroDivisionError
    else
      let barTime := trade.time / query.duration * query.duration
      .ok (if query.startMs ≤ barTime ∧ barTime < query.endMs then some barTime else none)
  else .ok none

def addTrade (query : FootprintQuery F) :
    List (Int × BucketTotals F) → AggTrade F → Except PyError (List (Int × BucketTotals F)) :=
  Accumulate.step query.barTime (BucketTotals.add query.bucketSize) ⟨[], 0⟩

def bucketBar (query : FootprintQuery F) (bucket : Int × BucketTotals F) : FootprintBar F where
  time := bucket.1
  timeClose := bucket.1 + query.duration
  levels := (bucket.2.levels.insertionSort fun left right => PyFloat.lt right.1 left.1 = false).map
    fun level => {
      priceLow := level.1
      priceHigh := PriceLevels.add level.1 query.bucketSize
      buyVolume := level.2.buyVolume
      sellVolume := level.2.sellVolume
      buyCount := level.2.buyCount
      sellCount := level.2.sellCount }
  tradesCount := bucket.2.tradesCount

def aggregateTradesToFootprint (trades : List (AggTrade F)) (query : FootprintQuery F) :
    Except PyError (List (FootprintBar F)) := do
  let buckets ← trades.foldlM (addTrade query) []
  return (buckets.insertionSort (·.1 ≤ ·.1)).map (bucketBar query)

end Aggregate

section Locality

variable [PyText] {F : Type} [PyFloat F] {query : FootprintQuery F} {trade : AggTrade F}

omit [PyText] in
theorem ediv_mul_eq_iff {time step point : Int} (positive : 0 < step) :
    time / step * step = point ↔ point % step = 0 ∧ point ≤ time ∧ time < point + step := by
  have split := Int.ediv_mul_add_emod time step
  have low := Int.emod_nonneg time positive.ne'
  have high := Int.emod_lt_of_pos time positive
  constructor
  · rintro rfl
    exact ⟨Int.mul_emod_left _ _, by omega, by omega⟩
  · rintro ⟨aligned, before, after⟩
    obtain ⟨count, rfl⟩ := Int.dvd_of_emod_eq_zero aligned
    have quotient : time / step = count := by
      rw [Int.ediv_eq_iff_of_pos positive, Int.mul_comm count]
      omega
    rw [quotient, Int.mul_comm]

/-- The trades that the query has in the interval of a bar. -/
def FootprintQuery.ofBar (query : FootprintQuery F) (time : Int) (trade : AggTrade F) : Bool :=
  (query.startMs ≤ trade.time ∧ trade.time < query.endMs) ∧ time ≤ trade.time ∧
    trade.time < time + query.duration

theorem ofKey_barTime {time : Int} (positive : 0 < query.duration) (aligned : time % query.duration = 0)
    (fromStart : query.startMs ≤ time) (beforeEnd : time < query.endMs) :
    Accumulate.ofKey query.barTime time = query.ofBar time := by
  funext trade
  rw [Accumulate.ofKey, FootprintQuery.barTime, FootprintQuery.ofBar]
  have same := @ediv_mul_eq_iff trade.time query.duration time positive
  by_cases inside : query.startMs ≤ trade.time ∧ trade.time < query.endMs
  · rw [if_pos inside, if_neg positive.ne']
    by_cases own : trade.time / query.duration * query.duration = time
    · have interval := (same.mp own).2
      simp [own, fromStart, beforeEnd, inside, interval]
    · have away : ¬ (time ≤ trade.time ∧ trade.time < time + query.duration) :=
        fun interval => own (same.mpr ⟨aligned, interval⟩)
      dsimp only
      rw [decide_eq_false (fun both => away both.2)]
      split
      · rename_i other found
        rw [Except.ok.injEq] at found
        split at found
        · cases found
          simpa using own
        · cases found
      · rfl
  · rw [if_neg inside, decide_eq_false (fun both => inside both.1)]

/-- A trade that has a bar opens it on the grid and inside of the query. -/
theorem barTime_some {time : Int} (taken : Accumulate.ofKey query.barTime time trade = true) :
    0 < query.duration ∧ time % query.duration = 0 ∧ query.startMs ≤ time ∧ time < query.endMs := by
  rw [Accumulate.ofKey] at taken
  split at taken
  · rename_i other found
    rw [decide_eq_true_eq] at taken
    subst taken
    rw [FootprintQuery.barTime] at found
    split_ifs at found with inside zero
    · rw [Except.ok.injEq] at found
      split at found
      · rename_i opened
        cases found
        have positive := query.duration_nonneg.lt_of_ne (Ne.symm zero)
        exact ⟨positive, Int.mul_emod_left _ _, opened⟩
      · cases found
    · cases found
  · cases taken

end Locality

section Bars

variable [PyText] {F : Type} [PyFloat F] [PriceLevels F] {query whole : FootprintQuery F}
  {trades history : List (AggTrade F)} {bars : List (FootprintBar F)} {bar : FootprintBar F}

/-- The totals of some trades of one bar. -/
def barTotals (query : FootprintQuery F) (trades : List (AggTrade F)) : Except PyError (BucketTotals F) :=
  trades.foldlM (BucketTotals.add query.bucketSize) ⟨[], 0⟩

/-- A bar has the totals of its own trades, whatever other trades there are. -/
theorem aggregate_bar (aggregated : aggregateTradesToFootprint trades query = .ok bars)
    (member : bar ∈ bars) :
    (0 < query.duration ∧ bar.time % query.duration = 0 ∧ query.startMs ≤ bar.time ∧
      bar.time < query.endMs) ∧ trades.filter (query.ofBar bar.time) ≠ [] ∧
      ∃ totals, barTotals query (trades.filter (query.ofBar bar.time)) = .ok totals ∧
        bar = bucketBar query (bar.time, totals) := by
  rw [aggregateTradesToFootprint, bind_eq_ok] at aggregated
  obtain ⟨buckets, folded, made⟩ := aggregated
  rw [pure_eq_ok] at made
  subst made
  obtain ⟨⟨time, totals⟩, sorted, rfl⟩ := List.mem_map.mp member
  have inside := (List.mem_insertionSort _).mp sorted
  have distinct : (buckets.map Prod.fst).Nodup := Accumulate.nodup_run Keyed.distinct_nil folded
  have found : Keyed.find Prod.fst buckets time = some (time, totals) :=
    (Keyed.find_eq_some_iff distinct).mpr ⟨inside, rfl⟩
  obtain ⟨added, present⟩ := Accumulate.run_total time folded
  have nonempty : trades.filter (Accumulate.ofKey query.barTime time) ≠ [] := by
    have occurs := present.mp (by simp [found])
    simpa [Keyed.find] using occurs
  obtain ⟨trade, taken⟩ := List.exists_mem_of_ne_nil _ nonempty
  have grid := barTime_some (List.mem_filter.mp taken).2
  rw [ofKey_barTime grid.1 grid.2.1 grid.2.2.1 grid.2.2.2] at added nonempty
  have total : Accumulate.totalOf ⟨[], 0⟩ buckets time = totals := by rw [Accumulate.totalOf, found]; rfl
  rw [total] at added
  exact ⟨grid, nonempty, totals, added, rfl⟩

/-- The aggregate over the interval of one bar is that bar alone. -/
theorem aggregate_interval {time : Int} {totals : BucketTotals F} (positive : 0 < whole.duration)
    (aligned : time % whole.duration = 0) (starts : whole.startMs = time)
    (ends : whole.endMs = time + whole.duration) (nonempty : trades.filter (whole.ofBar time) ≠ [])
    (total : barTotals whole (trades.filter (whole.ofBar time)) = .ok totals) :
    aggregateTradesToFootprint trades whole = .ok [bucketBar whole (time, totals)] := by
  have keyed := @ofKey_barTime _ _ _ whole time positive aligned starts.le (by omega)
  have keys : ∀ trade ∈ trades, whole.barTime trade = .ok none ∨ whole.barTime trade = .ok (some time) := by
    intro trade _
    rw [FootprintQuery.barTime]
    split
    · rename_i inside
      have opened := (@ediv_mul_eq_iff trade.time whole.duration time positive).mpr
        ⟨aligned, by omega, by omega⟩
      right
      rw [if_neg positive.ne']
      dsimp only
      rw [opened, if_pos ⟨starts.le, by omega⟩]
    · exact .inl rfl
  have folded := Accumulate.run_single keys (keyed ▸ total)
  rw [keyed, if_neg nonempty] at folded
  rw [aggregateTradesToFootprint, addTrade, folded, ok_bind]
  rfl

/-- The bar is the aggregate of all trades of the history in its interval. -/
def FullBar (history : List (AggTrade F)) (query : FootprintQuery F) (bar : FootprintBar F) : Prop :=
  ∃ whole : FootprintQuery F, whole.SharesFile query ∧ whole.startMs = bar.time ∧
    whole.endMs = bar.time + whole.duration ∧ aggregateTradesToFootprint history whole = .ok [bar]

/-- A bar is full when the trades that it was made of are all those of its interval. -/
theorem full_of_aggregate (aggregated : aggregateTradesToFootprint trades query = .ok bars)
    (member : bar ∈ bars)
    (all : trades.filter (query.ofBar bar.time) =
      tradesWithin bar.time (bar.time + query.duration) history) : FullBar history query bar := by
  obtain ⟨⟨positive, aligned, -, -⟩, nonempty, totals, total, made⟩ := aggregate_bar aggregated member
  let whole : FootprintQuery F :=
    { query with startMs := bar.time, endMs := bar.time + query.duration, ordered := by omega }
  have same : history.filter (whole.ofBar bar.time) =
      tradesWithin bar.time (bar.time + query.duration) history := by
    apply List.filter_congr
    intro trade _
    simp [whole, FootprintQuery.ofBar]
  refine ⟨whole, ⟨rfl, rfl, rfl⟩, rfl, rfl, ?_⟩
  rw [made]
  exact aggregate_interval positive aligned rfl rfl (same ▸ all ▸ nonempty) (same ▸ all ▸ total)

theorem barTotals_count {totals : BucketTotals F} (total : barTotals query trades = .ok totals) :
    totals.tradesCount = trades.length := by
  induction trades using List.reverseRecOn generalizing totals with
  | nil =>
      cases total
      rfl
  | append_singleton trades trade ih =>
      rw [barTotals, foldlM_append_eq_ok] at total
      obtain ⟨middle, before, last⟩ := total
      rw [List.foldlM_cons, bind_eq_ok] at last
      obtain ⟨sum, added, done⟩ := last
      cases done
      simp only [BucketTotals.add, bind_eq_ok, pure_eq_ok] at added
      obtain ⟨priceLow, -, rfl⟩ := added
      simp [ih before]

/-- What a full bar is made of. -/
theorem FullBar.totals (full : FullBar history query bar) :
    bar.time % query.duration = 0 ∧ tradesWithin bar.time (bar.time + query.duration) history ≠ [] ∧
      ∃ totals, barTotals query (tradesWithin bar.time (bar.time + query.duration) history) = .ok totals ∧
        bar = bucketBar query (bar.time, totals) := by
  obtain ⟨whole, shares, starts, ends, aggregated⟩ := full
  obtain ⟨⟨-, aligned, -, -⟩, nonempty, totals, total, made⟩ :=
    aggregate_bar aggregated (List.mem_singleton_self bar)
  have duration := shares.duration
  have same : history.filter (whole.ofBar bar.time) =
      tradesWithin bar.time (bar.time + query.duration) history := by
    apply List.filter_congr
    intro trade _
    simp [FootprintQuery.ofBar, starts, ends, duration]
  rw [same] at nonempty total
  rw [barTotals, shares.2.2] at total
  refine ⟨duration ▸ aligned, nonempty, totals, total, ?_⟩
  rw [made, bucketBar, bucketBar, duration, shares.2.2]

/-- A full bar counts all trades of its interval. -/
theorem FullBar.tradesCount (full : FullBar history query bar) :
    bar.tradesCount = (tradesWithin bar.time (bar.time + query.duration) history).length := by
  obtain ⟨-, -, totals, total, made⟩ := full.totals
  rw [made]
  exact barTotals_count total

end Bars

end MarketdataProvider
