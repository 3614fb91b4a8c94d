import MarketdataProvider.Footprint.Service
import MarketdataProvider.Foundation.Tally
import Mathlib.Data.Rat.Floor

namespace MarketdataProvider

open Foundation

/-- Exact rational arithmetic on prices and quantities. -/
structure ExactLevels (F : Type) [PyFloat F] [PriceLevels F] where
  value : F → ℚ
  injective : Function.Injective value
  zero : value PyFloat.zero = 0
  lt : ∀ left right : F, PyFloat.lt left right = decide (value left < value right)
  eq : ∀ left right : F, PyFloat.eq left right = decide (value left = value right)
  add : ∀ left right : F, value (PriceLevels.add left right) = value left + value right
  priceLow : ∀ price size : F, 0 < value size →
    ∃ low, PriceLevels.priceLow price size = .ok low ∧ value low = ⌊value price / value size⌋ * value size

/-- The trades at a multiple of the size are those from it up to the next one. -/
theorem floor_mul_eq_iff {price size : ℚ} (positive : 0 < size) (count : ℤ) :
    (⌊price / size⌋ : ℚ) * size = count * size ↔ count * size ≤ price ∧ price < count * size + size := by
  have next : (count : ℚ) * size + size = (count + 1) * size := by ring
  rw [mul_left_inj' positive.ne', Int.cast_inj, Int.floor_eq_iff, le_div_iff₀ positive,
    div_lt_iff₀ positive, next]

section Sides

variable {F : Type}

/-- The trades of the two taker sides. -/
def buys (trades : List (AggTrade F)) : List (AggTrade F) := trades.filter fun trade => !trade.buyerMaker

def sells (trades : List (AggTrade F)) : List (AggTrade F) := trades.filter AggTrade.buyerMaker

variable [PyFloat F] [PriceLevels F] (rational : ExactLevels F)

def ExactLevels.volume (trades : List (AggTrade F)) : ℚ :=
  (trades.map fun trade => rational.value trade.quantity).sum

/-- The totals of a level are those of some trades. -/
structure ExactLevels.Tallied (totals : LevelTotals F) (trades : List (AggTrade F)) : Prop where
  buyVolume : rational.value totals.buyVolume = rational.volume (buys trades)
  sellVolume : rational.value totals.sellVolume = rational.volume (sells trades)
  buyCount : totals.buyCount = (buys trades).length
  sellCount : totals.sellCount = (sells trades).length

/-- A level without trades. -/
def noTotals : LevelTotals F := ⟨PyFloat.zero, PyFloat.zero, 0, 0⟩

variable {rational} {trades others : List (AggTrade F)} {totals : LevelTotals F}

theorem ExactLevels.tallied_nil : rational.Tallied noTotals [] :=
  ⟨rational.zero, rational.zero, rfl, rfl⟩

theorem ExactLevels.Tallied.add (tallied : rational.Tallied totals trades) (trade : AggTrade F) :
    rational.Tallied (totals.add trade) (trades ++ [trade]) := by
  obtain ⟨buyVolume, sellVolume, buyCount, sellCount⟩ := tallied
  simp only [volume, buys, sells] at *
  unfold LevelTotals.add
  by_cases maker : trade.buyerMaker = true
  · rw [if_pos maker]
    constructor
    · simp [volume, buys, maker, buyVolume]
    · simp [volume, sells, maker, rational.add, sellVolume]
    · simp [buys, maker, buyCount]
    · simp [sells, maker, sellCount]
  · rw [if_neg maker]
    constructor
    · simp [volume, buys, maker, rational.add, buyVolume]
    · simp [volume, sells, maker, sellVolume]
    · simp [buys, maker, buyCount]
    · simp [sells, maker, sellCount]

/-- The order of the trades does not count. -/
theorem ExactLevels.Tallied.perm (tallied : rational.Tallied totals trades) (same : trades.Perm others) :
    rational.Tallied totals others := by
  obtain ⟨buyVolume, sellVolume, buyCount, sellCount⟩ := tallied
  have bought : (buys trades).Perm (buys others) := same.filter _
  have sold : (sells trades).Perm (sells others) := same.filter _
  constructor
  · rw [buyVolume]
    exact (bought.map _).sum_eq
  · rw [sellVolume]
    exact (sold.map _).sum_eq
  · rw [buyCount, bought.length_eq]
  · rw [sellCount, sold.length_eq]

/-- One list of trades has one tally. -/
theorem ExactLevels.Tallied.unique {first second : LevelTotals F} (left : rational.Tallied first trades)
    (right : rational.Tallied second trades) : first = second := by
  obtain ⟨firstBuy, firstSell, firstBuys, firstSells⟩ := first
  obtain ⟨secondBuy, secondSell, secondBuys, secondSells⟩ := second
  obtain rfl : firstBuy = secondBuy := rational.injective (left.buyVolume.trans right.buyVolume.symm)
  obtain rfl : firstSell = secondSell := rational.injective (left.sellVolume.trans right.sellVolume.symm)
  obtain rfl : firstBuys = secondBuys := left.buyCount.trans right.buyCount.symm
  obtain rfl : firstSells = secondSells := left.sellCount.trans right.sellCount.symm
  rfl

end Sides

section Totals

variable [PyText] {F : Type} [PyFloat F] [PriceLevels F] {rational : ExactLevels F} {query : FootprintQuery F}
  {trades others : List (AggTrade F)} {totals : BucketTotals F}

theorem ExactLevels.bucketSize_pos (rational : ExactLevels F) (query : FootprintQuery F) :
    0 < rational.value query.bucketSize := by
  obtain ⟨notBelow, notZero⟩ := query.positive
  rw [rational.lt, rational.zero, decide_eq_false_iff_not, not_lt] at notBelow
  rw [rational.eq, rational.zero, decide_eq_false_iff_not] at notZero
  exact notBelow.lt_of_ne (Ne.symm notZero)

/-- The price of the level of a trade. -/
def levelOf (query : FootprintQuery F) (trade : AggTrade F) : Except PyError (Option F) :=
  some <$> PriceLevels.priceLow trade.price query.bucketSize

omit [PyText] [PyFloat F] in
def addLevel (totals : LevelTotals F) (trade : AggTrade F) : Except PyError (LevelTotals F) :=
  .ok (totals.add trade)

/-- The levels of a bar are tallied by their prices. -/
theorem foldlM_levels {start : BucketTotals F}
    (folded : trades.foldlM (BucketTotals.add query.bucketSize) start = .ok totals) :
    trades.foldlM (Accumulate.step (levelOf query) addLevel noTotals) start.levels = .ok totals.levels := by
  induction trades generalizing start with
  | nil =>
      cases folded
      rfl
  | cons trade trades ih =>
      rw [List.foldlM_cons] at folded
      obtain ⟨middle, added, rest⟩ := bind_eq_ok.mp folded
      obtain ⟨low, priced, made⟩ := bind_eq_ok.mp added
      obtain rfl := pure_eq_ok.mp made
      rw [List.foldlM_cons, Accumulate.step, levelOf, priced]
      exact ih rest

theorem barTotals_levels (total : barTotals query trades = .ok totals) :
    trades.foldlM (Accumulate.step (levelOf query) addLevel noTotals) [] = .ok totals.levels :=
  foldlM_levels total

/-- The trades at one price. -/
def atPrice (query : FootprintQuery F) (low : F) (trade : AggTrade F) : Bool :=
  Accumulate.ofKey (levelOf query) low trade

theorem atPrice_iff {low : F} {trade : AggTrade F} :
    atPrice query low trade = true ↔ PriceLevels.priceLow trade.price query.bucketSize = .ok low := by
  unfold atPrice Accumulate.ofKey levelOf
  cases PriceLevels.priceLow trade.price query.bucketSize with
  | error error => exact ⟨Bool.noConfusion, fun impossible => by cases impossible⟩
  | ok other =>
      change decide (other = low) = true ↔ _
      rw [decide_eq_true_eq, Except.ok.injEq]

omit [PyText] in
theorem tallied_levels {entries : List (AggTrade F)} {level : LevelTotals F}
    (folded : entries.foldlM addLevel noTotals = .ok level) : rational.Tallied level entries := by
  induction entries using List.reverseRecOn generalizing level with
  | nil =>
      cases folded
      exact ExactLevels.tallied_nil
  | append_singleton entries trade ih =>
      obtain ⟨middle, before, last⟩ := (foldlM_append_eq_ok).mp folded
      cases last
      exact (ih before).add trade

/-- The entries of a bar: one for each price that occurs, with the trades at it. -/
theorem barTotals_entries (rational : ExactLevels F) (total : barTotals query trades = .ok totals) :
    (totals.levels.map Prod.fst).Nodup ∧
    (∀ entry ∈ totals.levels, rational.Tallied entry.2 (trades.filter (atPrice query entry.1)) ∧
      ∃ trade ∈ trades, atPrice query entry.1 trade = true) ∧
    ∀ trade ∈ trades, ∃ entry ∈ totals.levels, atPrice query entry.1 trade = true := by
  have folded := barTotals_levels total
  have distinct : (totals.levels.map Prod.fst).Nodup := Accumulate.nodup_run Keyed.distinct_nil folded
  refine ⟨distinct, ?_, ?_⟩
  · intro entry member
    have found : Keyed.find Prod.fst totals.levels entry.1 = some entry :=
      (Keyed.find_eq_some_iff distinct).mpr ⟨member, rfl⟩
    obtain ⟨added, present⟩ := Accumulate.run_total entry.1 folded
    have own : Accumulate.totalOf noTotals totals.levels entry.1 = entry.2 := by
      rw [Accumulate.totalOf, found]
      rfl
    rw [own] at added
    refine ⟨tallied_levels added, ?_⟩
    have occurs : trades.filter (atPrice query entry.1) ≠ [] := by
      have nothing : Keyed.find Prod.fst ([] : List (F × LevelTotals F)) entry.1 = none := rfl
      have known := present.mp (by rw [found]; rfl)
      rw [nothing] at known
      exact known.resolve_left Bool.false_ne_true
    obtain ⟨trade, inside⟩ := List.exists_mem_of_ne_nil _ occurs
    exact ⟨trade, List.mem_filter.mp inside⟩
  · intro trade member
    obtain ⟨low, priced, -⟩ := rational.priceLow trade.price query.bucketSize (rational.bucketSize_pos query)
    have taken : atPrice query low trade = true := atPrice_iff.mpr priced
    obtain ⟨-, present⟩ := Accumulate.run_total low folded
    obtain ⟨entry, inside, same⟩ := Keyed.find_isSome_iff.mp
      (present.mpr (.inr (List.ne_nil_of_mem (List.mem_filter.mpr ⟨member, taken⟩))))
    exact ⟨entry, inside, same ▸ taken⟩

/-- Sums over the levels are sums over the trades. -/
theorem barTotals_sum {Measure : Type} [AddCommMonoid Measure] {measure : LevelTotals F → Measure}
    {weight : AggTrade F → Measure} (rational : ExactLevels F) (blank : measure noTotals = 0)
    (adds : ∀ total trade, measure (total.add trade) = measure total + weight trade)
    (total : barTotals query trades = .ok totals) :
    (totals.levels.map fun entry => measure entry.2).sum = (trades.map weight).sum := by
  have everything : trades.filter (Accumulate.keyed (levelOf query)) = trades := by
    rw [List.filter_eq_self]
    intro trade _
    obtain ⟨low, priced, -⟩ := rational.priceLow trade.price query.bucketSize (rational.bucketSize_pos query)
    rw [Accumulate.keyed, levelOf, priced]
    rfl
  have gains : ∀ total trade sum, addLevel total trade = .ok sum → measure sum = measure total + weight trade := by
    intro total trade sum added
    obtain rfl := Except.ok.inj added
    exact adds total trade
  have sums := Accumulate.sum_run blank gains Keyed.distinct_nil (barTotals_levels total)
  rw [everything] at sums
  simpa using sums

end Totals

section Bar

variable [PyText] {F : Type} [PyFloat F] [PriceLevels F] {rational : ExactLevels F} {query : FootprintQuery F}
  {trades others : List (AggTrade F)} {bar other : FootprintBar F}

omit [PyText] [PriceLevels F] in
def FootprintLevel.totals (level : FootprintLevel F) : LevelTotals F :=
  ⟨level.buyVolume, level.sellVolume, level.buyCount, level.sellCount⟩

/-- What a bar says of its own trades. -/
structure BarOf (rational : ExactLevels F) (query : FootprintQuery F) (trades : List (AggTrade F))
    (bar : FootprintBar F) : Prop where
  timeClose : bar.timeClose = bar.time + query.duration
  tradesCount : bar.tradesCount = trades.length
  ascending : bar.levels.Pairwise fun left right =>
    rational.value left.priceLow < rational.value right.priceLow
  priceHigh : ∀ level ∈ bar.levels, level.priceHigh = PriceLevels.add level.priceLow query.bucketSize
  tallied : ∀ level ∈ bar.levels,
    rational.Tallied level.totals (trades.filter (atPrice query level.priceLow))
  occurs : ∀ level ∈ bar.levels, ∃ trade ∈ trades, atPrice query level.priceLow trade = true
  covered : ∀ trade ∈ trades, ∃ level ∈ bar.levels, atPrice query level.priceLow trade = true
  buyVolume : (bar.levels.map fun level => rational.value level.buyVolume).sum = rational.volume (buys trades)
  sellVolume : (bar.levels.map fun level => rational.value level.sellVolume).sum = rational.volume (sells trades)
  buyCount : (bar.levels.map FootprintLevel.buyCount).sum = (buys trades).length
  sellCount : (bar.levels.map FootprintLevel.sellCount).sum = (sells trades).length

omit [PyText] in
/-- The levels are sorted by their prices. -/
theorem levels_sorted (rational : ExactLevels F) {entries : List (F × LevelTotals F)}
    (distinct : (entries.map Prod.fst).Nodup) :
    (entries.insertionSort fun left right => PyFloat.lt right.1 left.1 = false).Pairwise
      fun left right => rational.value left.1 < rational.value right.1 := by
  have below (left right : F × LevelTotals F) : PyFloat.lt right.1 left.1 = false ↔
      rational.value left.1 ≤ rational.value right.1 := by
    rw [rational.lt, decide_eq_false_iff_not, not_lt]
  have total : Std.Total fun left right : F × LevelTotals F => PyFloat.lt right.1 left.1 = false :=
    ⟨fun left right => by rw [below, below]; exact le_total _ _⟩
  have trans : IsTrans (F × LevelTotals F) fun left right => PyFloat.lt right.1 left.1 = false :=
    ⟨fun first second third => by rw [below, below, below]; exact le_trans⟩
  have ordered := List.pairwise_insertionSort
    (fun left right : F × LevelTotals F => PyFloat.lt right.1 left.1 = false) entries
  have nodup := ((List.perm_insertionSort (fun left right : F × LevelTotals F =>
    PyFloat.lt right.1 left.1 = false) entries).map Prod.fst).nodup_iff.mpr distinct
  apply (ordered.and (List.pairwise_map.mp nodup)).imp
  rintro left right ⟨before, different⟩
  apply ((below left right).mp before).lt_of_ne
  intro same
  exact different (rational.injective same)

omit [PyText] [PyFloat F] [PriceLevels F] in
theorem length_eq_sum : (trades.length : Int) = (trades.map fun _ => (1 : Int)).sum := by
  induction trades with
  | nil => rfl
  | cons trade trades ih =>
      rw [List.length_cons, List.map_cons, List.sum_cons, ← ih, Int.natCast_succ, Int.add_comm]

/-- The bar of some totals says what the trades were. -/
theorem barOf_totals (rational : ExactLevels F) {totals : BucketTotals F} (time : Int)
    (total : barTotals query trades = .ok totals) : BarOf rational query trades (bucketBar query (time, totals)) := by
  obtain ⟨distinct, entries, covers⟩ := barTotals_entries rational total
  let entryLevel (entry : F × LevelTotals F) : FootprintLevel F := {
    priceLow := entry.1
    priceHigh := PriceLevels.add entry.1 query.bucketSize
    buyVolume := entry.2.buyVolume
    sellVolume := entry.2.sellVolume
    buyCount := entry.2.buyCount
    sellCount := entry.2.sellCount }
  let sorted := totals.levels.insertionSort fun left right => PyFloat.lt right.1 left.1 = false
  have levels : (bucketBar query (time, totals)).levels = sorted.map entryLevel := rfl
  have perm : sorted.Perm totals.levels := List.perm_insertionSort _ _
  have sums {Measure : Type} [AddCommMonoid Measure] (measure : LevelTotals F → Measure)
      (weight : AggTrade F → Measure) (blank : measure noTotals = 0)
      (adds : ∀ total trade, measure (total.add trade) = measure total + weight trade) :
      ((bucketBar query (time, totals)).levels.map fun level => measure level.totals).sum =
        (trades.map weight).sum := by
    rw [← barTotals_sum rational blank adds total, levels, List.map_map]
    exact (perm.map _).sum_eq
  have eachLevel (level : FootprintLevel F) (member : level ∈ (bucketBar query (time, totals)).levels) :
      ∃ entry ∈ totals.levels, entryLevel entry = level := by
    rw [levels] at member
    obtain ⟨entry, inside, same⟩ := List.mem_map.mp member
    exact ⟨entry, perm.mem_iff.mp inside, same⟩
  refine ⟨rfl, barTotals_count total, ?_, ?_, ?_, ?_, ?_, ?_, ?_, ?_, ?_⟩
  · rw [levels, List.pairwise_map]
    exact levels_sorted rational distinct
  · intro level member
    obtain ⟨entry, -, rfl⟩ := eachLevel level member
    rfl
  · intro level member
    obtain ⟨entry, inside, rfl⟩ := eachLevel level member
    exact (entries entry inside).1
  · intro level member
    obtain ⟨entry, inside, rfl⟩ := eachLevel level member
    exact (entries entry inside).2
  · intro trade member
    obtain ⟨entry, inside, taken⟩ := covers trade member
    exact ⟨entryLevel entry, levels ▸ List.mem_map_of_mem (perm.mem_iff.mpr inside), taken⟩
  · rw [ExactLevels.volume, buys, Accumulate.sum_filter]
    apply sums fun level => rational.value level.buyVolume
    · exact rational.zero
    · intro level trade
      rw [LevelTotals.add]
      by_cases maker : trade.buyerMaker = true
      · simp [maker]
      · simp [maker, rational.add]
  · rw [ExactLevels.volume, sells, Accumulate.sum_filter]
    apply sums fun level => rational.value level.sellVolume
    · exact rational.zero
    · intro level trade
      rw [LevelTotals.add]
      by_cases maker : trade.buyerMaker = true
      · simp [maker, rational.add]
      · simp [maker]
  · rw [length_eq_sum, buys, Accumulate.sum_filter]
    apply sums LevelTotals.buyCount
    · rfl
    · intro level trade
      rw [LevelTotals.add]
      by_cases maker : trade.buyerMaker = true
      · simp [maker]
      · simp [maker]
  · rw [length_eq_sum, sells, Accumulate.sum_filter]
    apply sums LevelTotals.sellCount
    · rfl
    · intro level trade
      rw [LevelTotals.add]
      by_cases maker : trade.buyerMaker = true
      · simp [maker]
      · simp [maker]

end Bar

section Conservation

variable [PyText] {F : Type} [PyFloat F] {query : FootprintQuery F} {trades others : List (AggTrade F)}
  {trade : AggTrade F} {bars : List (FootprintBar F)} {bar other : FootprintBar F} {time : Int}

/-- The time of a trade and that of its bar lie in the range of the query. -/
def FootprintQuery.Takes (query : FootprintQuery F) (trade : AggTrade F) : Prop :=
  (query.startMs ≤ trade.time ∧ trade.time < query.endMs) ∧
    query.startMs ≤ trade.time / query.duration * query.duration ∧
      trade.time / query.duration * query.duration < query.endMs

instance (query : FootprintQuery F) (trade : AggTrade F) : Decidable (query.Takes trade) :=
  inferInstanceAs (Decidable ((_ ∧ _) ∧ _ ∧ _))

/-- The trades of a bar. -/
def FootprintQuery.tradesOf (query : FootprintQuery F) (bar : FootprintBar F) (trades : List (AggTrade F)) :
    List (AggTrade F) :=
  trades.filter fun trade => query.Takes trade ∧ bar.time ≤ trade.time ∧ trade.time < bar.timeClose

theorem barTime_eq (positive : 0 < query.duration) (trade : AggTrade F) : query.barTime trade =
    .ok (if query.Takes trade then some (trade.time / query.duration * query.duration) else none) := by
  rw [FootprintQuery.barTime]
  by_cases inside : query.startMs ≤ trade.time ∧ trade.time < query.endMs
  · rw [if_pos inside, if_neg positive.ne']
    simp only [FootprintQuery.Takes, inside, true_and, and_self]
  · rw [if_neg inside, if_neg fun takes => inside takes.1]

variable [PriceLevels F] {rational : ExactLevels F}

/-- Every list of trades has bars. -/
theorem aggregate_returns_bars (rational : ExactLevels F) (positive : 0 < query.duration)
    (trades : List (AggTrade F)) : ∃ bars, aggregateTradesToFootprint trades query = .ok bars := by
  have adds (total : BucketTotals F) (trade : AggTrade F) (_ : trade ∈ trades) :
      ∃ sum, BucketTotals.add query.bucketSize total trade = .ok sum := by
    obtain ⟨low, priced, -⟩ := rational.priceLow trade.price query.bucketSize (rational.bucketSize_pos query)
    rw [BucketTotals.add, priced, ok_bind]
    exact ⟨_, rfl⟩
  obtain ⟨buckets, folded⟩ : ∃ buckets, trades.foldlM (addTrade query) [] = .ok buckets :=
    Accumulate.run_ok (fun trade _ => ⟨_, barTime_eq positive trade⟩) adds
  rw [aggregateTradesToFootprint, folded, ok_bind]
  exact ⟨_, rfl⟩

theorem aggregate_ascending (aggregated : aggregateTradesToFootprint trades query = .ok bars) :
    bars.Pairwise (·.time < ·.time) := by
  obtain ⟨buckets, folded, made⟩ := bind_eq_ok.mp aggregated
  obtain rfl := pure_eq_ok.mp made
  rw [List.pairwise_map]
  exact Keyed.sorted_insertionSort (Accumulate.nodup_run Keyed.distinct_nil folded)

/-- There is a bar for each bar time that occurs. -/
theorem aggregate_covers (positive : 0 < query.duration)
    (aggregated : aggregateTradesToFootprint trades query = .ok bars) (member : trade ∈ trades)
    (takes : query.Takes trade) : ∃ bar ∈ bars, bar.time = trade.time / query.duration * query.duration := by
  obtain ⟨buckets, folded, made⟩ := bind_eq_ok.mp aggregated
  obtain rfl := pure_eq_ok.mp made
  let time := trade.time / query.duration * query.duration
  obtain ⟨-, present⟩ := Accumulate.run_total time folded
  have taken : Accumulate.ofKey query.barTime time trade = true := by
    rw [Accumulate.ofKey, barTime_eq positive, if_pos takes]
    exact decide_eq_true rfl
  obtain ⟨bucket, inside, same⟩ := Keyed.find_isSome_iff.mp
    (present.mpr (.inr (List.ne_nil_of_mem (List.mem_filter.mpr ⟨member, taken⟩))))
  have sorted := (List.mem_insertionSort fun left right : Int × BucketTotals F => left.1 ≤ right.1).mpr inside
  exact ⟨bucketBar query bucket, List.mem_map_of_mem sorted, same⟩

/-- Each bar says what its trades were, and there is one at least. -/
theorem aggregate_barOf (rational : ExactLevels F)
    (aggregated : aggregateTradesToFootprint trades query = .ok bars) (member : bar ∈ bars) :
    BarOf rational query (query.tradesOf bar trades) bar ∧ ∃ trade ∈ trades, query.Takes trade ∧
      trade.time / query.duration * query.duration = bar.time := by
  obtain ⟨⟨positive, aligned, fromStart, beforeEnd⟩, nonempty, totals, total, made⟩ :=
    aggregate_bar aggregated member
  have close : bar.timeClose = bar.time + query.duration := by
    rw [made]
    rfl
  have own : trades.filter (query.ofBar bar.time) = query.tradesOf bar trades := by
    apply List.filter_congr
    intro trade _
    have opened := @ediv_mul_eq_iff trade.time query.duration bar.time positive
    rw [FootprintQuery.ofBar, close]
    apply decide_eq_decide.mpr
    constructor
    · rintro ⟨inside, interval⟩
      have same := opened.mpr ⟨aligned, interval⟩
      refine ⟨⟨inside, ?_⟩, interval⟩
      rw [same]
      exact ⟨fromStart, beforeEnd⟩
    · rintro ⟨takes, interval⟩
      exact ⟨takes.1, interval⟩
  rw [own] at nonempty total
  constructor
  · have spec := barOf_totals rational bar.time total
    rwa [← made] at spec
  · obtain ⟨trade, inside⟩ := List.exists_mem_of_ne_nil _ nonempty
    obtain ⟨known, interval⟩ := List.mem_filter.mp inside
    rw [decide_eq_true_eq, close] at interval
    exact ⟨trade, known, interval.1, (ediv_mul_eq_iff positive).mpr ⟨aligned, interval.2⟩⟩

/-- A trade is at the price of a level when it lies between its borders. -/
theorem BarOf.atPrice_iff_between (spec : BarOf rational query trades bar) {level : FootprintLevel F}
    (member : level ∈ bar.levels) (trade : AggTrade F) : atPrice query level.priceLow trade = true ↔
      rational.value level.priceLow ≤ rational.value trade.price ∧
        rational.value trade.price < rational.value level.priceHigh := by
  have positive := rational.bucketSize_pos query
  obtain ⟨first, -, same⟩ := spec.occurs level member
  obtain ⟨firstLow, firstPriced, firstValue⟩ := rational.priceLow first.price query.bucketSize positive
  obtain rfl := Except.ok.inj (firstPriced.symm.trans (atPrice_iff.mp same))
  obtain ⟨low, priced, value⟩ := rational.priceLow trade.price query.bucketSize positive
  rw [spec.priceHigh level member, rational.add, firstValue, ← floor_mul_eq_iff positive, ← value, ← firstValue,
    atPrice_iff, priced, Except.ok.injEq]
  exact rational.injective.eq_iff.symm

theorem BarOf.level_unique (spec : BarOf rational query trades bar) {first second : FootprintLevel F}
    (left : first ∈ bar.levels) (right : second ∈ bar.levels) (same : first.priceLow = second.priceLow) :
    first = second := by
  have distinct : (bar.levels.map FootprintLevel.priceLow).Nodup := by
    apply List.pairwise_map.mpr
    apply spec.ascending.imp
    intro early late before equal
    rw [equal] at before
    exact lt_irrefl _ before
  exact List.inj_on_of_nodup_map distinct left right same

/-- The same trades in another order make the same levels. -/
theorem BarOf.level_mem (spec : BarOf rational query trades bar) (otherSpec : BarOf rational query others other)
    (same : trades.Perm others) {level : FootprintLevel F} (member : level ∈ bar.levels) :
    level ∈ other.levels := by
  obtain ⟨trade, known, taken⟩ := spec.occurs level member
  obtain ⟨twin, inside, again⟩ := otherSpec.covered trade (same.mem_iff.mp known)
  have low : level.priceLow = twin.priceLow :=
    Except.ok.inj ((atPrice_iff.mp taken).symm.trans (atPrice_iff.mp again))
  have first := (spec.tallied level member).perm (same.filter _)
  have second := otherSpec.tallied twin inside
  rw [← low] at second
  have totals : level.totals = twin.totals := first.unique second
  have high : level.priceHigh = twin.priceHigh := by
    rw [spec.priceHigh level member, otherSpec.priceHigh twin inside, low]
  obtain ⟨lowPrice, highPrice, buyVolume, sellVolume, buyCount, sellCount⟩ := level
  obtain ⟨otherLow, otherHigh, otherBuy, otherSell, otherBuys, otherSells⟩ := twin
  cases totals
  cases low
  cases high
  exact inside

/-- A bar is determined by its time and by its trades in any order. -/
theorem BarOf.unique (spec : BarOf rational query trades bar) (otherSpec : BarOf rational query others other)
    (same : trades.Perm others) (time : bar.time = other.time) : bar = other := by
  have levels : bar.levels = other.levels := by
    have members (level : FootprintLevel F) : level ∈ bar.levels ↔ level ∈ other.levels :=
      ⟨spec.level_mem otherSpec same, otherSpec.level_mem spec same.symm⟩
    exact Keyed.eq_of_mem_iff spec.ascending otherSpec.ascending members
  have close : bar.timeClose = other.timeClose := by rw [spec.timeClose, otherSpec.timeClose, time]
  have count : bar.tradesCount = other.tradesCount := by
    rw [spec.tradesCount, otherSpec.tradesCount, same.length_eq]
  obtain ⟨barTime, barClose, barLevels, barCount⟩ := bar
  obtain ⟨otherTime, otherClose, otherLevels, otherCount⟩ := other
  cases time
  cases close
  cases levels
  cases count
  rfl

/-- The order of the trades does not count. -/
theorem aggregate_perm (rational : ExactLevels F) (positive : 0 < query.duration) (same : trades.Perm others) :
    aggregateTradesToFootprint trades query = aggregateTradesToFootprint others query := by
  have inside {first second : List (AggTrade F)} (same : first.Perm second) {bars more : List (FootprintBar F)}
      (left : aggregateTradesToFootprint first query = .ok bars)
      (right : aggregateTradesToFootprint second query = .ok more) {bar : FootprintBar F} (member : bar ∈ bars) :
      bar ∈ more := by
    obtain ⟨spec, trade, known, takes, opened⟩ := aggregate_barOf rational left member
    obtain ⟨twin, found, time⟩ := aggregate_covers positive right (same.mem_iff.mp known) takes
    obtain ⟨otherSpec, -⟩ := aggregate_barOf rational right found
    have close : bar.timeClose = twin.timeClose := by
      rw [spec.timeClose, otherSpec.timeClose, time, opened]
    have own : (query.tradesOf bar first).Perm (query.tradesOf twin second) := by
      rw [FootprintQuery.tradesOf, FootprintQuery.tradesOf, close, time, opened]
      exact same.filter _
    rw [spec.unique otherSpec own (opened.symm.trans time.symm)]
    exact found
  obtain ⟨bars, left⟩ := aggregate_returns_bars rational positive trades
  obtain ⟨more, right⟩ := aggregate_returns_bars rational positive others
  rw [left, right]
  congr 1
  apply Keyed.eq_of_mem_iff (aggregate_ascending left) (aggregate_ascending right)
  intro bar
  exact ⟨inside same left right, inside same.symm right left⟩

/-- A trade is counted in a level of a bar. -/
def ExactLevels.Counts (rational : ExactLevels F) (query : FootprintQuery F) (bar : FootprintBar F)
    (level : FootprintLevel F) (trade : AggTrade F) : Prop :=
  query.Takes trade ∧ (bar.time ≤ trade.time ∧ trade.time < bar.timeClose) ∧
    rational.value level.priceLow ≤ rational.value trade.price ∧
      rational.value trade.price < rational.value level.priceHigh

instance (rational : ExactLevels F) (query : FootprintQuery F) (bar : FootprintBar F)
    (level : FootprintLevel F) (trade : AggTrade F) : Decidable (rational.Counts query bar level trade) :=
  inferInstanceAs (Decidable (_ ∧ (_ ∧ _) ∧ _ ∧ _))

/-- No trade is lost or counted twice, and the numbers of the bars are those of their trades. -/
structure Conserved (rational : ExactLevels F) (query : FootprintQuery F) (trades : List (AggTrade F))
    (bars : List (FootprintBar F)) : Prop where
  ascending : bars.Pairwise (·.time < ·.time)
  levels : ∀ bar ∈ bars, bar.levels.Pairwise fun left right =>
    rational.value left.priceLow < rational.value right.priceLow
  once : ∀ trade ∈ trades, query.Takes trade → ∃! place : FootprintBar F × FootprintLevel F,
    (place.1 ∈ bars ∧ place.2 ∈ place.1.levels) ∧ rational.Counts query place.1 place.2 trade
  tallied : ∀ bar ∈ bars, ∀ level ∈ bar.levels,
    rational.Tallied level.totals (trades.filter (rational.Counts query bar level ·))
  buyVolume : ∀ bar ∈ bars, (bar.levels.map fun level => rational.value level.buyVolume).sum =
    rational.volume (buys (query.tradesOf bar trades))
  sellVolume : ∀ bar ∈ bars, (bar.levels.map fun level => rational.value level.sellVolume).sum =
    rational.volume (sells (query.tradesOf bar trades))
  buyCount : ∀ bar ∈ bars,
    (bar.levels.map FootprintLevel.buyCount).sum = (buys (query.tradesOf bar trades)).length
  sellCount : ∀ bar ∈ bars,
    (bar.levels.map FootprintLevel.sellCount).sum = (sells (query.tradesOf bar trades)).length
  tradesCount : ∀ bar ∈ bars, bar.tradesCount = (query.tradesOf bar trades).length

/-- A trade lies in one bar and in one level of it. -/
theorem counted_once (positive : 0 < query.duration)
    (aggregated : aggregateTradesToFootprint trades query = .ok bars) (member : trade ∈ trades)
    (takes : query.Takes trade) : ∃! place : FootprintBar F × FootprintLevel F,
      (place.1 ∈ bars ∧ place.2 ∈ place.1.levels) ∧ rational.Counts query place.1 place.2 trade := by
  obtain ⟨bar, inside, opened⟩ := aggregate_covers positive aggregated member takes
  obtain ⟨spec, -⟩ := aggregate_barOf rational aggregated inside
  have interval : bar.time ≤ trade.time ∧ trade.time < bar.timeClose := by
    rw [spec.timeClose]
    exact ((ediv_mul_eq_iff positive).mp opened.symm).2
  have own : trade ∈ query.tradesOf bar trades :=
    List.mem_filter.mpr ⟨member, decide_eq_true ⟨takes, interval⟩⟩
  obtain ⟨level, known, priced⟩ := spec.covered trade own
  refine ⟨(bar, level), ⟨⟨inside, known⟩, takes, interval, (spec.atPrice_iff_between known trade).mp priced⟩, ?_⟩
  rintro ⟨otherBar, otherLevel⟩ ⟨⟨otherInside, otherKnown⟩, -, otherInterval, between⟩
  obtain ⟨otherSpec, twin, -, -, twinOpened⟩ := aggregate_barOf rational aggregated otherInside
  rw [otherSpec.timeClose] at otherInterval
  have aligned : otherBar.time % query.duration = 0 := by
    rw [← twinOpened]
    exact Int.mul_emod_left _ _
  have same : otherBar.time = bar.time :=
    ((ediv_mul_eq_iff positive).mpr ⟨aligned, otherInterval⟩).symm.trans opened.symm
  obtain rfl : otherBar = bar := List.inj_on_of_nodup_map
    (Keyed.nodup_of_sorted (aggregate_ascending aggregated)) otherInside inside same
  have otherPriced := (spec.atPrice_iff_between otherKnown trade).mpr between
  have low : otherLevel.priceLow = level.priceLow :=
    Except.ok.inj ((atPrice_iff.mp otherPriced).symm.trans (atPrice_iff.mp priced))
  exact Prod.ext rfl (spec.level_unique otherKnown known low)

/-- The aggregation conserves the trades, in whatever order they come. -/
theorem aggregation_conserves_trades (rational : ExactLevels F) (query : FootprintQuery F)
    (positive : 0 < query.duration) :
    (∀ trades others : List (AggTrade F), trades.Perm others →
      aggregateTradesToFootprint trades query = aggregateTradesToFootprint others query) ∧
    ∀ trades : List (AggTrade F), ∃ bars, aggregateTradesToFootprint trades query = .ok bars ∧
      Conserved rational query trades bars := by
  constructor
  · intro trades others same
    exact aggregate_perm rational positive same
  · intro trades
    obtain ⟨bars, aggregated⟩ := aggregate_returns_bars rational positive trades
    have spec (bar : FootprintBar F) (member : bar ∈ bars) := (aggregate_barOf rational aggregated member).1
    refine ⟨bars, aggregated, ?_⟩
    exact {
      ascending := aggregate_ascending aggregated
      levels := fun bar member => (spec bar member).ascending
      once := fun trade member takes => counted_once positive aggregated member takes
      tallied := by
        intro bar member level known
        have counted : trades.filter (rational.Counts query bar level ·) =
            (query.tradesOf bar trades).filter (atPrice query level.priceLow) := by
          rw [FootprintQuery.tradesOf, List.filter_filter]
          apply List.filter_congr
          intro trade _
          rw [Bool.eq_iff_iff, decide_eq_true_eq, Bool.and_eq_true, decide_eq_true_eq,
            (spec bar member).atPrice_iff_between known trade, ExactLevels.Counts]
          exact ⟨fun ⟨takes, interval, between⟩ => ⟨between, takes, interval⟩,
            fun ⟨between, takes, interval⟩ => ⟨takes, interval, between⟩⟩
        rw [counted]
        exact (spec bar member).tallied level known
      buyVolume := fun bar member => (spec bar member).buyVolume
      sellVolume := fun bar member => (spec bar member).sellVolume
      buyCount := fun bar member => (spec bar member).buyCount
      sellCount := fun bar member => (spec bar member).sellCount
      tradesCount := fun bar member => (spec bar member).tradesCount }

end Conservation

end MarketdataProvider

namespace MarketdataProvider

open Reference Foundation
open scoped Reference

namespace Reference

/-- The arithmetic of whole numbers is exact. -/
def wholeLevels : ExactLevels Whole where
  value number := number.value
  injective := by
    intro left right same
    exact congrArg Whole.mk (Int.cast_injective same)
  zero := rfl
  lt left right := decide_eq_decide.mpr Int.cast_lt.symm
  eq left right := decide_eq_decide.mpr Int.cast_inj.symm
  add left right := Int.cast_add left.value right.value
  priceLow price size positive := by
    refine ⟨_, rfl, ?_⟩
    have whole : ⌊(price.value : ℚ) / size.value⌋ = price.value / size.value := by
      have step : 0 < size.value := Int.cast_pos.mp positive
      rw [Int.floor_eq_iff, le_div_iff₀ positive, div_lt_iff₀ positive]
      have low := Int.ediv_mul_le price.value step.ne'
      have high := Int.lt_ediv_add_one_mul_self price.value step
      constructor
      · exact_mod_cast low
      · exact_mod_cast high
    rw [whole]
    exact Int.cast_mul _ _

end Reference

/-- Two trades at one price, in both orders. -/
theorem aggregation_conserves_minuteHistory :
    aggregateTradesToFootprint minuteHistory (minuteFootprint 0 60000 (by decide)) =
      aggregateTradesToFootprint minuteHistory.reverse (minuteFootprint 0 60000 (by decide)) ∧
    ∃ bars, aggregateTradesToFootprint minuteHistory (minuteFootprint 0 60000 (by decide)) = .ok bars ∧
      Conserved wholeLevels (minuteFootprint 0 60000 (by decide)) minuteHistory bars := by
  obtain ⟨order, conserved⟩ :=
    aggregation_conserves_trades wholeLevels (minuteFootprint 0 60000 (by decide)) (by decide)
  exact ⟨order _ _ (List.reverse_perm minuteHistory).symm, conserved minuteHistory⟩

end MarketdataProvider
