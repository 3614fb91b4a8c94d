import MarketdataProvider.Footprint.Aggregate
import MarketdataProvider.Footprint.RawTrades
import MarketdataProvider.Store.FootprintWrites

namespace MarketdataProvider

open Foundation

/-- The raw trades of one instrument, and the footprints of one of its timeframes and bucket sizes. -/
structure FootprintStores (F : Type) where
  raw : RawTree
  files : FootprintFiles F

def FootprintStores.empty {F : Type} : FootprintStores F := ⟨RawTree.empty, FootprintFiles.empty⟩

/-- `str` of a tuple of intervals -/
def intervalsText (intervals : List (Int × Int)) : String :=
  let texts := intervals.map fun interval =>
    "(" ++ toString interval.1 ++ ", " ++ toString interval.2 ++ ")"
  "(" ++ ", ".intercalate texts ++ (if intervals.length = 1 then ",)" else ")")

section Fetch

variable [PyText] {F : Type} [PyFloat F] [PriceLevels F]

omit [PriceLevels F] in
/-- `_raw_covers` -/
def rawCovers (trades : List (AggTrade F)) (query : FootprintQuery F) : Bool :=
  match trades.head?, trades.getLast? with
  | some first, some last => first.time ≤ query.startMs && last.time < query.endMs
  | _, _ => false

omit [PriceLevels F] in
def requireCovered (text : String) (series : FootprintSeries F) : Except PyError (FootprintSeries F) :=
  if series.query.gapPolicy = .fail ∧ series.coverage.isComplete = false then
    .error (.mdUnsupportedFeature (text ++ intervalsText series.coverage.missingIntervals))
  else .ok series

omit [PriceLevels F] in
/-- The answer from the stored footprints; a query of the provider has none, nor has one with gaps
unless it asks for storage only. -/
def storedAnswer (files : FootprintFiles F) (query : FootprintQuery F) :
    Option (Except PyError (FootprintSeries F)) :=
  if query.source = .provider then none
  else
    match readFootprint files query with
    | .error error => some (.error error)
    | .ok stored =>
        if stored.coverage.isComplete ∨ query.source = .storage then
          some (requireCovered "footprint storage coverage incomplete: " stored)
        else none

/-- `binance_get_agg_trades_sync` with the instrument, the start and the end of its range. -/
abbrev TradeSource (F : Type) : Type :=
  InstrumentKey → Int → Int → Except PyError (List (AggTrade F))

variable [RawJson (AggTrade F)] [Zstandard] [Sha256]

omit [PriceLevels F] in
/-- `_ensure_raw_trades` -/
def ensureRawTrades (fetch : TradeSource F) (raw : RawTree) (query : FootprintQuery F) :
    Except PyError (List (AggTrade F)) × RawTree :=
  match readRawTrades raw query.instrument query.startMs query.endMs with
  | .error error => (.error error, raw)
  | .ok cached =>
      if rawCovers cached query then (.ok cached, raw)
      else if query.instrument.exchange ≠ "binance" then
        (.error (.mdUnsupportedFeature ("Unsupported footprint exchange: " ++ query.instrument.exchange)),
          raw)
      else
        match fetch query.instrument query.startMs query.endMs with
        | .error error => (.error error, raw)
        | .ok fetched =>
            match writeRawTrades query.instrument raw fetched with
            | .error error => (.error error, raw)
            | .ok after => (readRawTrades after query.instrument query.startMs query.endMs, after)

omit [RawJson (AggTrade F)] [Zstandard] in
/-- The bars of the trades are stored, unless there are none, and read back. -/
def publishFootprint (files : FootprintFiles F) (query : FootprintQuery F) (trades : List (AggTrade F)) :
    Except PyError (FootprintSeries F) × FootprintFiles F :=
  match aggregateTradesToFootprint trades query with
  | .error error => (.error error, files)
  | .ok bars =>
      match footprintCoverage query bars with
      | .error error => (.error error, files)
      | .ok coverage =>
          if bars = [] then (.ok ⟨query, bars, coverage⟩, files)
          else
            match writeFootprint files query bars with
            | .error error => (.error error, files)
            | .ok after => (readFootprint after query, after)

/-- `FootprintService.fetch_footprint` -/
def fetchFootprint (fetch : TradeSource F) (stores : FootprintStores F) (query : FootprintQuery F) :
    Except PyError (FootprintSeries F) × FootprintStores F :=
  match storedAnswer stores.files query with
  | some answer => (answer, stores)
  | none =>
      match ensureRawTrades fetch stores.raw query with
      | (.error error, raw) => (.error error, ⟨raw, stores.files⟩)
      | (.ok trades, raw) =>
          let published := publishFootprint stores.files query trades
          (published.1 >>= requireCovered "footprint coverage incomplete: ", ⟨raw, published.2⟩)

/-- A property of each call in a sequence of calls, in the state that the call meets. -/
def EachFetch (fetch : TradeSource F) (holds : FootprintStores F → FootprintQuery F → Prop) :
    FootprintStores F → List (FootprintQuery F) → Prop
  | _, [] => True
  | stores, query :: later =>
      holds stores query ∧ EachFetch fetch holds (fetchFootprint fetch stores query).2 later

/-- The trades that a call aggregates: the cached ones if they are taken for all, or else those of the
exchange. -/
def tradesTaken (history : List (AggTrade F)) (stores : FootprintStores F) (query : FootprintQuery F) :
    List (AggTrade F) :=
  match readRawTrades stores.raw query.instrument query.startMs query.endMs with
  | .error _ => tradesWithin query.startMs query.endMs history
  | .ok cached =>
      if rawCovers cached query then cached else tradesWithin query.startMs query.endMs history

omit [PriceLevels F] in
/-- A call that storage does not answer takes all trades of each bar that it opens. -/
def TakesWholeBars (history : List (AggTrade F)) (stores : FootprintStores F) (query : FootprintQuery F) :
    Prop :=
  storedAnswer stores.files query = none → ∀ trade ∈ tradesTaken history stores query,
    query.startMs ≤ trade.time / query.duration * query.duration → ∀ other ∈ history,
      trade.time / query.duration * query.duration ≤ other.time →
        other.time < trade.time / query.duration * query.duration + query.duration →
          other ∈ tradesTaken history stores query

/-- Every bar that the call returns is full. -/
def ReturnsFullBars (fetch : TradeSource F) (history : List (AggTrade F)) (stores : FootprintStores F)
    (query : FootprintQuery F) : Prop :=
  ∀ answer, (fetchFootprint fetch stores query).1 = .ok answer →
    ∀ bar ∈ answer.bars, FullBar history query bar

end Fetch

section Soundness

variable [PyText] {F : Type} [PyFloat F] [PriceLevels F] [RawJson (AggTrade F)] [Zstandard] [Sha256]
  {fetch : TradeSource F} {history : List (AggTrade F)} {stores : FootprintStores F}
  {series query : FootprintQuery F}

/-- The raw trees that calls of one instrument leave: every trade in them is one of the exchange. -/
def RawSound (history : List (AggTrade F)) (instrument : InstrumentKey) (raw : RawTree) : Prop :=
  ∃ calls, writeAllRawTrades instrument RawTree.empty calls = .ok raw ∧
    ∀ trade ∈ calls.flatten, trade ∈ history

/-- Every stored footprint bar is full. -/
structure FootprintStores.Sound (history : List (AggTrade F)) (series : FootprintQuery F)
    (stores : FootprintStores F) : Prop where
  raw : RawSound history series.instrument stores.raw
  files : ∃ bars, stores.files.Holds bars ∧ ∀ bar ∈ bars, FullBar history series bar

/-- What the exchange and the numbers are taken to do: the source returns the trades of its range, which
have ascending ids, and trades and full bars come back from their texts. -/
structure FaithfulHistory (fetch : TradeSource F) (history : List (AggTrade F)) (series : FootprintQuery F) :
    Prop where
  exact : ∀ start stop, fetch series.instrument start stop = .ok (tradesWithin start stop history)
  ids : history.Pairwise (·.tradeId < ·.tradeId)
  dumped : ∀ trade ∈ history, Dumped trade
  readable : ∀ bar, FullBar history series bar → bar.Readable

omit [PyFloat F] [PriceLevels F] in
theorem rawSound_empty (instrument : InstrumentKey) : RawSound history instrument RawTree.empty :=
  ⟨[], rfl, nofun⟩

theorem sound_empty : (FootprintStores.empty : FootprintStores F).Sound history series :=
  ⟨rawSound_empty _, [], holds_empty, nofun⟩

omit [PyFloat F] [PriceLevels F] in
/-- A read has trades of the exchange, in the order of their ids and inside of the range. -/
theorem RawSound.read {instrument : InstrumentKey} {raw : RawTree} (sound : RawSound history instrument raw)
    (dumped : ∀ trade ∈ history, Dumped trade) {start stop : Int} {trades : List (AggTrade F)}
    (read : readRawTrades raw instrument start stop = .ok trades) :
    trades.Pairwise (·.tradeId < ·.tradeId) ∧
      ∀ trade ∈ trades, trade ∈ history ∧ start ≤ trade.time ∧ trade.time < stop := by
  obtain ⟨calls, written, known⟩ := sound
  obtain ⟨parts, -, -, reads⟩ := readRawTrades_ok written fun trade member => dumped trade (known trade member)
  rw [reads, Except.ok.injEq] at read
  subst read
  refine ⟨Keyed.byKey_sorted, fun trade member => ?_⟩
  obtain ⟨found, range⟩ := List.mem_filter.mp (Keyed.mem_byKey member)
  obtain ⟨part, -, batch⟩ := List.mem_flatMap.mp found
  exact ⟨known trade (mem_lastBatch batch).1, by simpa using range⟩

/-- What a call aggregates: trades of the exchange, in the order of their ids. -/
theorem ensureRawTrades_sound (faithful : FaithfulHistory fetch history series)
    (sound : RawSound history series.instrument stores.raw) (shares : query.SharesFile series) :
    RawSound history series.instrument (ensureRawTrades fetch stores.raw query).2 ∧
      ∀ trades, (ensureRawTrades fetch stores.raw query).1 = .ok trades →
        trades = tradesTaken history stores query ∧ trades.Pairwise (·.tradeId < ·.tradeId) ∧
          ∀ trade ∈ trades, trade ∈ history ∧ query.startMs ≤ trade.time ∧ trade.time < query.endMs := by
  obtain ⟨calls, written, known⟩ := sound
  rw [ensureRawTrades, tradesTaken, shares.1]
  cases cachedRead : readRawTrades (F := F) stores.raw series.instrument query.startMs query.endMs with
  | error error => exact ⟨⟨calls, written, known⟩, fun _ failed => by cases failed⟩
  | ok cached =>
      dsimp only
      split
      · refine ⟨⟨calls, written, known⟩, fun trades same => ?_⟩
        cases same
        exact ⟨rfl, RawSound.read ⟨calls, written, known⟩ faithful.dumped cachedRead⟩
      · split
        · exact ⟨⟨calls, written, known⟩, fun _ failed => by cases failed⟩
        · rw [faithful.exact]
          dsimp only
          split
          · exact ⟨⟨calls, written, known⟩, fun _ failed => by cases failed⟩
          · rename_i after stored
            have extended : writeAllRawTrades series.instrument RawTree.empty
                (calls ++ [tradesWithin query.startMs query.endMs history]) = .ok after := by
              rw [writeAllRawTrades, foldlM_append_eq_ok]
              exact ⟨_, written, by rw [List.foldlM_cons, stored]; rfl⟩
            have inside : ∀ trade ∈ (calls ++ [tradesWithin query.startMs query.endMs history]).flatten,
                trade ∈ history := by
              intro trade member
              rw [List.flatten_append, List.mem_append, List.flatten_singleton] at member
              rcases member with old | new
              · exact known trade old
              · exact (List.mem_filter.mp new).1
            refine ⟨⟨_, extended, inside⟩, fun trades read => ?_⟩
            have order := RawSound.read ⟨_, extended, inside⟩ faithful.dumped read
            rw [readRawTrades_fresh extended faithful.dumped known faithful.ids, Except.ok.injEq] at read
            exact ⟨read.symm, order⟩

omit [PriceLevels F] [RawJson (AggTrade F)] [Zstandard] in
/-- A read returns the bars of its range. -/
theorem FootprintFiles.Holds.bars_of_read {files : FootprintFiles F} {bars : List (FootprintBar F)}
    (holds : files.Holds bars) {answer : FootprintSeries F} (read : readFootprint files query = .ok answer) :
    answer.bars = footprintWithin query.startMs query.endMs bars := by
  rw [readFootprint, holds.readBars, ok_bind, bind_eq_ok] at read
  obtain ⟨coverage, -, same⟩ := read
  rw [← pure_eq_ok.mp same]

omit [PriceLevels F] [RawJson (AggTrade F)] [Zstandard] [Sha256] in
theorem requireCovered_ok {text : String} {found answer : FootprintSeries F}
    (covered : requireCovered text found = .ok answer) : found = answer := by
  rw [requireCovered] at covered
  split at covered
  · cases covered
  · exact Except.ok.inj covered

omit [Zstandard] [Sha256] in
/-- The bars of one call are full when it takes all trades of each bar. -/
theorem full_of_taken (faithful : FaithfulHistory fetch history series) (shares : query.SharesFile series)
    {trades : List (AggTrade F)} {bars : List (FootprintBar F)}
    (order : trades.Pairwise (·.tradeId < ·.tradeId))
    (known : ∀ trade ∈ trades, trade ∈ history ∧ query.startMs ≤ trade.time ∧ trade.time < query.endMs)
    (whole : ∀ trade ∈ trades, query.startMs ≤ trade.time / query.duration * query.duration →
      ∀ other ∈ history, trade.time / query.duration * query.duration ≤ other.time →
        other.time < trade.time / query.duration * query.duration + query.duration → other ∈ trades)
    (aggregated : aggregateTradesToFootprint trades query = .ok bars) :
    ∀ bar ∈ bars, FullBar history series bar := by
  intro bar member
  obtain ⟨⟨positive, aligned, fromStart, -⟩, nonempty, -⟩ := aggregate_bar aggregated member
  obtain ⟨trade, taken⟩ := List.exists_mem_of_ne_nil _ nonempty
  obtain ⟨inside, own⟩ := List.mem_filter.mp taken
  simp only [FootprintQuery.ofBar, decide_eq_true_eq] at own
  have opening : trade.time / query.duration * query.duration = bar.time :=
    (ediv_mul_eq_iff positive).mpr ⟨aligned, own.2⟩
  have all : trades.filter (query.ofBar bar.time) =
      tradesWithin bar.time (bar.time + query.duration) history := by
    have left : (trades.filter (query.ofBar bar.time)).Pairwise (·.tradeId < ·.tradeId) := order.filter _
    have right : (tradesWithin bar.time (bar.time + query.duration) history).Pairwise
        (·.tradeId < ·.tradeId) := faithful.ids.filter _
    rw [← Keyed.byKey_eq_self left]
    apply Keyed.byKey_eq_of_mem right
    intro other
    rw [List.mem_filter, tradesWithin, List.mem_filter, FootprintQuery.ofBar, decide_eq_true_eq,
      decide_eq_true_eq]
    constructor
    · rintro ⟨member, -, interval⟩
      exact ⟨(known other member).1, interval⟩
    · rintro ⟨member, interval⟩
      have taken := whole trade inside (opening ▸ fromStart) other member (opening ▸ interval.1)
        (opening ▸ interval.2)
      exact ⟨taken, (known other taken).2, interval⟩
  obtain ⟨full, same, starts, ends, made⟩ := full_of_aggregate aggregated member all
  exact ⟨full, ⟨same.1.trans shares.1, same.2.1.trans shares.2.1, same.2.2.trans shares.2.2⟩, starts, ends,
    made⟩

omit [Zstandard] in
/-- Storing full bars keeps the footprints full, and what is read back is full. -/
theorem publishFootprint_sound (faithful : FaithfulHistory fetch history series)
    {files : FootprintFiles F} (sound : ∃ bars, files.Holds bars ∧ ∀ bar ∈ bars, FullBar history series bar)
    {trades : List (AggTrade F)}
    (full : ∀ bars, aggregateTradesToFootprint trades query = .ok bars →
      ∀ bar ∈ bars, FullBar history series bar) :
    (∃ bars, (publishFootprint files query trades).2.Holds bars ∧
        ∀ bar ∈ bars, FullBar history series bar) ∧
      ∀ answer, (publishFootprint files query trades).1 = .ok answer →
        ∀ bar ∈ answer.bars, FullBar history series bar := by
  obtain ⟨stored, holds, storedFull⟩ := sound
  rw [publishFootprint]
  cases aggregated : aggregateTradesToFootprint trades query with
  | error error => exact ⟨⟨stored, holds, storedFull⟩, fun _ failed => by cases failed⟩
  | ok bars =>
      have made := full bars aggregated
      dsimp only
      cases covered : footprintCoverage query bars with
      | error error => exact ⟨⟨stored, holds, storedFull⟩, fun _ failed => by cases failed⟩
      | ok coverage =>
          dsimp only
          split
          · refine ⟨⟨stored, holds, storedFull⟩, fun answer same => ?_⟩
            cases same
            exact made
          · rename_i nonempty
            obtain ⟨bar, member⟩ := List.exists_mem_of_ne_nil _ nonempty
            have positive := (aggregate_bar aggregated member).1.1.ne'
            let new : FootprintSeries F := ⟨query, bars, coverage⟩
            have readable : ∀ bar ∈ new.bars, bar.Readable := fun bar member =>
              faithful.readable bar (made bar member)
            have nonzero : new.query.duration ≠ 0 := positive
            obtain ⟨after, written, merged⟩ := holds.write nonzero readable
            rw [show writeFootprint files query bars = .ok after from written]
            have mergedFull : ∀ bar ∈ WindowedMerge.merge FootprintBar.time stored new.asWrite,
                FullBar history series bar := by
              intro bar member
              rcases List.mem_append.mp (Keyed.mem_byKey member) with old | new
              · exact storedFull bar (List.mem_filter.mp old).1
              · exact made bar new
            refine ⟨⟨_, merged, mergedFull⟩, fun answer read bar member => ?_⟩
            rw [merged.bars_of_read read] at member
            exact mergedFull bar (List.mem_filter.mp member).1

/-- One call keeps the stored footprints full and returns full bars. -/
theorem fetchFootprint_sound (faithful : FaithfulHistory fetch history series)
    (sound : stores.Sound history series) (shares : query.SharesFile series)
    (takes : TakesWholeBars history stores query) :
    (fetchFootprint fetch stores query).2.Sound history series ∧
      ∀ answer, (fetchFootprint fetch stores query).1 = .ok answer →
        ∀ bar ∈ answer.bars, FullBar history series bar := by
  rw [fetchFootprint]
  cases stored : storedAnswer stores.files query with
  | some found =>
      refine ⟨sound, fun answer same => ?_⟩
      dsimp only at same
      subst same
      obtain ⟨bars, holds, full⟩ := sound.files
      rw [storedAnswer] at stored
      split at stored
      · cases stored
      · split at stored
        · cases stored
        · rename_i back read
          split at stored
          · rw [← requireCovered_ok (Option.some.inj stored), holds.bars_of_read read]
            exact fun bar member => full bar (List.mem_filter.mp member).1
          · cases stored
  | none =>
      dsimp only
      obtain ⟨raw, taken⟩ := ensureRawTrades_sound faithful sound.raw shares
      split
      · rename_i ensured
        rw [ensured] at raw
        exact ⟨⟨raw, sound.files⟩, fun _ failed => by cases failed⟩
      · rename_i trades after ensured
        rw [ensured] at raw taken
        obtain ⟨same, order, known⟩ := taken trades rfl
        have whole := takes stored
        rw [← same] at whole
        obtain ⟨files, full⟩ := publishFootprint_sound faithful sound.files fun bars aggregated =>
          full_of_taken faithful shares order known whole aggregated
        refine ⟨⟨raw, files⟩, fun answer returned => ?_⟩
        obtain ⟨back, published, covered⟩ := bind_eq_ok.mp returned
        rw [← requireCovered_ok covered]
        exact full back published

/-- Calls that take whole bars return full bars: each keeps the stores sound for the calls after it. -/
theorem returnsFullBars_of_sound (faithful : FaithfulHistory fetch history series)
    {queries : List (FootprintQuery F)} (sound : stores.Sound history series)
    (shared : ∀ query ∈ queries, query.SharesFile series)
    (takes : EachFetch fetch (TakesWholeBars history) stores queries) :
    EachFetch fetch (ReturnsFullBars fetch history) stores queries := by
  induction queries generalizing stores with
  | nil => trivial
  | cons query later ih =>
      have shares := shared query List.mem_cons_self
      obtain ⟨after, full⟩ := fetchFootprint_sound faithful sound shares takes.1
      refine ⟨fun answer returned bar member => ?_, ih after (fun other inside => shared other (.tail _ inside))
        takes.2⟩
      obtain ⟨whole, same, made⟩ := full answer returned bar member
      exact ⟨whole, ⟨same.1.trans shares.1.symm, same.2.1.trans shares.2.1.symm,
        same.2.2.trans shares.2.2.symm⟩, made⟩

/-- In every sequence of calls from empty stores whose calls take whole bars, each returned bar is the
aggregate of all trades of the exchange in its interval. -/
theorem footprints_independent_of_history (faithful : FaithfulHistory fetch history series)
    {queries : List (FootprintQuery F)} (shared : ∀ query ∈ queries, query.SharesFile series)
    (takes : EachFetch fetch (TakesWholeBars history) FootprintStores.empty queries) :
    EachFetch fetch (ReturnsFullBars fetch history) FootprintStores.empty queries :=
  returnsFullBars_of_sound faithful sound_empty shared takes

omit [PriceLevels F] in
/-- A range on the grid whose trades come from the exchange has whole bars. -/
theorem takesWholeBars_of_aligned (taken : tradesTaken history stores query =
      tradesWithin query.startMs query.endMs history) (aligned : query.endMs % query.duration = 0) :
    TakesWholeBars history stores query := by
  intro _ trade member fromStart other known before after
  rw [taken, tradesWithin, List.mem_filter, decide_eq_true_eq] at member ⊢
  refine ⟨known, by omega, ?_⟩
  rcases query.duration_nonneg.eq_or_lt with zero | positive
  · rw [← zero] at before after
    omega
  · obtain ⟨count, last⟩ := Int.dvd_of_emod_eq_zero aligned
    have opened : trade.time / query.duration < count := by
      apply Int.ediv_lt_of_lt_mul positive
      rw [Int.mul_comm]
      omega
    have next : (trade.time / query.duration + 1) * query.duration ≤ count * query.duration :=
      Int.mul_le_mul_of_nonneg_right opened positive.le
    rw [Int.add_mul, Int.one_mul, Int.mul_comm count, ← last] at next
    omega

end Soundness

end MarketdataProvider

namespace MarketdataProvider

open Reference Foundation
open scoped Reference

namespace Reference

scoped instance priceLevels : PriceLevels Whole where
  add left right := ⟨left.value + right.value⟩
  priceLow price bucketSize := .ok ⟨price.value / bucketSize.value * bucketSize.value⟩

/-- The exchange answers with the trades of the range. -/
def historySource (history : List (AggTrade Whole)) : TradeSource Whole :=
  fun _ start stop => .ok (tradesWithin start stop history)

/-- Two trades of the first minute, one in each half. -/
def minuteHistory : List (AggTrade Whole) := [tradeAt (7, 10000), tradeAt (8, 40000)]

theorem minuteHistory_readable {bar : FootprintBar Whole}
    (full : FullBar minuteHistory (minuteFootprint 0 60000 (by decide)) bar) : bar.Readable := by
  obtain ⟨aligned, nonempty, totals, total, made⟩ := full.totals
  have first : bar.time = 0 := by
    obtain ⟨trade, member⟩ := List.exists_mem_of_ne_nil _ nonempty
    obtain ⟨known, interval⟩ := List.mem_filter.mp member
    rw [decide_eq_true_eq] at interval
    have timed : trade.time = 10000 ∨ trade.time = 40000 := by
      simp only [minuteHistory, List.mem_cons, List.not_mem_nil, or_false] at known
      rcases known with rfl | rfl
      · exact .inl rfl
      · exact .inr rfl
    simp only [minuteFootprint] at aligned interval
    omega
  rw [first] at total made
  have sums : barTotals (minuteFootprint 0 60000 (by decide)) (tradesWithin 0 60000 minuteHistory) =
      .ok ⟨[(⟨1⟩, ⟨⟨2⟩, ⟨0⟩, 2, 0⟩)], 2⟩ := rfl
  cases sums.symm.trans total
  rw [made]
  exact {
    nonempty := by decide
    sorted := by decide
    time := by unfold IntReadable; decide +kernel
    timeClose := by unfold IntReadable; decide +kernel
    tradesCount := by unfold IntReadable; decide +kernel
    levels := by
      intro level member
      rw [List.mem_singleton.mp member]
      exact {
        priceLow := eq_ok_of_toOption (by decide +kernel)
        priceHigh := eq_ok_of_toOption (by decide +kernel)
        buyVolume := eq_ok_of_toOption (by decide +kernel)
        sellVolume := eq_ok_of_toOption (by decide +kernel)
        buyCount := by unfold IntReadable; decide +kernel
        sellCount := by unfold IntReadable; decide +kernel }
    fits := by decide +kernel }

end Reference

/-- Two calls over whole minutes return full bars. -/
theorem footprints_independent_wholeMinutes :
    EachFetch (historySource minuteHistory)
      (ReturnsFullBars (historySource minuteHistory) minuteHistory) FootprintStores.empty
      [minuteFootprint 0 60000 (by decide), minuteFootprint 0 120000 (by decide)] := by
  have faithful : FaithfulHistory (historySource minuteHistory) minuteHistory
      (minuteFootprint 0 60000 (by decide)) := {
    exact := fun _ _ => rfl
    ids := by decide
    dumped := dumped_of_texts (by decide +kernel) (by decide +kernel) (by decide +kernel)
    readable := fun _ full => minuteHistory_readable full }
  apply footprints_independent_of_history faithful
  · simp [minuteFootprint, FootprintQuery.SharesFile]
  · refine ⟨takesWholeBars_of_aligned (by decide +kernel) (by decide),
      takesWholeBars_of_aligned (by decide +kernel) (by decide), trivial⟩

/-- A call over half a minute leaves a bar of half its trades, and a call over the minute returns it. -/
theorem half_bar_returned :
    ∃ answer, (fetchFootprint (historySource minuteHistory)
        (fetchFootprint (historySource minuteHistory) FootprintStores.empty
          (minuteFootprint 0 30000 (by decide))).2 (minuteFootprint 0 60000 (by decide))).1 = .ok answer ∧
      ∃ bar ∈ answer.bars, ¬ FullBar minuteHistory (minuteFootprint 0 60000 (by decide)) bar := by
  have seen : ((fetchFootprint (historySource minuteHistory)
      (fetchFootprint (historySource minuteHistory) FootprintStores.empty
        (minuteFootprint 0 30000 (by decide))).2 (minuteFootprint 0 60000 (by decide))).1.toOption.map
      fun answer => answer.bars.map fun bar => (bar.time, bar.tradesCount)) = some [(0, 1)] := by
    decide +kernel
  obtain ⟨answer, returned, times⟩ := Option.map_eq_some_iff.mp seen
  refine ⟨answer, eq_ok_of_toOption returned, ?_⟩
  obtain ⟨bar, member, counted⟩ : ∃ bar ∈ answer.bars, (bar.time, bar.tradesCount) = ((0 : Int), (1 : Int)) :=
    List.mem_map.mp (times ▸ List.mem_singleton_self _)
  obtain ⟨opened, one⟩ := Prod.mk.inj counted
  refine ⟨bar, member, fun full => ?_⟩
  have all := full.tradesCount
  rw [one, opened] at all
  exact absurd all (by decide)

end MarketdataProvider
