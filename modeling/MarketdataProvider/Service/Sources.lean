import MarketdataProvider.Contracts.Query
import MarketdataProvider.Core.ByTime

namespace MarketdataProvider

open Foundation

variable [PyText] {F : Type}

structure HistoryConfig where
  enabled : Bool
  archiveFirst : Bool
  baseTimeframe : String
  recentLagDays : Int

/-- The start of the day that lies the lag before today. -/
def archiveCutoffMs (config : HistoryConfig) (now : Int) : Int :=
  now / dayMs * dayMs - max config.recentLagDays 0 * dayMs

/-- The answers of the archive and of the REST interfaces, with the source identity bound. -/
structure Remote (F : Type) where
  archive : BarQuery → Int → Except PyError (List (MarketBar F))
  rest : BarQuery → Except PyError (List (MarketBar F))

/-- The range that `BinanceArchiveSource.fetch` asks for, if it asks at all. -/
def archiveRange (config : HistoryConfig) (now : Int) (query : BarQuery) : Option (Int × Int) :=
  if archiveCutoffMs config now ≤ query.startMs then none
  else some (query.startMs, min query.endMs (archiveCutoffMs config now))

/-- `BinanceArchiveSource.fetch` -/
def fetchArchive (config : HistoryConfig) (now : Int) (remote : Remote F) (query : BarQuery) :
    Except PyError (List (MarketBar F)) :=
  match archiveRange config now query with
  | none => .ok []
  | some range => remote.archive query range.2

/-- `_remaining_recent_query` -/
def remainingRecentQuery (config : HistoryConfig) (now : Int) (query : BarQuery)
    (archiveBars : List (MarketBar F)) : Option BarQuery :=
  let start := max query.startMs (archiveCutoffMs config now)
  if ordered : start < query.endMs then
    match query.timeframe.durationMs with
    | none => some (query.replaceStart start ordered)
    | some duration =>
        let start := match archiveBars.getLast? with
          | none => start
          | some last => if start < last.time + duration then last.time + duration else start
        if ordered : start < query.endMs then some (query.replaceStart start ordered) else none
  else none

def supportedPublicMarketExchanges : List String :=
  ["okx", "coinbase", "kraken", "kucoin", "bitget", "gateio", "htx", "mexc"]

/-- `_fetch_from_sources` -/
def fetchFromSources (config : HistoryConfig) (now : Int) (remote : Remote F) (query : BarQuery) :
    Except PyError (List (MarketBar F)) :=
  if query.instrument.exchange = "binance" then
    if config.archiveFirst then do
      let archive ← fetchArchive config now remote query
      match remainingRecentQuery config now query archive with
      | none => .ok archive
      | some recent => do
          let rest ← remote.rest recent
          .ok (mergeByTime [] (archive ++ rest))
    else remote.rest query
  else if query.instrument.exchange = "bybit" then remote.rest query
  else if query.instrument.exchange ∈ supportedPublicMarketExchanges then remote.rest query
  else .error (.mdUnsupportedFeature ("Unsupported provider exchange: " ++ query.instrument.exchange))

/-- What the archive can deliver: grid bars of the range that it is asked for, in order. -/
structure ArchiveOutcome (config : HistoryConfig) (now : Int) (query : BarQuery) (duration : Int)
    (archive : List (MarketBar F)) : Prop where
  sorted : archive.Pairwise (·.time < ·.time)
  grid : ∀ bar ∈ archive, bar.time ∈ Grid.points query.startMs query.endMs duration
  old : ∀ bar ∈ archive, bar.time < archiveCutoffMs config now

variable {config : HistoryConfig} {now : Int} {query : BarQuery} {duration : Int}
  {archive : List (MarketBar F)}

/-- The next grid point after a bar before the cutoff is not after a grid point from the cutoff on. -/
theorem next_le_of_grid {bar point : Int} (positive : 0 < duration)
    (barGrid : bar ∈ Grid.points query.startMs query.endMs duration)
    (pointGrid : point ∈ Grid.points query.startMs query.endMs duration) (before : bar < point) :
    bar + duration ≤ point := by
  obtain ⟨_, _, barAligned⟩ := (Grid.mem_points_iff positive).mp barGrid
  obtain ⟨_, _, pointAligned⟩ := (Grid.mem_points_iff positive).mp pointGrid
  obtain ⟨first, firstSteps⟩ := Int.dvd_of_emod_eq_zero barAligned
  obtain ⟨second, secondSteps⟩ := Int.dvd_of_emod_eq_zero pointAligned
  have later : duration * first < duration * second := by omega
  have ordered : first + 1 ≤ second := Int.lt_of_mul_lt_mul_left later positive.le
  have scaled := Int.mul_le_mul_of_nonneg_left ordered positive.le
  have expanded : duration * (first + 1) = duration * first + duration := by ring
  omega

/-- The remainder holds every grid point from the cutoff on, whatever the archive delivered. -/
theorem remainder_holds_recent (fixed : query.timeframe.durationMs = some duration)
    (positive : 0 < duration) (outcome : ArchiveOutcome config now query duration archive) {point : Int}
    (grid : point ∈ Grid.points query.startMs query.endMs duration)
    (recent : archiveCutoffMs config now ≤ point) :
    ∃ rest, remainingRecentQuery config now query archive = some rest ∧ rest.startMs ≤ point ∧
      rest.endMs = query.endMs := by
  obtain ⟨fromStart, beforeEnd, _⟩ := (Grid.mem_points_iff positive).mp grid
  have reached : max query.startMs (archiveCutoffMs config now) ≤ point := max_le fromStart recent
  have open_range : max query.startMs (archiveCutoffMs config now) < query.endMs :=
    lt_of_le_of_lt reached beforeEnd
  rw [remainingRecentQuery]
  simp only [dif_pos open_range, fixed]
  cases ends : archive.getLast? with
  | none => exact ⟨query.replaceStart _ open_range, dif_pos open_range, reached, rfl⟩
  | some last =>
      dsimp only
      have member := List.mem_of_getLast? ends
      have next : last.time + duration ≤ point := by
        apply next_le_of_grid positive (outcome.grid last member) grid
        exact lt_of_lt_of_le (outcome.old last member) recent
      split
      · have left := lt_of_le_of_lt next beforeEnd
        exact ⟨query.replaceStart _ left, dif_pos left, next, rfl⟩
      · exact ⟨query.replaceStart _ open_range, rfl, reached, rfl⟩

/-- The archive is asked for every point of the query before the cutoff. -/
theorem archive_asked_old {point : Int} (fromStart : query.startMs ≤ point)
    (beforeEnd : point < query.endMs) (old : point < archiveCutoffMs config now) :
    ∃ range, archiveRange config now query = some range ∧ range.1 ≤ point ∧ point < range.2 := by
  have early : ¬ archiveCutoffMs config now ≤ query.startMs := by omega
  exact ⟨_, if_neg early, fromStart, lt_min beforeEnd old⟩

/-- The sources are asked for the whole query: the archive up to the cutoff, REST from it on. -/
theorem sources_asked (config : HistoryConfig) (now : Int) (query : BarQuery) (duration : Int)
    (archive : List (MarketBar F)) (fixed : query.timeframe.durationMs = some duration)
    (positive : 0 < duration) (outcome : ArchiveOutcome config now query duration archive) :
    ∀ point ∈ Grid.points query.startMs query.endMs duration,
      (archiveCutoffMs config now ≤ point →
        ∃ rest, remainingRecentQuery config now query archive = some rest ∧ rest.startMs ≤ point ∧
          point < rest.endMs) ∧
      (point < archiveCutoffMs config now →
        ∃ range, archiveRange config now query = some range ∧ range.1 ≤ point ∧ point < range.2) := by
  intro point grid
  obtain ⟨fromStart, beforeEnd, _⟩ := (Grid.mem_points_iff positive).mp grid
  constructor
  · intro recent
    obtain ⟨rest, remains, starts, ends⟩ := remainder_holds_recent fixed positive outcome grid recent
    exact ⟨rest, remains, starts, ends ▸ beforeEnd⟩
  · intro old
    exact archive_asked_old fromStart beforeEnd old

end MarketdataProvider

namespace MarketdataProvider

open Reference
open scoped Reference

/-- One day before the cutoff and one day behind it: each is asked of its own source. -/
theorem sources_asked_twoDays :
    (∃ rest, remainingRecentQuery ⟨true, true, "1m", 0⟩ 86400000
        (minuteQuery 0 172800000 (by decide)) [candle 0] = some rest ∧
      rest.startMs ≤ 86400000 ∧ 86400000 < rest.endMs) ∧
    (∃ range, archiveRange ⟨true, true, "1m", 0⟩ 86400000 (minuteQuery 0 172800000 (by decide)) =
      some range ∧ range.1 ≤ 0 ∧ 0 < range.2) := by
  have outcome : ArchiveOutcome ⟨true, true, "1m", 0⟩ 86400000
      (minuteQuery 0 172800000 (by decide)) 60000 [candle 0] := {
    sorted := List.pairwise_singleton _ _
    grid := by
      intro bar member
      rw [List.mem_singleton.mp member]
      exact (Foundation.Grid.mem_points_iff (by decide)).mpr (by decide)
    old := by
      intro bar member
      rw [List.mem_singleton.mp member]
      decide }
  have asked := sources_asked ⟨true, true, "1m", 0⟩ 86400000 (minuteQuery 0 172800000 (by decide)) 60000
    [candle 0] rfl (by decide) outcome
  constructor
  · exact (asked 86400000 ((Foundation.Grid.mem_points_iff (by decide)).mpr (by decide))).1 (by decide)
  · exact (asked 0 ((Foundation.Grid.mem_points_iff (by decide)).mpr (by decide))).2 (by decide)

/-- A point before the cutoff that an empty archive did not deliver is outside the remainder. -/
theorem empty_archive_leaves_hole :
    ¬ ∀ (config : HistoryConfig) (now : Int) (query : BarQuery) (duration : Int)
        (archive : List (MarketBar Whole)), query.timeframe.durationMs = some duration →
      0 < duration → query.instrument.exchange = "binance" →
      ArchiveOutcome config now query duration archive →
      ∀ point ∈ Foundation.Grid.points query.startMs query.endMs duration,
        point ∈ archive.map (·.time) ∨
          ∃ rest, remainingRecentQuery config now query archive = some rest ∧ rest.startMs ≤ point ∧
            point < rest.endMs := by
  intro covered
  have outcome : ArchiveOutcome ⟨true, true, "1m", 0⟩ 86400000
      (minuteQuery 0 172800000 (by decide)) 60000 ([] : List (MarketBar Whole)) :=
    ⟨by simp, by simp, by simp⟩
  have grid : (0 : Int) ∈ Foundation.Grid.points 0 172800000 60000 :=
    (Foundation.Grid.mem_points_iff (by decide)).mpr (by decide)
  rcases covered _ _ _ _ _ rfl (by decide) rfl outcome 0 grid with delivered | ⟨rest, remains, starts, _⟩
  · simp at delivered
  · have start : rest.startMs = 86400000 := by
      have same := congrArg (Option.map BarQuery.startMs) remains
      exact (Option.some.inj same).symm
    omega

end MarketdataProvider
