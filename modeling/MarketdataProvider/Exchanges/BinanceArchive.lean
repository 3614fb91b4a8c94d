import MarketdataProvider.Core.Decimal
import MarketdataProvider.Core.Intervals
import MarketdataProvider.Foundation.Keyed

namespace MarketdataProvider

open Foundation

/-- Some archive files have microseconds; both kinds become milliseconds. -/
def epochToMs (value : Int) : Int := if 100000000000000 ≤ value then value / 1000 else value

section Archive

variable [PyText] {F : Type} [PyFloat F]

omit [PyText] in
/-- `float(row[index])` -/
def floatAt (row : List String) (index : Nat) : Except PyError F :=
  match row[index]? with
  | some text => PyFloat.parse text
  | none => .error .indexError

/-- The bar of a row; a row without an open time, or with one outside of the range, has none. -/
def archiveRowBar (symbol market timeframe : String) (duration start stop : Int) (row : List String) :
    Except PyError (Option (MarketBar F)) :=
  match pyInt (row.headD "").toList with
  | none => .ok none
  | some epoch =>
      if duration = 0 then .error .zeroDivisionError
      else
        let openTime := epochToMs epoch / duration * duration
        if start ≤ openTime ∧ openTime < stop then do
          let openPrice ← floatAt row 1
          let high ← floatAt row 2
          let low ← floatAt row 3
          let close ← floatAt row 4
          let volume ← floatAt row 5
          return some {
            time := openTime
            openPrice, high, low, close, volume
            timeClose := some (openTime + duration - 1)
            exchange := "binance"
            market := PyText.lower market
            symbol := PyText.upper symbol
            timeframe
            sourceTransport := "archive"
            sourceKind := "trade_kline"
            source := ""
            isClosed := true
            provider := "binance"
            providerRevision := none
            revisionState := .original
            revision := 0
            openText := row[1]?
            highText := row[2]?
            lowText := row[3]?
            closeText := row[4]?
            volumeText := row[5]?
            quoteVolume := none
            turnover := none
            tradesCount := none
            takerBuyBaseVolume := none
            takerBuyQuoteVolume := none
            downloadedAt := none
            metadata := []
            lineage := RevisionState.original_admits }
        else return none

variable (D : Type) [PyDecimal D] [DecimalFloat D F]

omit [PyText] in
/-- `_merge_same_open_time` of two bars -/
def mergeSameOpenTime (current new : MarketBar F) : Except PyError (MarketBar F) := do
  let currentVolume ← parseDecimal D (textOr current.volumeText current.volume)
  let newVolume ← parseDecimal D (textOr new.volumeText new.volume)
  let currentHigh ← keyed D (fun bar => textOr bar.highText bar.high) current
  let newHigh ← keyed D (fun bar => textOr bar.highText bar.high) new
  let currentLow ← keyed D (fun bar => textOr bar.lowText bar.low) current
  let newLow ← keyed D (fun bar => textOr bar.lowText bar.low) new
  let volume := PyDecimal.add currentVolume newVolume
  return {
    time := current.time
    openPrice := current.openPrice
    high := PyFloat.max current.high new.high
    low := PyFloat.min current.low new.low
    close := new.close
    volume := DecimalFloat.toFloat volume
    timeClose := current.timeClose
    exchange := current.exchange
    market := current.market
    symbol := current.symbol
    timeframe := current.timeframe
    sourceTransport := "archive"
    sourceKind := "trade_kline"
    source := ""
    isClosed := true
    provider := "binance"
    providerRevision := none
    revisionState := .original
    revision := 0
    openText := current.openText
    highText := (firstGreatest PyDecimal.lt currentHigh [newHigh]).1.highText
    lowText := (firstLeast PyDecimal.lt currentLow [newLow]).1.lowText
    closeText := new.closeText
    volumeText := some (PyDecimal.format volume)
    quoteVolume := none
    turnover := none
    tradesCount := none
    takerBuyBaseVolume := none
    takerBuyQuoteVolume := none
    downloadedAt := none
    metadata := []
    lineage := RevisionState.original_admits }

def addArchiveRow (symbol market timeframe : String) (duration start stop : Int)
    (byTime : List (MarketBar F)) (row : List String) : Except PyError (List (MarketBar F)) :=
  if row = [] then .ok byTime
  else do
    match ← archiveRowBar symbol market timeframe duration start stop row with
    | none => return byTime
    | some bar =>
        match Keyed.find (fun known : MarketBar F => known.time) byTime bar.time with
        | none => return Keyed.upsert (fun known : MarketBar F => known.time) byTime bar
        | some current =>
            return Keyed.upsert (fun known : MarketBar F => known.time) byTime
              (← mergeSameOpenTime D current bar)

/-- `_load_archive_file` with the records of its CSV file, which may be missing or unreadable; an error in
a row gives up the whole file. -/
def loadArchiveFile (records : Option (List (List String))) (symbol market timeframe : String)
    (start stop : Int) : Except PyError (List (MarketBar F)) := do
  let _ ← toBinanceInterval timeframe
  match records with
  | none => return []
  | some rows =>
      let duration ← timeframeMs timeframe
      match rows.foldlM (addArchiveRow D symbol market timeframe duration start stop) [] with
      | .error _ => return []
      | .ok byTime => return sortByTime byTime

end Archive

section Bare

variable {F : Type}

/-- A bar that says nothing of quote volumes, trades and takers. -/
structure MarketBar.Bare (bar : MarketBar F) : Prop where
  quoteVolume : bar.quoteVolume = none
  turnover : bar.turnover = none
  tradesCount : bar.tradesCount = none
  takerBuyBaseVolume : bar.takerBuyBaseVolume = none
  takerBuyQuoteVolume : bar.takerBuyQuoteVolume = none

variable [PyText] [PyFloat F] (D : Type) [PyDecimal D] [DecimalFloat D F]

theorem archiveRowBar_bare {symbol market timeframe : String} {duration start stop : Int}
    {row : List String} {bar : MarketBar F}
    (made : archiveRowBar symbol market timeframe duration start stop row = .ok (some bar)) : bar.Bare := by
  rw [archiveRowBar] at made
  split at made
  · cases made
  · split at made
    · cases made
    · dsimp only at made
      split at made
      · simp only [bind_eq_ok, pure_eq_ok] at made
        obtain ⟨_, -, _, -, _, -, _, -, _, -, same⟩ := made
        cases same
        exact ⟨rfl, rfl, rfl, rfl, rfl⟩
      · cases made

omit [PyText] in
theorem mergeSameOpenTime_bare {current new merged : MarketBar F}
    (made : mergeSameOpenTime D current new = .ok merged) : merged.Bare := by
  simp only [mergeSameOpenTime, bind_eq_ok, pure_eq_ok] at made
  obtain ⟨_, -, _, -, _, -, _, -, _, -, _, -, rfl⟩ := made
  exact ⟨rfl, rfl, rfl, rfl, rfl⟩

theorem addArchiveRow_bare {symbol market timeframe : String} {duration start stop : Int}
    {byTime after : List (MarketBar F)} {row : List String} (bare : ∀ bar ∈ byTime, bar.Bare)
    (added : addArchiveRow D symbol market timeframe duration start stop byTime row = .ok after) :
    ∀ bar ∈ after, bar.Bare := by
  have upserted {bar : MarketBar F} (new : bar.Bare) :
      ∀ other ∈ Keyed.upsert (fun known : MarketBar F => known.time) byTime bar, other.Bare := by
    intro other member
    rcases Keyed.mem_upsert member with rfl | old
    · exact new
    · exact bare other old
  rw [addArchiveRow] at added
  split at added
  · cases added
    exact bare
  · rw [bind_eq_ok] at added
    obtain ⟨read, made, added⟩ := added
    split at added
    · cases added
      exact bare
    · have row := archiveRowBar_bare made
      split at added
      · cases added
        exact upserted row
      · rw [bind_eq_ok] at added
        obtain ⟨merged, joined, added⟩ := added
        cases added
        exact upserted (mergeSameOpenTime_bare D joined)

/-- The archive loads bars that say nothing of quote volumes, trades and takers. -/
theorem loadArchiveFile_bare {records : Option (List (List String))} {symbol market timeframe : String}
    {start stop : Int} {bars : List (MarketBar F)}
    (loaded : loadArchiveFile D records symbol market timeframe start stop = .ok bars) :
    ∀ bar ∈ bars, bar.Bare := by
  simp only [loadArchiveFile, bind_eq_ok] at loaded
  obtain ⟨interval, -, loaded⟩ := loaded
  have none : ∀ bar ∈ ([] : List (MarketBar F)), bar.Bare := by
    intro bar member
    cases member
  split at loaded
  · cases loaded
    exact none
  · rename_i rows
    obtain ⟨duration, -, loaded⟩ := bind_eq_ok.mp loaded
    split at loaded
    · cases loaded
      exact none
    · rename_i byTime folded
      cases loaded
      intro bar member
      have all : ∀ bar ∈ byTime, bar.Bare :=
        foldlM_keeps (fun _ _ _ _ bare added => addArchiveRow_bare D bare added) none folded
      exact all bar (mem_sortByTime.mp member)

end Bare

end MarketdataProvider
