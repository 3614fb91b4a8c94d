import MarketdataProvider.Core.Reference
import MarketdataProvider.Core.Timeframe
import MarketdataProvider.Foundation.Grid
import MarketdataProvider.Store.SegmentManifest

namespace MarketdataProvider

open Foundation

variable [PyText]

section Calendar

/-- The years that `datetime` can represent, as milliseconds of the epoch. -/
def datetimeRange (time : Int) : Bool := -62135596800000 ≤ time && time ≤ 253402300799999

/-- Year, month and day of a day number of the proleptic Gregorian calendar. -/
def civilOfDays (days : Int) : Int × Int × Int :=
  let shifted := days + 719468
  let era := shifted / 146097
  let dayOfEra := shifted - era * 146097
  let yearOfEra := (dayOfEra - dayOfEra / 1460 + dayOfEra / 36524 - dayOfEra / 146096) / 365
  let dayOfYear := dayOfEra - (365 * yearOfEra + yearOfEra / 4 - yearOfEra / 100)
  let monthFromMarch := (5 * dayOfYear + 2) / 153
  let month := if monthFromMarch < 10 then monthFromMarch + 3 else monthFromMarch - 9
  let year := yearOfEra + era * 400 + if month ≤ 2 then 1 else 0
  (year, month, dayOfYear - (153 * monthFromMarch + 2) / 5 + 1)

/-- `calendar.monthrange(year, month)[1]` -/
def monthLength (year month : Int) : Int :=
  if month = 2 then
    if year % 4 = 0 ∧ (year % 100 ≠ 0 ∨ year % 400 = 0) then 29 else 28
  else if month = 4 ∨ month = 6 ∨ month = 9 ∨ month = 11 then 30
  else 31

def dayMs : Int := 86400000

/-- Days, weeks and months close at the end of their calendar unit. -/
def closeTimeMs (openTime : Int) (tf : String) : Except PyError Int := do
  let canonical ← canonicalTimeframe tf
  let days := openTime / dayMs
  if datetimeRange openTime = false then .error (.valueError "year is out of range")
  else if canonical = "1D" then .ok (days * dayMs + dayMs - 1)
  else if canonical = "1W" then .ok ((days - (days + 3) % 7) * dayMs + 7 * dayMs - 1)
  else if canonical = "1M" then
    let civil := civilOfDays days
    .ok ((days - civil.2.2 + monthLength civil.1 civil.2.1) * dayMs + dayMs - 1)
  else return openTime + (← timeframeMs canonical) - 1

end Calendar

/-- `InstrumentKey` normalizes its parts, and none of them is empty. -/
structure InstrumentKey where
  exchange : String
  market : String
  symbol : String
  lowerExchange : PyText.lower exchange = exchange
  lowerMarket : PyText.lower market = market
  upperSymbol : PyText.upper symbol = symbol
  named : exchange ≠ "" ∧ market ≠ "" ∧ symbol ≠ ""
  deriving DecidableEq

def stripped (text : String) : String := String.ofList (strip text.toList)

def InstrumentKey.make (exchange market symbol : String) : Except PyError InstrumentKey :=
  let exchange := PyText.lower (stripped exchange)
  let market := PyText.lower (stripped market)
  let symbol := PyText.upper (stripped symbol)
  if noExchange : exchange = "" then .error (.valueError "exchange must not be empty")
  else if noMarket : market = "" then .error (.valueError "market must not be empty")
  else if noSymbol : symbol = "" then .error (.valueError "symbol must not be empty")
  else .ok {
    exchange, market, symbol
    lowerExchange := PyText.lower_lower _
    lowerMarket := PyText.lower_lower _
    upperSymbol := PyText.upper_upper _
    named := ⟨noExchange, noMarket, noSymbol⟩ }

def InstrumentKey.serialize (instrument : InstrumentKey) : String :=
  instrument.exchange ++ "/" ++ instrument.market ++ "/" ++ instrument.symbol

/-- The duration of a canonical timeframe; a month has none. -/
def timeframeDuration (canonical : String) : Except PyError (Option Int) :=
  if canonical = "1M" then .ok none else some <$> timeframeMs canonical

/-- A parsed timeframe; its multiplier and its unit are parts of the canonical text. -/
structure Timeframe where
  canonical : String
  durationMs : Option Int
  fixedPoint : canonicalTimeframe canonical = .ok canonical
  duration : timeframeDuration canonical = .ok durationMs
  deriving DecidableEq

/-- Minutes, hours and the calendar units are timeframes of the contract; seconds are not. -/
def contractUnit (canonical : String) : Bool :=
  canonical.toList.getLast? = some 'm' || canonical.toList.getLast? = some 'h' ||
    canonical = "1D" || canonical = "1W" || canonical = "1M"

def parseTimeframe (value : String) : Except PyError Timeframe :=
  let raw := stripped value
  if raw = "" then .error (.valueError "timeframe must not be empty")
  else
    match parsed : canonicalTimeframe raw with
    | .error (.mdTimeframeUnsupported message) => .error (.valueError message)
    | .error other => .error other
    | .ok canonical =>
        if contractUnit canonical then
          match known : timeframeDuration canonical with
          | .error error => .error error
          | .ok durationMs => .ok {
              canonical, durationMs
              fixedPoint := canonicalTimeframe_idempotent parsed
              duration := known }
        else .error (.valueError ("unsupported canonical timeframe: " ++ canonical))

/-- The white space around a timeframe does not count. -/
theorem canonicalTimeframe_stripped {value canonical : String}
    (accepted : canonicalTimeframe value = .ok canonical) :
    canonicalTimeframe (stripped value) = .ok canonical ∧ stripped value ≠ "" := by
  constructor
  · unfold canonicalTimeframe at accepted ⊢
    rw [stripped, String.toList_ofList, strip_strip]
    dsimp only at accepted ⊢
    split_ifs at accepted ⊢
    · exact accepted
    · exact accepted
    · exact accepted
    · exact accepted
    · split at accepted
      · cases accepted
      · exact accepted
  · intro empty
    have nothing : strip value.toList = [] := by
      rw [← String.toList_ofList (l := strip value.toList)]
      exact String.toList_eq_nil_iff.mpr empty
    have refused : canonicalTimeframe value = .error (unsupportedTimeframe value) := by
      unfold canonicalTimeframe
      rw [nothing]
      rfl
    rw [refused] at accepted
    cases accepted

/-- What is left to check once the text has a canonical form. -/
theorem parseTimeframe_eq {value canonical : String} (accepted : canonicalTimeframe value = .ok canonical) :
    parseTimeframe value =
      if contractUnit canonical then
        match known : timeframeDuration canonical with
        | .error error => .error error
        | .ok durationMs => .ok {
            canonical, durationMs
            fixedPoint := canonicalTimeframe_idempotent accepted
            duration := known }
      else .error (.valueError ("unsupported canonical timeframe: " ++ canonical)) := by
  obtain ⟨parsed, named⟩ := canonicalTimeframe_stripped accepted
  unfold parseTimeframe
  dsimp only
  rw [if_neg named]
  split
  · rename_i found
    cases parsed.symm.trans found
  · rename_i found
    cases parsed.symm.trans found
  · rename_i other found
    obtain rfl := Except.ok.inj (parsed.symm.trans found)
    rfl

/-- A timeframe is parsed from its canonical form alone. -/
theorem parseTimeframe_congr {first second canonical : String}
    (accepted : canonicalTimeframe first = .ok canonical)
    (same : canonicalTimeframe second = .ok canonical) : parseTimeframe first = parseTimeframe second := by
  rw [parseTimeframe_eq accepted, parseTimeframe_eq same]

theorem canonical_of_parseTimeframe {value canonical : String} {timeframe : Timeframe}
    (accepted : canonicalTimeframe value = .ok canonical)
    (parsed : parseTimeframe value = .ok timeframe) : timeframe.canonical = canonical := by
  rw [parseTimeframe_eq accepted] at parsed
  split_ifs at parsed
  split at parsed
  · cases parsed
  · cases parsed
    rfl

inductive GapPolicy where
  | fail
  | allowWithMetadata
  deriving DecidableEq, Repr

/-- A query for the bars that open in `[startMs, endMs)`. -/
structure BarQuery where
  instrument : InstrumentKey
  timeframe : Timeframe
  startMs : Int
  endMs : Int
  gapPolicy : GapPolicy
  ordered : startMs < endMs
  deriving DecidableEq

namespace BarQuery

/-- `replace(query, start_ms=start)` -/
def replaceStart (query : BarQuery) (start : Int) (ordered : start < query.endMs) : BarQuery :=
  { query with startMs := start, ordered }

/-- `replace(query, timeframe=timeframe)` -/
def replaceTimeframe (query : BarQuery) (timeframe : Timeframe) : BarQuery := { query with timeframe }

/-- The series that the query reads; its source kind is the default of the store. -/
def key (query : BarQuery) : SeriesKey :=
  ⟨query.instrument.exchange, query.instrument.market, query.instrument.symbol,
    query.timeframe.canonical, "trade_kline"⟩

end BarQuery

/-- `range(start, stop, step)` for a step that is not negative. -/
def pyRange (start stop step : Int) : Except PyError (List Int) :=
  if step = 0 then .error (.valueError "range() arg 3 must not be zero")
  else .ok (Grid.points start stop step)

end MarketdataProvider

namespace MarketdataProvider.Reference

open scoped Reference

def minute : Timeframe where
  canonical := "1m"
  durationMs := some 60000
  fixedPoint := Foundation.eq_ok_of_toOption (by decide +kernel)
  duration := Foundation.eq_ok_of_toOption (by decide +kernel)

theorem minute_positive : (0 : Int) < 60000 := by decide

theorem upper_btcusdt : PyText.upper "BTCUSDT" = "BTCUSDT" := by decide +kernel

def btcusdt : InstrumentKey where
  exchange := "binance"
  market := "spot"
  symbol := "BTCUSDT"
  lowerExchange := by decide +kernel
  lowerMarket := by decide +kernel
  upperSymbol := upper_btcusdt
  named := by decide +kernel

def minuteQuery (startMs endMs : Int) (ordered : startMs < endMs) : BarQuery :=
  ⟨btcusdt, minute, startMs, endMs, .fail, ordered⟩

end MarketdataProvider.Reference
