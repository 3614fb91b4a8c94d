import MarketdataProvider.Footprint.Service
import MarketdataProvider.Foundation.Raises
import MarketdataProvider.Service.Composition
import MarketdataProvider.Service.MarketDataService

namespace MarketdataProvider

open Foundation

/-- A division by zero, or a range with step zero. -/
def PyError.DividesByZero : PyError → Prop
  | .zeroDivisionError => True
  | .valueError message => message = "range() arg 3 must not be zero"
  | _ => False

/-- The error comes from no division by zero. -/
def PyError.NotByZero (error : PyError) : Prop := ¬ error.DividesByZero

section Timeframes

variable [PyText]

/-- `_requested_limit` -/
def requestedLimit (timeframe : String) (start stop : Option Int) (maxLimit : Int) : Except PyError Int :=
  match start, stop with
  | some start, some stop =>
      if stop ≤ start then .ok maxLimit
      else do
        let close ← closeTimeMs 0 timeframe
        let duration := close + 1
        if duration = 0 then .error .zeroDivisionError
        else return min maxLimit (max 1 ((stop - start + duration - 1) / duration))
  | _, _ => .ok maxLimit

theorem canonicalTimeframe_notByZero (text : String) : Raises PyError.NotByZero (canonicalTimeframe text) := by
  unfold canonicalTimeframe
  dsimp only
  split_ifs
  · exact .ok _
  · exact .ok _
  · exact .ok _
  · split
    · exact .error (by simp [PyError.NotByZero, PyError.DividesByZero])
    · exact .ok _
  · split
    · exact .error (by simp [PyError.NotByZero, PyError.DividesByZero, unsupportedTimeframe])
    · split_ifs
      · exact .ok _
      · exact .error (by simp [PyError.NotByZero, PyError.DividesByZero])
      · exact .ok _

theorem timeframeMs_notByZero (text : String) : Raises PyError.NotByZero (timeframeMs text) := by
  unfold timeframeMs
  refine (canonicalTimeframe_notByZero text).bind ?_
  intro canonical _
  dsimp only
  split_ifs
  · exact .ok _
  · exact .ok _
  · exact .error (by simp [PyError.NotByZero, PyError.DividesByZero])
  · split
    · exact .ok _
    · exact .error (by simp [PyError.NotByZero, PyError.DividesByZero])

theorem closeTimeMs_notByZero (openTime : Int) (text : String) : Raises PyError.NotByZero (closeTimeMs openTime text) := by
  unfold closeTimeMs
  refine (canonicalTimeframe_notByZero text).bind ?_
  intro canonical _
  dsimp only
  split_ifs
  · exact .error (by simp [PyError.NotByZero, PyError.DividesByZero])
  · exact .ok _
  · exact .ok _
  · exact .ok _
  · exact (timeframeMs_notByZero canonical).bind fun _ _ => .ok _

omit [PyText] in
theorem pyRange_notByZero {start stop step : Int} (nonzero : step ≠ 0) :
    Raises PyError.NotByZero (pyRange start stop step) := by
  rw [pyRange, if_neg nonzero]
  exact .ok _

end Timeframes

section Consumers

variable [PyText] (F D : Type) [PyFloat F] [PriceLevels F] [PyDecimal D] [AggregateHash] [PySum F]

/-- No consumer of a timeframe divides by zero or steps by it, and the aggregation refuses a timeframe
that has no duration. -/
structure ConsumersNotByZero (timeframe : Timeframe) : Prop where
  report : ∀ (query : BarQuery) (made : List (ContractBar F)) (source : String),
    query.timeframe = timeframe → Raises PyError.NotByZero (coverageReport query made source)
  complete : ∀ (query : BarQuery) (bars : List (MarketBar F)),
    query.timeframe = timeframe → Raises PyError.NotByZero (coverageComplete bars query)
  aggregate : ∀ (query : BarQuery) (bars : List (MarketBar F)),
    query.timeframe = timeframe → Raises PyError.NotByZero (aggregateMarketBars D bars query)
  refused : ∀ (query : BarQuery) (bars : List (MarketBar F)),
    query.timeframe = timeframe → timeframe.durationMs = none → aggregateMarketBars D bars query =
      .error (.mdUnsupportedFeature ("Aggregation unsupported for timeframe: " ++ timeframe.canonical))
  limit : ∀ (start stop : Option Int) (maxLimit : Int),
    Raises PyError.NotByZero (requestedLimit timeframe.canonical start stop maxLimit)
  footprint : ∀ (query : FootprintQuery F) (trades : List (AggTrade F)),
    query.timeframe = timeframe → Raises PyError.NotByZero (aggregateTradesToFootprint trades query)
  stored : ∀ (query : FootprintQuery F) (bars : List (FootprintBar F)),
    query.timeframe = timeframe → Raises PyError.NotByZero (footprintCoverage query bars)

omit F D [PyFloat F] [PriceLevels F] [PyDecimal D] [AggregateHash] [PySum F] in
/-- Neither of two timeframes makes the other one divide by zero as its base. -/
structure DerivesNotByZero (first second : Timeframe) : Prop where
  onSecond : ∀ query : BarQuery, query.timeframe = first → Raises PyError.NotByZero (canDeriveFromBase query second)
  onFirst : ∀ query : BarQuery, query.timeframe = second → Raises PyError.NotByZero (canDeriveFromBase query first)

end Consumers

section Coverage

variable [PyText] {F : Type} [PyFloat F] {timeframe : Timeframe} {query : BarQuery}

theorem coverageReport_notByZero (made : List (ContractBar F)) (source : String)
    (nonzero : query.timeframe.durationMs ≠ some 0) : Raises PyError.NotByZero (coverageReport query made source) := by
  unfold coverageReport
  dsimp only
  split
  · refine Raises.bind ?_ fun _ _ => .ok _
    unfold missingIntervalsFor
    split
    · exact .ok _
    · rename_i duration known
      have step : duration ≠ 0 := by
        rintro rfl
        exact nonzero known
      exact (pyRange_notByZero step).bind fun _ _ => .ok _
  · exact .ok _

omit [PyFloat F] in
theorem coverageComplete_notByZero (bars : List (MarketBar F)) (nonzero : query.timeframe.durationMs ≠ some 0) :
    Raises PyError.NotByZero (coverageComplete bars query) := by
  unfold coverageComplete
  split
  · exact .ok _
  · rename_i duration known
    have step : duration ≠ 0 := by
      rintro rfl
      exact nonzero known
    exact (pyRange_notByZero step).bind fun _ _ => .ok _

theorem canDeriveFromBase_notByZero {base : Timeframe} (nonzero : base.durationMs ≠ some 0) :
    Raises PyError.NotByZero (canDeriveFromBase query base) := by
  unfold canDeriveFromBase
  split
  · rename_i duration baseDuration known baseKnown
    have step : baseDuration ≠ 0 := by
      rintro rfl
      exact nonzero baseKnown
    rw [if_neg step]
    split_ifs
    · exact .ok _
    · exact .ok _
  · exact .ok _

/-- The first period of the epoch has a length. -/
theorem closeTimeMs_zero_ne {close : Int} (nonzero : timeframe.durationMs ≠ some 0)
    (closes : closeTimeMs 0 timeframe.canonical = .ok close) : close + 1 ≠ 0 := by
  have length := timeframe.duration
  rw [timeframeDuration] at length
  rw [closeTimeMs, timeframe.fixedPoint, ok_bind] at closes
  dsimp only at closes
  rw [if_neg (by decide)] at closes
  split_ifs at closes with day week month
  · obtain rfl := Except.ok.inj closes
    decide
  · obtain rfl := Except.ok.inj closes
    decide
  · obtain rfl := Except.ok.inj closes
    decide
  · rw [if_neg month] at length
    obtain ⟨duration, found, same⟩ := map_eq_ok.mp length
    obtain ⟨other, again, made⟩ := bind_eq_ok.mp closes
    obtain rfl := Except.ok.inj (found.symm.trans again)
    have value := Except.ok.inj made
    intro zero
    apply nonzero
    rw [← same]
    congr 1
    omega

theorem requestedLimit_notByZero (start stop : Option Int) (maxLimit : Int)
    (nonzero : timeframe.durationMs ≠ some 0) :
    Raises PyError.NotByZero (requestedLimit timeframe.canonical start stop maxLimit) := by
  unfold requestedLimit
  split
  · split_ifs
    · exact .ok _
    · refine (closeTimeMs_notByZero 0 _).bind ?_
      intro close closes
      dsimp only
      rw [if_neg (closeTimeMs_zero_ne nonzero closes)]
      exact .ok _
  · exact .ok _

theorem footprintCoverage_notByZero {query : FootprintQuery F} (bars : List (FootprintBar F))
    (nonzero : query.duration ≠ 0) : Raises PyError.NotByZero (footprintCoverage query bars) :=
  (pyRange_notByZero nonzero).bind fun _ _ => .ok _

end Coverage

section Buckets

variable [PyText] {F D : Type} [PyFloat F] [PyDecimal D] [AggregateHash] [PySum F] {query : BarQuery}

omit [PyText] [AggregateHash] in
theorem parseDecimal_notByZero (text : String) : Raises PyError.NotByZero (parseDecimal D text) := by
  unfold parseDecimal
  split
  · exact .ok _
  · exact .error (by simp [PyError.NotByZero, PyError.DividesByZero])

omit [PyText] [PyFloat F] [AggregateHash] [PySum F] in
theorem keyed_notByZero (text : MarketBar F → String) (bar : MarketBar F) :
    Raises PyError.NotByZero (keyed D text bar) :=
  (parseDecimal_notByZero _).bind fun _ _ => .ok _

theorem aggregateBucket_notByZero (bucketTime : Int) (first : MarketBar F) (rest : List (MarketBar F)) :
    Raises PyError.NotByZero (aggregateBucket D bucketTime first rest query) := by
  unfold aggregateBucket
  refine Raises.bind ?_ fun _ _ => ?_
  · unfold onlyProvider
    split
    · exact .ok _
    · exact .error (by simp [PyError.NotByZero, PyError.DividesByZero])
  refine (Raises.mapM fun bar _ => keyed_notByZero _ bar).bind fun _ _ => ?_
  refine (keyed_notByZero _ first).bind fun _ _ => ?_
  refine (Raises.mapM fun bar _ => keyed_notByZero _ bar).bind fun _ _ => ?_
  refine (keyed_notByZero _ first).bind fun _ _ => ?_
  refine (Raises.mapM fun bar _ => parseDecimal_notByZero _).bind fun _ _ => ?_
  exact (closeTimeMs_notByZero _ _).bind fun _ _ => .ok _

theorem aggregateMarketBars_notByZero (bars : List (MarketBar F)) (nonzero : query.timeframe.durationMs ≠ some 0) :
    Raises PyError.NotByZero (aggregateMarketBars D bars query) := by
  unfold aggregateMarketBars
  split
  · exact .error (by simp [PyError.NotByZero, PyError.DividesByZero])
  · rename_i duration known
    rw [if_neg]
    · exact Raises.mapM fun bucket _ => aggregateBucket_notByZero bucket.time bucket.first bucket.rest
    · rintro ⟨rfl, -⟩
      exact nonzero known

end Buckets

/-- A positive bucket size is no divisor of zero. -/
theorem aggregateTradesToFootprint_notByZero [PyText] {F : Type} [PyFloat F] [PriceLevels F] {query : FootprintQuery F}
    (levels : ∀ price size : F, PyFloat.eq size PyFloat.zero = false →
      Raises PyError.NotByZero (PriceLevels.priceLow price size))
    (trades : List (AggTrade F)) (nonzero : query.duration ≠ 0) :
    Raises PyError.NotByZero (aggregateTradesToFootprint trades query) := by
  unfold aggregateTradesToFootprint
  refine Raises.bind ?_ fun _ _ => .ok _
  refine Raises.foldlM ?_ []
  intro buckets trade _
  unfold addTrade Accumulate.step
  refine Raises.bind ?_ fun barTime _ => ?_
  · unfold FootprintQuery.barTime
    split_ifs
    · exact .ok _
    · exact .ok _
  · cases barTime with
    | none => exact .ok _
    | some barTime =>
        refine Raises.bind ?_ fun _ _ => .ok _
        unfold BucketTotals.add
        exact (levels _ _ query.positive.2).bind fun _ _ => .ok _

section Zero

variable [PyText] {timeframe : Timeframe} {value : String}

/-- The digits of a timeframe denote zero. -/
def DenotesZero (value : String) : Prop :=
  canonicalTimeframe value = .ok "0m" ∨ canonicalTimeframe value = .ok "0h"

/-- A fixed duration is a multiple of its unit. -/
theorem timeframeMs_units (count : Nat) {unit : Char} {length : Int} (canonical : CanonicalUnit unit)
    (known : fixedUnit unit = some length) :
    timeframeMs (String.ofList (Nat.toDigits 10 count ++ [unit])) = .ok (count * length) := by
  rw [timeframeMs, canonicalTimeframe_fixed count canonical, ok_bind, String.toList_ofList]
  have ended (letter : Char) (different : unit ≠ letter) :
      Nat.toDigits 10 count ++ [unit] ≠ ['1', letter] := by
    intro equal
    have same : Nat.toDigits 10 count ++ [unit] = ['1'] ++ [letter] := equal
    exact different (List.singleton_inj.mp (List.append_inj' same rfl).2)
  have plain : unit ≠ 'D' ∧ unit ≠ 'W' ∧ unit ≠ 'M' := by
    rcases canonical with rfl | rfl | rfl | rfl <;> decide
  dsimp only
  rw [if_neg (ended 'D' plain.1), if_neg (ended 'W' plain.2.1), if_neg (ended 'M' plain.2.2),
    List.getLast?_concat, List.dropLast_concat, Option.bind_some, known, intOfDigits_toDigits]

/-- White space around a text does not change its canonical form. -/
theorem accepted_of_stripped {canonical : String} (accepted : canonicalTimeframe (stripped value) = .ok canonical) :
    canonicalTimeframe value = .ok canonical := by
  unfold canonicalTimeframe at accepted ⊢
  rw [stripped, String.toList_ofList, strip_strip] at accepted
  dsimp only at accepted ⊢
  split_ifs at accepted ⊢
  · exact accepted
  · exact accepted
  · exact accepted
  · exact accepted
  · split at accepted
    · cases accepted
    · exact accepted

theorem accepted_of_parseTimeframe (accepted : parseTimeframe value = .ok timeframe) :
    canonicalTimeframe value = .ok timeframe.canonical ∧ contractUnit timeframe.canonical = true := by
  unfold parseTimeframe at accepted
  dsimp only at accepted
  split_ifs at accepted
  split at accepted
  · cases accepted
  · cases accepted
  · rename_i parsed
    split_ifs at accepted with unit
    split at accepted
    · cases accepted
    · cases accepted
      exact ⟨accepted_of_stripped parsed, unit⟩

/-- The duration of a canonical text with a fixed unit. -/
theorem timeframeDuration_fixed (count : Nat) {unit : Char} {length : Int} (canonical : CanonicalUnit unit)
    (known : fixedUnit unit = some length) :
    timeframeDuration (String.ofList (Nat.toDigits 10 count ++ [unit])) = .ok (some (count * length)) := by
  have notMonth : String.ofList (Nat.toDigits 10 count ++ [unit]) ≠ "1M" := by
    intro equal
    have texts : Nat.toDigits 10 count ++ [unit] = ['1'] ++ ['M'] := by
      rw [← String.toList_ofList (l := Nat.toDigits 10 count ++ [unit]), equal]
      rfl
    obtain rfl := List.singleton_inj.mp (List.append_inj' texts rfl).2
    rcases canonical with other | other | other | other <;> cases other
  rw [timeframeDuration, if_neg notMonth, timeframeMs_units count canonical known]
  rfl

omit [PyText] in
theorem contractUnit_fixed (count : Nat) {unit : Char} (canonical : CanonicalUnit unit)
    (accepted : contractUnit (String.ofList (Nat.toDigits 10 count ++ [unit])) = true) :
    unit = 'm' ∨ unit = 'h' := by
  have ended (letter : Char) (equal : String.ofList (Nat.toDigits 10 count ++ [unit]) =
      String.ofList ['1', letter]) : unit = letter := by
    have texts : Nat.toDigits 10 count ++ [unit] = ['1'] ++ [letter] := String.ofList_injective equal
    exact List.singleton_inj.mp (List.append_inj' texts rfl).2
  simp only [contractUnit, String.toList_ofList, List.getLast?_concat, Option.some_inj, Bool.or_eq_true,
    decide_eq_true_eq] at accepted
  rcases accepted with (((minute | hour) | day) | week) | month
  · exact .inl minute
  · exact .inr hour
  · obtain rfl := ended 'D' day
    rcases canonical with other | other | other | other <;> cases other
  · obtain rfl := ended 'W' week
    rcases canonical with other | other | other | other <;> cases other
  · obtain rfl := ended 'M' month
    rcases canonical with other | other | other | other <;> cases other

/-- An accepted timeframe has no length exactly when its digits denote zero. -/
theorem durationMs_zero_iff (accepted : parseTimeframe value = .ok timeframe) :
    timeframe.durationMs = some 0 ↔ DenotesZero value := by
  obtain ⟨parsed, unit⟩ := accepted_of_parseTimeframe accepted
  have length := timeframe.duration
  have form := canonicalForm_of_accepted parsed
  rw [DenotesZero, parsed, Except.ok.injEq, Except.ok.injEq]
  generalize timeframe.canonical = canonical at length unit form
  constructor
  · intro zero
    rw [zero] at length
    cases form with
    | day =>
        rw [timeframeDuration, timeframeMs, CanonicalForm.day.accepted] at length
        cases length
    | week =>
        rw [timeframeDuration, timeframeMs, CanonicalForm.week.accepted] at length
        cases length
    | month => cases length
    | fixed count letter =>
        rcases contractUnit_fixed count letter unit with rfl | rfl
        · rw [timeframeDuration_fixed count letter rfl] at length
          have none : count = 0 := by
            have product := Option.some.inj (Except.ok.inj length)
            omega
          subst none
          exact .inl rfl
        · rw [timeframeDuration_fixed count letter rfl] at length
          have none : count = 0 := by
            have product := Option.some.inj (Except.ok.inj length)
            omega
          subst none
          exact .inr rfl
  · rintro (rfl | rfl)
    · exact Except.ok.inj (length.symm.trans (timeframeDuration_fixed 0 (.inr (.inl rfl)) rfl))
    · exact Except.ok.inj (length.symm.trans (timeframeDuration_fixed 0 (.inr (.inr (.inl rfl))) rfl))

/-- An instrument of one letter each. -/
def InstrumentKey.letters : InstrumentKey where
  exchange := "a"
  market := "a"
  symbol := "A"
  lowerExchange := PyText.lower_ascii "a" rfl
  lowerMarket := PyText.lower_ascii "a" rfl
  upperSymbol := PyText.upper_ascii "A" rfl
  named := by decide

/-- The check of a query for a timeframe without a length steps by zero. -/
theorem coverageComplete_zero (F : Type) (zero : timeframe.durationMs = some 0) :
    coverageComplete (F := F) [] ⟨.letters, timeframe, 0, 1, .fail, by decide⟩ =
      .error (.valueError "range() arg 3 must not be zero") := by
  unfold coverageComplete
  dsimp only
  rw [zero]
  rfl

end Zero

/-- A timeframe without a duration is refused by name. -/
theorem aggregateMarketBars_unsupported [PyText] {F D : Type} [PyFloat F] [PyDecimal D] [AggregateHash] [PySum F]
    {query : BarQuery} (bars : List (MarketBar F)) (calendar : query.timeframe.durationMs = none) :
    aggregateMarketBars D bars query = .error (.mdUnsupportedFeature
      ("Aggregation unsupported for timeframe: " ++ query.timeframe.canonical)) := by
  rw [aggregateMarketBars, calendar]

/-- No consumer divides by zero or steps by zero exactly when no digits denote zero. -/
theorem timeframes_never_divide_by_zero_iff [PyText] (F D : Type) [PyFloat F] [PriceLevels F] [PyDecimal D]
    [AggregateHash] [PySum F] {value other : String} {first second : Timeframe}
    (levels : ∀ price size : F, PyFloat.eq size PyFloat.zero = false →
      Raises PyError.NotByZero (PriceLevels.priceLow price size))
    (accepted : parseTimeframe value = .ok first) (otherAccepted : parseTimeframe other = .ok second) :
    ConsumersNotByZero F D first ∧ ConsumersNotByZero F D second ∧ DerivesNotByZero first second ↔
      ¬ DenotesZero value ∧ ¬ DenotesZero other := by
  have safe {timeframe : Timeframe} (nonzero : timeframe.durationMs ≠ some 0) :
      ConsumersNotByZero F D timeframe := by
    have footprint (query : FootprintQuery F) (same : query.timeframe = timeframe) : query.duration ≠ 0 := by
      intro zero
      apply nonzero
      rw [← same, query.fixed, zero]
    exact {
      report := fun query made source same => coverageReport_notByZero made source (same ▸ nonzero)
      complete := fun query bars same => coverageComplete_notByZero bars (same ▸ nonzero)
      aggregate := fun query bars same => aggregateMarketBars_notByZero bars (same ▸ nonzero)
      refused := by
        rintro query bars rfl calendar
        exact aggregateMarketBars_unsupported bars calendar
      limit := fun start stop maxLimit => requestedLimit_notByZero start stop maxLimit nonzero
      footprint := fun query trades same => aggregateTradesToFootprint_notByZero levels trades (footprint query same)
      stored := fun query bars same => footprintCoverage_notByZero bars (footprint query same) }
  have divides {timeframe : Timeframe} (consumers : ConsumersNotByZero F D timeframe) :
      timeframe.durationMs ≠ some 0 := by
    intro zero
    exact consumers.complete _ [] rfl _ (coverageComplete_zero F zero) rfl
  rw [← durationMs_zero_iff accepted, ← durationMs_zero_iff otherAccepted]
  constructor
  · rintro ⟨firstSafe, secondSafe, -⟩
    exact ⟨divides firstSafe, divides secondSafe⟩
  · rintro ⟨firstNonzero, secondNonzero⟩
    exact ⟨safe firstNonzero, safe secondNonzero,
      fun _ _ => canDeriveFromBase_notByZero secondNonzero, fun _ _ => canDeriveFromBase_notByZero firstNonzero⟩

end MarketdataProvider

namespace MarketdataProvider

open Reference Foundation
open scoped Reference

namespace Reference

def noMinutes : Timeframe where
  canonical := "0m"
  durationMs := some 0
  fixedPoint := eq_ok_of_toOption (by decide +kernel)
  duration := eq_ok_of_toOption (by decide +kernel)

def noMinutesQuery : BarQuery := ⟨btcusdt, noMinutes, 0, 60000, .fail, minute_positive⟩

def noMinutesFootprint : FootprintQuery Whole :=
  { minuteFootprint 0 60000 minute_positive with timeframe := noMinutes, duration := 0, fixed := rfl }

end Reference

/-- Zero minutes are accepted, and each consumer divides or steps by them. -/
theorem no_minutes_divide : parseTimeframe "0m" = .ok noMinutes ∧
    (toContractBar btcusdt noMinutes 59999 (candle 0) >>= fun bar =>
        coverageReport noMinutesQuery [bar] "storage") =
      .error (.valueError "range() arg 3 must not be zero") ∧
    coverageComplete ([] : List (MarketBar Whole)) noMinutesQuery =
      .error (.valueError "range() arg 3 must not be zero") ∧
    canDeriveFromBase (minuteQuery 0 60000 (by decide)) noMinutes = .error .zeroDivisionError ∧
    (aggregateMarketBars Whole [candle 0] noMinutesQuery).toBool = false ∧
    requestedLimit "0m" (some 0) (some 60000) 1000 = .error .zeroDivisionError ∧
    aggregateTradesToFootprint [tradeAt (7, 10000)] noMinutesFootprint = .error .zeroDivisionError ∧
    footprintCoverage noMinutesFootprint [] = .error (.valueError "range() arg 3 must not be zero") ∧
    ¬ ConsumersNotByZero Whole Whole noMinutes := by
  refine ⟨eq_ok_of_toOption (by decide +kernel), rfl, rfl, rfl, ?_, ?_, rfl, rfl, ?_⟩
  · decide +kernel
  · decide +kernel
  · intro safe
    exact safe.complete noMinutesQuery [] rfl _ rfl rfl

theorem minutes_never_divide_by_zero : ConsumersNotByZero Whole Whole minute ∧
    ConsumersNotByZero Whole Whole hour ∧ DerivesNotByZero minute hour := by
  have minuteParsed : parseTimeframe "1m" = .ok minute := eq_ok_of_toOption (by decide +kernel)
  have hourParsed : parseTimeframe "1h" = .ok hour := eq_ok_of_toOption (by decide +kernel)
  refine (timeframes_never_divide_by_zero_iff Whole Whole ?_ minuteParsed hourParsed).mpr ?_
  · intro price size _
    exact .ok _
  · constructor
    · rintro (zero | zero)
      · exact absurd (congrArg Except.toOption zero) (by decide +kernel)
      · exact absurd (congrArg Except.toOption zero) (by decide +kernel)
    · rintro (zero | zero)
      · exact absurd (congrArg Except.toOption zero) (by decide +kernel)
      · exact absurd (congrArg Except.toOption zero) (by decide +kernel)

end MarketdataProvider
