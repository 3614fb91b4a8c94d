import MarketdataProvider.Core.Reference
import MarketdataProvider.Store.SegmentChecksums

namespace MarketdataProvider

/-- Equality of floats: symmetric and transitive, but no value has to equal itself. -/
structure FloatEquality (F : Type) [PyFloat F] : Prop where
  symm : ∀ left right : F, PyFloat.eq left right = true → PyFloat.eq right left = true
  trans : ∀ first second third : F, PyFloat.eq first second = true → PyFloat.eq second third = true →
    PyFloat.eq first third = true

variable {F : Type} [PyFloat F]

section Optional

open sameCanonicalCandle

theorem FloatEquality.sameFloat_symm (equality : FloatEquality F) {left right : Option F}
    (same : sameFloat left right = true) : sameFloat right left = true := by
  cases left with
  | none =>
      cases right with
      | none => rfl
      | some right => cases same
  | some left =>
      cases right with
      | none => cases same
      | some right => exact equality.symm left right same

theorem FloatEquality.sameFloat_trans (equality : FloatEquality F) {first second third : Option F}
    (left : sameFloat first second = true) (right : sameFloat second third = true) :
    sameFloat first third = true := by
  cases second with
  | none =>
      cases first with
      | none => exact right
      | some first => cases left
  | some second =>
      cases first with
      | none => cases left
      | some first =>
          cases third with
          | none => cases right
          | some third => exact equality.trans first second third left right

end Optional

/-- Two bars with one canonical payload. -/
structure SameCandle (left right : MarketBar F) : Prop where
  time : left.time = right.time
  timeClose : left.timeClose = right.timeClose
  openPrice : PyFloat.eq left.openPrice right.openPrice = true
  high : PyFloat.eq left.high right.high = true
  low : PyFloat.eq left.low right.low = true
  close : PyFloat.eq left.close right.close = true
  volume : PyFloat.eq left.volume right.volume = true
  exchange : left.exchange = right.exchange
  market : left.market = right.market
  symbol : left.symbol = right.symbol
  timeframe : left.timeframe = right.timeframe
  sourceKind : left.sourceKind = right.sourceKind
  isClosed : left.isClosed = right.isClosed
  openText : left.openText = right.openText
  highText : left.highText = right.highText
  lowText : left.lowText = right.lowText
  closeText : left.closeText = right.closeText
  volumeText : left.volumeText = right.volumeText
  quoteVolume : sameCanonicalCandle.sameFloat left.quoteVolume right.quoteVolume = true
  turnover : sameCanonicalCandle.sameFloat left.turnover right.turnover = true
  tradesCount : left.tradesCount = right.tradesCount
  takerBase : sameCanonicalCandle.sameFloat left.takerBuyBaseVolume right.takerBuyBaseVolume = true
  takerQuote : sameCanonicalCandle.sameFloat left.takerBuyQuoteVolume right.takerBuyQuoteVolume = true

theorem sameCanonicalCandle_iff {left right : MarketBar F} :
    sameCanonicalCandle left right = true ↔ SameCandle left right := by
  simp only [sameCanonicalCandle, Bool.and_eq_true, decide_eq_true_eq]
  constructor
  · rintro ⟨⟨⟨⟨⟨⟨⟨⟨⟨⟨⟨⟨⟨⟨⟨⟨⟨⟨⟨⟨⟨⟨time, timeClose⟩, openPrice⟩, high⟩, low⟩, close⟩, volume⟩, exchange⟩,
      market⟩, symbol⟩, timeframe⟩, sourceKind⟩, isClosed⟩, openText⟩, highText⟩, lowText⟩, closeText⟩,
      volumeText⟩, quoteVolume⟩, turnover⟩, tradesCount⟩, takerBase⟩, takerQuote⟩
    constructor <;> assumption
  · rintro ⟨⟩
    simp only [*, and_self]

theorem SameCandle.symm (equality : FloatEquality F) {left right : MarketBar F}
    (same : SameCandle left right) : SameCandle right left where
  time := same.time.symm
  timeClose := same.timeClose.symm
  openPrice := equality.symm _ _ same.openPrice
  high := equality.symm _ _ same.high
  low := equality.symm _ _ same.low
  close := equality.symm _ _ same.close
  volume := equality.symm _ _ same.volume
  exchange := same.exchange.symm
  market := same.market.symm
  symbol := same.symbol.symm
  timeframe := same.timeframe.symm
  sourceKind := same.sourceKind.symm
  isClosed := same.isClosed.symm
  openText := same.openText.symm
  highText := same.highText.symm
  lowText := same.lowText.symm
  closeText := same.closeText.symm
  volumeText := same.volumeText.symm
  quoteVolume := equality.sameFloat_symm same.quoteVolume
  turnover := equality.sameFloat_symm same.turnover
  tradesCount := same.tradesCount.symm
  takerBase := equality.sameFloat_symm same.takerBase
  takerQuote := equality.sameFloat_symm same.takerQuote

theorem SameCandle.trans (equality : FloatEquality F) {first second third : MarketBar F}
    (left : SameCandle first second) (right : SameCandle second third) : SameCandle first third where
  time := left.time.trans right.time
  timeClose := left.timeClose.trans right.timeClose
  openPrice := equality.trans _ _ _ left.openPrice right.openPrice
  high := equality.trans _ _ _ left.high right.high
  low := equality.trans _ _ _ left.low right.low
  close := equality.trans _ _ _ left.close right.close
  volume := equality.trans _ _ _ left.volume right.volume
  exchange := left.exchange.trans right.exchange
  market := left.market.trans right.market
  symbol := left.symbol.trans right.symbol
  timeframe := left.timeframe.trans right.timeframe
  sourceKind := left.sourceKind.trans right.sourceKind
  isClosed := left.isClosed.trans right.isClosed
  openText := left.openText.trans right.openText
  highText := left.highText.trans right.highText
  lowText := left.lowText.trans right.lowText
  closeText := left.closeText.trans right.closeText
  volumeText := left.volumeText.trans right.volumeText
  quoteVolume := equality.sameFloat_trans left.quoteVolume right.quoteVolume
  turnover := equality.sameFloat_trans left.turnover right.turnover
  tradesCount := left.tradesCount.trans right.tradesCount
  takerBase := equality.sameFloat_trans left.takerBase right.takerBase
  takerQuote := equality.sameFloat_trans left.takerQuote right.takerQuote

/-- `same_canonical_candle` compares in both directions alike. -/
theorem sameCanonicalCandle_symm (equality : FloatEquality F) {left right : MarketBar F}
    (same : sameCanonicalCandle left right = true) : sameCanonicalCandle right left = true :=
  sameCanonicalCandle_iff.mpr ((sameCanonicalCandle_iff.mp same).symm equality)

theorem sameCanonicalCandle_trans (equality : FloatEquality F) {first second third : MarketBar F}
    (left : sameCanonicalCandle first second = true) (right : sameCanonicalCandle second third = true) :
    sameCanonicalCandle first third = true :=
  sameCanonicalCandle_iff.mpr
    ((sameCanonicalCandle_iff.mp left).trans equality (sameCanonicalCandle_iff.mp right))

end MarketdataProvider

namespace MarketdataProvider.Reference

open scoped Reference

theorem wholeEquality : FloatEquality Whole where
  symm left right same := by
    change decide (left.value = right.value) = true at same
    change decide (right.value = left.value) = true
    rw [of_decide_eq_true same]
    exact decide_eq_true rfl
  trans first second third left right := by
    change decide (first.value = second.value) = true at left
    change decide (second.value = third.value) = true at right
    change decide (first.value = third.value) = true
    rw [of_decide_eq_true left, of_decide_eq_true right]
    exact decide_eq_true rfl

end MarketdataProvider.Reference
