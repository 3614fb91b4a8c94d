import MarketdataProvider.Store.SegmentRows

namespace MarketdataProvider

open Foundation

variable {F : Type} [PyFloat F]

/-- The number is what the reader makes of its text. -/
def FloatSurvives (value : F) : Prop := PyFloat.parse (PyFloat.str value) = .ok value

/-- The reader takes an integer through a float. -/
def IntSurvives (F : Type) [PyFloat F] (value : Int) : Prop :=
  PyFloat.parseInt F (toString value) = .ok value

def OptFloatSurvives (value : Option F) : Prop :=
  ∀ number, value = some number → PyFloat.str number ≠ "" ∧ FloatSurvives number

def OptIntSurvives (F : Type) [PyFloat F] (value : Option Int) : Prop :=
  ∀ number, value = some number → IntSurvives F number

theorem int_repr_ne_empty (value : Int) : value.repr ≠ "" := by
  intro empty
  have digits := congrArg String.toList empty
  cases value with
  | ofNat count => simp [Int.repr, Nat.repr] at digits
  | negSucc count => simp [Int.repr] at digits

namespace CsvRow

variable {row : CsvRow} {name : String}

theorem optText_of_get {text : String} (found : row.get name = some (some text)) :
    row.optText name = if text = "" then none else some text := by
  rw [optText, found]

theorem optText_text {text : String} (found : row.get name = some (some text)) (filled : text ≠ "") :
    row.optText name = some text := by
  rw [optText_of_get found, if_neg filled]

theorem text_eq_iff {text default : String} (found : row.get name = some (some text))
    (distinct : default ≠ "") : row.text name default = text ↔ text ≠ "" := by
  rw [CsvRow.text, optText_of_get found]
  split
  · rename_i empty
    subst empty
    simpa using distinct
  · rename_i filled
    simpa using filled

theorem optText_cell_iff {value : Option String} (found : row.get name = some (some (cell id value))) :
    row.optText name = value ↔ value ≠ some "" := by
  rw [optText_of_get found]
  cases value with
  | none => simp [cell]
  | some text =>
      by_cases empty : text = ""
      · simp [cell, empty]
      · simp [cell, empty]

theorem optFloat_cell_iff {value : Option F}
    (found : row.get name = some (some (cell PyFloat.str value))) :
    row.optFloat name = .ok value ↔ OptFloatSurvives value := by
  rw [optFloat, optText_of_get found, OptFloatSurvives]
  cases value with
  | none => simp [cell]
  | some number =>
      by_cases empty : PyFloat.str number = ""
      · simp [cell, empty]
      · simp [cell, empty, FloatSurvives]

theorem optInt_cell_iff {value : Option Int}
    (found : row.get name = some (some (cell toString value))) :
    row.optInt F name = .ok value ↔ OptIntSurvives F value := by
  rw [optInt, optText_of_get found, OptIntSurvives]
  cases value with
  | none => simp [cell]
  | some number => simp [cell, IntSurvives, int_repr_ne_empty]

theorem required_iff {value : F} (found : row.get name = some (some (PyFloat.str value))) :
    row.required name = .ok value ↔ FloatSurvives value := by
  simp [required, requiredNumber, found, FloatSurvives]

end CsvRow

theorem lookup_of_mem {Value : Type} {row : List (String × Value)} {name : String} {value : Value}
    (distinct : (row.map Prod.fst).Nodup) (column : (name, value) ∈ row) :
    row.lookup name = some value := by
  induction row with
  | nil => cases column
  | cons head rest ih =>
      rw [List.map_cons, List.nodup_cons] at distinct
      rcases List.mem_cons.mp column with rfl | later
      · exact List.lookup_cons_self
      · have other : name ≠ head.1 := by
          rintro rfl
          exact distinct.1 (List.mem_map.mpr ⟨_, later, rfl⟩)
        rw [List.lookup_cons, beq_false_of_ne other]
        exact ih distinct.2 later

/-- The row that the reader sees for a written bar. -/
def writtenRow (bar : MarketBar F) : CsvRow := (persistedRow bar).map fun pair => (pair.1, some pair.2)

/-- Each column of a written row is found under its name. -/
theorem get_writtenRow (bar : MarketBar F) {name text : String}
    (column : (name, text) ∈ persistedRow bar) : (writtenRow bar).get name = some (some text) := by
  have names : (writtenRow bar).map Prod.fst = persistedMarketBarFields := rfl
  apply lookup_of_mem
  · rw [List.map_reverse, List.nodup_reverse, names]
    decide
  · exact List.mem_reverse.mpr (List.mem_map.mpr ⟨_, column, rfl⟩)

variable [PyText]

/-- The bar that the reader makes of its row: case, timeframe and runtime labels are normalized. -/
def MarketBar.persisted (timeframe : String) (bar : MarketBar F) : MarketBar F :=
  { bar with
    exchange := PyText.lower bar.exchange
    market := PyText.lower bar.market
    symbol := PyText.upper bar.symbol
    timeframe
    source := ""
    metadata := [] }

/-- Each persisted field of the bar is what the reader makes of its text. -/
structure MarketBar.Survives (bar : MarketBar F) : Prop where
  time : IntSurvives F bar.time
  openPrice : FloatSurvives bar.openPrice
  high : FloatSurvives bar.high
  low : FloatSurvives bar.low
  close : FloatSurvives bar.close
  volume : FloatSurvives bar.volume
  closes : bar.timeClose.isSome
  timeClose : OptIntSurvives F bar.timeClose
  quoteVolume : OptFloatSurvives bar.quoteVolume
  turnover : OptFloatSurvives bar.turnover
  tradesCount : OptIntSurvives F bar.tradesCount
  takerBuyBaseVolume : OptFloatSurvives bar.takerBuyBaseVolume
  takerBuyQuoteVolume : OptFloatSurvives bar.takerBuyQuoteVolume
  sourceTransport : bar.sourceTransport ≠ ""
  sourceKind : bar.sourceKind ≠ ""
  provider : bar.provider ≠ ""
  revised : bar.providerRevision.isSome
  providerRevision : bar.providerRevision ≠ some ""
  revision : IntSurvives F bar.revision
  openText : bar.openText ≠ some ""
  highText : bar.highText ≠ some ""
  lowText : bar.lowText ≠ some ""
  closeText : bar.closeText ≠ some ""
  volumeText : bar.volumeText ≠ some ""
  downloadedAt : OptIntSurvives F bar.downloadedAt

theorem parseBool_boolText (value : Bool) : parseBool (some (boolText value)) = .ok value := by
  have plain (text : String) (first last : Char) (front back : List Char)
      (starts : text.toList = first :: back) (ends : text.toList = front ++ [last])
      (ascii : text.toList.all (·.toNat < 128) = true)
      (firstPlain : first.isAlphanum = true) (lastPlain : last.isAlphanum = true) :
      PyText.lower (String.ofList (strip text.toList)) = String.ofList (text.toList.map Char.toLower) := by
    rw [strip_eq_self starts ends (PyText.isSpace_ascii _ firstPlain) (PyText.isSpace_ascii _ lastPlain),
      String.ofList_toList, PyText.lower_ascii text ascii]
  cases value with
  | true =>
      rw [parseBool, boolText, if_pos rfl, plain "True" 'T' 'e' ['T', 'r', 'u'] ['r', 'u', 'e'] rfl rfl
        (by decide) (by decide) (by decide)]
      decide
  | false =>
      rw [parseBool, boolText, if_neg (by decide), plain "False" 'F' 'e' ['F', 'a', 'l', 's']
        ['a', 'l', 's', 'e'] rfl rfl (by decide) (by decide) (by decide)]
      decide

namespace CsvRow

variable {row : CsvRow} {name : String}

omit [PyText] in
theorem text_empty {text : String} (found : row.get name = some (some text)) :
    row.text name "" = text := by
  rw [CsvRow.text, optText_of_get found]
  split
  · rename_i empty
    exact empty.symm
  · rfl

omit [PyText] in
theorem optText_int {value : Option Int} (found : row.get name = some (some (cell toString value))) :
    row.optText name = value.map toString := by
  rw [optText_of_get found]
  cases value with
  | none => rfl
  | some number => simp [cell, int_repr_ne_empty]

end CsvRow

omit [PyText] in
theorem RevisionState.value_ne_empty (state : RevisionState) : state.value ≠ "" := by
  cases state <;> decide

/-- An unknown timeframe is refused, the empty one included. -/
theorem canonicalTimeframe_ne_empty {tf canonical : String}
    (accepted : canonicalTimeframe tf = .ok canonical) : tf ≠ "" := by
  rintro rfl
  simp [canonicalTimeframe, strip, fixedTimeframe] at accepted

omit [PyText] in
/-- The provenance check of a written row asks for a close time and for two filled texts. -/
theorem rowProvenance_writtenRow_iff (bar : MarketBar F) (provenance : RowProvenance) :
    rowProvenance (writtenRow bar) = .ok provenance ↔
      (bar.timeClose.isSome ∧ bar.provider ≠ "" ∧ cell id bar.providerRevision ≠ "") ∧
        ⟨bar.provider, cell id bar.providerRevision, bar.revisionState⟩ = provenance := by
  have timeClose : (writtenRow bar).optText "time_close" = bar.timeClose.map toString :=
    CsvRow.optText_int (get_writtenRow bar (by simp [persistedRow]))
  have provider : (writtenRow bar).text "provider" "" = bar.provider :=
    CsvRow.text_empty (get_writtenRow bar (by simp [persistedRow]))
  have providerRevision :
      (writtenRow bar).text "provider_revision" "" = cell id bar.providerRevision :=
    CsvRow.text_empty (get_writtenRow bar (by simp [persistedRow]))
  have revisionState : (writtenRow bar).get "revision_state" = some (some bar.revisionState.value) :=
    get_writtenRow bar (by simp [persistedRow])
  have revision : (writtenRow bar).optText "revision" = some bar.revision.repr :=
    CsvRow.optText_text (get_writtenRow bar (by simp [persistedRow])) (int_repr_ne_empty _)
  rw [rowProvenance, timeClose, provider, providerRevision,
    CsvRow.optText_text revisionState bar.revisionState.value_ne_empty, revision,
    CsvRow.text_empty revisionState, RevisionState.ofValue_value]
  cases closes : bar.timeClose with
  | none => simp
  | some close =>
      by_cases noProvider : bar.provider = ""
      · simp [noProvider]
      · by_cases noRevision : cell id bar.providerRevision = ""
        · simp [noProvider, noRevision]
        · simp [noProvider, noRevision]

/-- What each column of a written row reads as; the numbers read back only when they survive. -/
structure WrittenColumns (row : CsvRow) (bar : MarketBar F) : Prop where
  time : row.requiredNumber "time" = .ok (toString bar.time)
  openPrice : row.required "open" = .ok bar.openPrice ↔ FloatSurvives bar.openPrice
  high : row.required "high" = .ok bar.high ↔ FloatSurvives bar.high
  low : row.required "low" = .ok bar.low ↔ FloatSurvives bar.low
  close : row.required "close" = .ok bar.close ↔ FloatSurvives bar.close
  volume : row.required "volume" = .ok bar.volume ↔ FloatSurvives bar.volume
  timeClose : row.optInt F "time_close" = .ok bar.timeClose ↔ OptIntSurvives F bar.timeClose
  exchange : row.text "exchange" "" = bar.exchange
  market : row.text "market" "" = bar.market
  symbol : row.text "symbol" "" = bar.symbol
  timeframe : row.text "timeframe" "1m" = bar.timeframe ↔ bar.timeframe ≠ ""
  quoteVolume : row.optFloat "quote_volume" = .ok bar.quoteVolume ↔ OptFloatSurvives bar.quoteVolume
  turnover : row.optFloat "turnover" = .ok bar.turnover ↔ OptFloatSurvives bar.turnover
  tradesCount : row.optInt F "trades_count" = .ok bar.tradesCount ↔ OptIntSurvives F bar.tradesCount
  takerBuyBaseVolume : row.optFloat "taker_buy_base_volume" = .ok bar.takerBuyBaseVolume ↔
    OptFloatSurvives bar.takerBuyBaseVolume
  takerBuyQuoteVolume : row.optFloat "taker_buy_quote_volume" = .ok bar.takerBuyQuoteVolume ↔
    OptFloatSurvives bar.takerBuyQuoteVolume
  sourceTransport : row.text "source_transport" "ws" = bar.sourceTransport ↔ bar.sourceTransport ≠ ""
  sourceKind : row.text "source_kind" "trade_kline" = bar.sourceKind ↔ bar.sourceKind ≠ ""
  isClosed : parseBool (row.optText "is_closed") = .ok bar.isClosed
  revision : row.text "revision" "0" = toString bar.revision
  openText : row.optText "open_text" = bar.openText ↔ bar.openText ≠ some ""
  highText : row.optText "high_text" = bar.highText ↔ bar.highText ≠ some ""
  lowText : row.optText "low_text" = bar.lowText ↔ bar.lowText ≠ some ""
  closeText : row.optText "close_text" = bar.closeText ↔ bar.closeText ≠ some ""
  volumeText : row.optText "volume_text" = bar.volumeText ↔ bar.volumeText ≠ some ""
  downloadedAt : row.optInt F "downloaded_at" = .ok bar.downloadedAt ↔ OptIntSurvives F bar.downloadedAt

theorem writtenColumns (bar : MarketBar F) : WrittenColumns (writtenRow bar) bar where
  time := by
    rw [CsvRow.requiredNumber,
      get_writtenRow bar (show ("time", toString bar.time) ∈ _ by simp [persistedRow])]
  openPrice := CsvRow.required_iff (get_writtenRow bar (by simp [persistedRow]))
  high := CsvRow.required_iff (get_writtenRow bar (by simp [persistedRow]))
  low := CsvRow.required_iff (get_writtenRow bar (by simp [persistedRow]))
  close := CsvRow.required_iff (get_writtenRow bar (by simp [persistedRow]))
  volume := CsvRow.required_iff (get_writtenRow bar (by simp [persistedRow]))
  timeClose := CsvRow.optInt_cell_iff (get_writtenRow bar (by simp [persistedRow]))
  exchange := CsvRow.text_empty (get_writtenRow bar (by simp [persistedRow]))
  market := CsvRow.text_empty (get_writtenRow bar (by simp [persistedRow]))
  symbol := CsvRow.text_empty (get_writtenRow bar (by simp [persistedRow]))
  timeframe := CsvRow.text_eq_iff (get_writtenRow bar (by simp [persistedRow])) (by decide)
  quoteVolume := CsvRow.optFloat_cell_iff (get_writtenRow bar (by simp [persistedRow]))
  turnover := CsvRow.optFloat_cell_iff (get_writtenRow bar (by simp [persistedRow]))
  tradesCount := CsvRow.optInt_cell_iff (get_writtenRow bar (by simp [persistedRow]))
  takerBuyBaseVolume := CsvRow.optFloat_cell_iff (get_writtenRow bar (by simp [persistedRow]))
  takerBuyQuoteVolume := CsvRow.optFloat_cell_iff (get_writtenRow bar (by simp [persistedRow]))
  sourceTransport := CsvRow.text_eq_iff (get_writtenRow bar (by simp [persistedRow])) (by decide)
  sourceKind := CsvRow.text_eq_iff (get_writtenRow bar (by simp [persistedRow])) (by decide)
  isClosed := by
    rw [CsvRow.optText_text (get_writtenRow bar
      (show ("is_closed", boolText bar.isClosed) ∈ _ by simp [persistedRow]))
      (by cases bar.isClosed <;> decide), parseBool_boolText]
  revision := (CsvRow.text_eq_iff (get_writtenRow bar (by simp [persistedRow])) (by decide)).mpr
    (int_repr_ne_empty _)
  openText := CsvRow.optText_cell_iff (get_writtenRow bar (by simp [persistedRow]))
  highText := CsvRow.optText_cell_iff (get_writtenRow bar (by simp [persistedRow]))
  lowText := CsvRow.optText_cell_iff (get_writtenRow bar (by simp [persistedRow]))
  closeText := CsvRow.optText_cell_iff (get_writtenRow bar (by simp [persistedRow]))
  volumeText := CsvRow.optText_cell_iff (get_writtenRow bar (by simp [persistedRow]))
  downloadedAt := CsvRow.optInt_cell_iff (get_writtenRow bar (by simp [persistedRow]))

omit [PyText] in
theorem checkRevision_ok {state : RevisionState} {revision : Int} (admitted : state.Admits revision) :
    checkRevision state revision = .ok ⟨admitted⟩ := by
  rw [checkRevision, dif_pos admitted]

/-- A surviving bar comes back from its row in normalized form. -/
theorem MarketBar.Survives.rowToBar {bar : MarketBar F} {timeframe : String}
    (survives : bar.Survives) (accepted : canonicalTimeframe bar.timeframe = .ok timeframe) :
    rowToBar (writtenRow bar) = .ok (bar.persisted timeframe) := by
  have columns := writtenColumns bar
  obtain ⟨revised, present⟩ := Option.isSome_iff_exists.mp survives.revised
  have filled : cell id bar.providerRevision ≠ "" := by
    have := survives.providerRevision
    rw [present] at this ⊢
    simpa [cell] using this
  have provenance := (rowProvenance_writtenRow_iff bar _).mpr
    ⟨⟨survives.closes, survives.provider, filled⟩, rfl⟩
  simp only [MarketdataProvider.rowToBar, bind_eq_ok, pure_eq_ok]
  refine ⟨_, provenance, _, columns.time, _, survives.time, _, columns.openPrice.mpr survives.openPrice,
    _, columns.high.mpr survives.high, _, columns.low.mpr survives.low,
    _, columns.close.mpr survives.close, _, columns.volume.mpr survives.volume,
    _, columns.timeClose.mpr survives.timeClose, timeframe, ?_,
    _, columns.quoteVolume.mpr survives.quoteVolume, _, columns.turnover.mpr survives.turnover,
    _, columns.tradesCount.mpr survives.tradesCount,
    _, columns.takerBuyBaseVolume.mpr survives.takerBuyBaseVolume,
    _, columns.takerBuyQuoteVolume.mpr survives.takerBuyQuoteVolume, _, columns.isClosed,
    _, ?_, _, columns.downloadedAt.mpr survives.downloadedAt, _, checkRevision_ok bar.lineage, ?_⟩
  · rw [columns.timeframe.mpr (canonicalTimeframe_ne_empty accepted), accepted]
  · rw [columns.revision]
    exact survives.revision
  · simp only [columns.exchange, columns.market, columns.symbol,
      columns.sourceTransport.mpr survives.sourceTransport,
      columns.sourceKind.mpr survives.sourceKind, columns.openText.mpr survives.openText,
      columns.highText.mpr survives.highText, columns.lowText.mpr survives.lowText,
      columns.closeText.mpr survives.closeText, columns.volumeText.mpr survives.volumeText,
      MarketBar.persisted, present]
    rfl

/-- A bar that comes back in normalized form survives field by field. -/
theorem survives_of_rowToBar {bar : MarketBar F} (timeframe : String)
    (read : rowToBar (writtenRow bar) = .ok (bar.persisted timeframe)) : bar.Survives := by
  have columns := writtenColumns bar
  simp only [rowToBar, bind_eq_ok, pure_eq_ok] at read
  obtain ⟨provenance, checked, _, timeText, time, timeRead, openPrice, openRead, high, highRead,
    low, lowRead, close, closeRead, volume, volumeRead, timeClose, timeCloseRead, _, _,
    quoteVolume, quoteRead, turnover, turnoverRead, tradesCount, tradesRead, takerBase, takerBaseRead,
    takerQuote, takerQuoteRead, _, _, revision, revisionRead, downloadedAt, downloadedRead, _, _,
    same⟩ := read
  obtain ⟨⟨closes, provider, filled⟩, -⟩ := (rowProvenance_writtenRow_iff bar provenance).mp checked
  cases timeText.symm.trans columns.time
  simp only [MarketBar.persisted, MarketBar.mk.injEq] at same
  obtain ⟨prices, -, -, -, -, transport, kind, -, -, -, revised, -, rfl,
    openText, highText, lowText, closeText, volumeText, rfl, rfl, rfl, rfl, rfl, rfl, -⟩ := same
  rw [columns.revision] at revisionRead
  exact {
    time := timeRead.trans (congrArg (fun prices : Bar F => Except.ok prices.time) prices)
    openPrice := columns.openPrice.mp
      (openRead.trans (congrArg (fun prices : Bar F => Except.ok prices.openPrice) prices))
    high := columns.high.mp
      (highRead.trans (congrArg (fun prices : Bar F => Except.ok prices.high) prices))
    low := columns.low.mp
      (lowRead.trans (congrArg (fun prices : Bar F => Except.ok prices.low) prices))
    close := columns.close.mp
      (closeRead.trans (congrArg (fun prices : Bar F => Except.ok prices.close) prices))
    volume := columns.volume.mp
      (volumeRead.trans (congrArg (fun prices : Bar F => Except.ok prices.volume) prices))
    closes
    timeClose := columns.timeClose.mp
      (timeCloseRead.trans (congrArg (fun prices : Bar F => Except.ok prices.timeClose) prices))
    quoteVolume := columns.quoteVolume.mp quoteRead
    turnover := columns.turnover.mp turnoverRead
    tradesCount := columns.tradesCount.mp tradesRead
    takerBuyBaseVolume := columns.takerBuyBaseVolume.mp takerBaseRead
    takerBuyQuoteVolume := columns.takerBuyQuoteVolume.mp takerQuoteRead
    sourceTransport := columns.sourceTransport.mp transport
    sourceKind := columns.sourceKind.mp kind
    provider
    revised := by rw [← revised]; rfl
    providerRevision := by
      intro empty
      rw [empty] at filled
      exact filled rfl
    revision := revisionRead
    openText := columns.openText.mp openText
    highText := columns.highText.mp highText
    lowText := columns.lowText.mp lowText
    closeText := columns.closeText.mp closeText
    volumeText := columns.volumeText.mp volumeText
    downloadedAt := columns.downloadedAt.mp downloadedRead }

end MarketdataProvider
