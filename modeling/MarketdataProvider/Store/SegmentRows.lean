import MarketdataProvider.Core.Bar
import MarketdataProvider.Core.Timeframe
import MarketdataProvider.Foundation.Csv

namespace MarketdataProvider

/-- A row of `csv.DictReader`; a column that the record does not reach holds `None`. -/
abbrev CsvRow := List (String × Option String)

namespace CsvRow

/-- `row.get(name)`: the last of several columns with one name wins. -/
def get (row : CsvRow) (name : String) : Option (Option String) := row.reverse.lookup name

/-- The value of a column that is neither missing nor `None` nor empty. -/
def optText (row : CsvRow) (name : String) : Option String :=
  match row.get name with
  | some (some value) => if value = "" then none else some value
  | _ => none

def text (row : CsvRow) (name default : String) : String := (row.optText name).getD default

/-- `str(row[name])` -/
def requiredNumber (row : CsvRow) (name : String) : Except PyError String :=
  match row.get name with
  | none => .error (.keyError name)
  | some none => .ok "None"
  | some (some value) => .ok value

variable {F : Type} [PyFloat F]

def required (row : CsvRow) (name : String) : Except PyError F := do
  PyFloat.parse (← row.requiredNumber name)

def optFloat (row : CsvRow) (name : String) : Except PyError (Option F) :=
  match row.optText name with
  | none => .ok none
  | some value => some <$> PyFloat.parse value

def optInt (F : Type) [PyFloat F] (row : CsvRow) (name : String) : Except PyError (Option Int) :=
  match row.optText name with
  | none => .ok none
  | some value => some <$> PyFloat.parseInt F value

end CsvRow

/-- The record's fields under the header's names. -/
def dictRow : List String → List String → CsvRow
  | [], _ => []
  | name :: names, [] => (name, none) :: dictRow names []
  | name :: names, value :: values => (name, some value) :: dictRow names values

/-- The rows of `csv.DictReader(handle)`: the first record is the header, blank ones are skipped. -/
def dictRows (stream : Foundation.Csv.Stream) : List CsvRow :=
  match stream.records with
  | [] => []
  | header :: records => (records.filter (· ≠ [])).map (dictRow header)

section Columns

variable [PyText] {F : Type} [PyFloat F]

/-- `int(row[name])` -/
def CsvRow.intColumn (row : CsvRow) (name : String) : Except PyError Int :=
  match row.get name with
  | none => .error (.keyError name)
  | some none => .error .typeError
  | some (some text) =>
      match pyInt text.toList with
      | some value => .ok value
      | none => .error (.valueError ("invalid literal for int() with base 10: " ++ text))

omit [PyText] in
/-- `float(row[name])` -/
def CsvRow.floatColumn (row : CsvRow) (name : String) : Except PyError F :=
  match row.get name with
  | none => .error (.keyError name)
  | some none => .error .typeError
  | some (some text) => PyFloat.parse text

end Columns

section RowToBar

variable [PyText]

/-- `parse_bool(row.get(name))` without a default. -/
def parseBool (value : Option String) : Except PyError Bool :=
  match value with
  | none => .error (.mdMissingFinality "persisted bar is missing is_closed/finality")
  | some text =>
      .ok (PyText.lower (String.ofList (strip text.toList)) ∈ ["true", "1", "1.0", "yes", "y"])

/-- The dataclass check of `MarketBar` on its last two arguments. -/
def checkRevision (state : RevisionState) (revision : Int) :
    Except PyError (PLift (state.Admits revision)) :=
  if admitted : state.Admits revision then .ok ⟨admitted⟩
  else if state = .original then .error (.mdValidationError "ORIGINAL revision must be 0")
  else .error (.mdValidationError "corrected/revoked revision must be >= 1")

/-- The provenance of a persisted row, checked before any number is parsed. -/
structure RowProvenance where
  provider : String
  providerRevision : String
  revisionState : RevisionState

def rowProvenance (row : CsvRow) : Except PyError RowProvenance :=
  if row.optText "time_close" = none then
    .error (.mdValidationError "persisted bar is missing time_close")
  else if row.text "provider" "" = "" then
    .error (.mdValidationError "persisted bar is missing provider")
  else if row.text "provider_revision" "" = "" then
    .error (.mdValidationError "persisted bar is missing provider_revision")
  else if row.optText "revision_state" = none then
    .error (.mdValidationError "persisted bar is missing revision_state")
  else if row.optText "revision" = none then
    .error (.mdValidationError "persisted bar is missing revision")
  else
    match RevisionState.ofValue (row.text "revision_state" "") with
    | none => .error (.mdValidationError "invalid persisted revision_state")
    | some state => .ok ⟨row.text "provider" "", row.text "provider_revision" "", state⟩

variable {F : Type} [PyFloat F]

def rowToBar (row : CsvRow) : Except PyError (MarketBar F) := do
  let provenance ← rowProvenance row
  let time ← PyFloat.parseInt F (← row.requiredNumber "time")
  let openPrice ← row.required "open"
  let high ← row.required "high"
  let low ← row.required "low"
  let close ← row.required "close"
  let volume ← row.required "volume"
  let timeClose ← row.optInt F "time_close"
  let timeframe ← canonicalTimeframe (row.text "timeframe" "1m")
  let quoteVolume ← row.optFloat "quote_volume"
  let turnover ← row.optFloat "turnover"
  let tradesCount ← row.optInt F "trades_count"
  let takerBuyBaseVolume ← row.optFloat "taker_buy_base_volume"
  let takerBuyQuoteVolume ← row.optFloat "taker_buy_quote_volume"
  let isClosed ← parseBool (row.optText "is_closed")
  let revision ← PyFloat.parseInt F (row.text "revision" "0")
  let downloadedAt ← row.optInt F "downloaded_at"
  let lineage ← checkRevision provenance.revisionState revision
  return {
    time, openPrice, high, low, close, volume, timeClose
    exchange := PyText.lower (row.text "exchange" "")
    market := PyText.lower (row.text "market" "")
    symbol := PyText.upper (row.text "symbol" "")
    timeframe
    sourceTransport := row.text "source_transport" "ws"
    sourceKind := row.text "source_kind" "trade_kline"
    source := ""
    isClosed
    provider := provenance.provider
    providerRevision := some provenance.providerRevision
    revisionState := provenance.revisionState
    revision
    openText := row.optText "open_text"
    highText := row.optText "high_text"
    lowText := row.optText "low_text"
    closeText := row.optText "close_text"
    volumeText := row.optText "volume_text"
    quoteVolume, turnover, tradesCount, takerBuyBaseVolume, takerBuyQuoteVolume, downloadedAt
    metadata := []
    lineage := lineage.down }

end RowToBar

section PersistedRow

variable {F : Type} [PyFloat F]

/-- The cell of an optional value: `None` is written as an empty field. -/
def cell {Value : Type} (render : Value → String) (value : Option Value) : String :=
  (value.map render).getD ""

def boolText (value : Bool) : String := if value then "True" else "False"

/-- `{name: getattr(bar, name) for name in fields}` as the writer renders it, column by column. -/
def persistedRow (bar : MarketBar F) : List (String × String) :=
  [("time", toString bar.time),
    ("open", PyFloat.str bar.openPrice),
    ("high", PyFloat.str bar.high),
    ("low", PyFloat.str bar.low),
    ("close", PyFloat.str bar.close),
    ("volume", PyFloat.str bar.volume),
    ("time_close", cell toString bar.timeClose),
    ("exchange", bar.exchange),
    ("market", bar.market),
    ("symbol", bar.symbol),
    ("timeframe", bar.timeframe),
    ("quote_volume", cell PyFloat.str bar.quoteVolume),
    ("turnover", cell PyFloat.str bar.turnover),
    ("trades_count", cell toString bar.tradesCount),
    ("taker_buy_base_volume", cell PyFloat.str bar.takerBuyBaseVolume),
    ("taker_buy_quote_volume", cell PyFloat.str bar.takerBuyQuoteVolume),
    ("source_transport", bar.sourceTransport),
    ("source_kind", bar.sourceKind),
    ("is_closed", boolText bar.isClosed),
    ("provider", bar.provider),
    ("provider_revision", cell id bar.providerRevision),
    ("revision_state", bar.revisionState.value),
    ("revision", toString bar.revision),
    ("open_text", cell id bar.openText),
    ("high_text", cell id bar.highText),
    ("low_text", cell id bar.lowText),
    ("close_text", cell id bar.closeText),
    ("volume_text", cell id bar.volumeText),
    ("downloaded_at", cell toString bar.downloadedAt)]

def persistedMarketBarFields : List String :=
  ["time", "open", "high", "low", "close", "volume", "time_close", "exchange", "market", "symbol",
    "timeframe", "quote_volume", "turnover", "trades_count", "taker_buy_base_volume",
    "taker_buy_quote_volume", "source_transport", "source_kind", "is_closed", "provider",
    "provider_revision", "revision_state", "revision", "open_text", "high_text", "low_text",
    "close_text", "volume_text", "downloaded_at"]

/-- Every persisted row has exactly the header's columns, in the header's order. -/
theorem persistedRow_names (bar : MarketBar F) :
    (persistedRow bar).map Prod.fst = persistedMarketBarFields := rfl

def persistedRecord (bar : MarketBar F) : List String := (persistedRow bar).map Prod.snd

theorem dictRow_zip (row : List (String × String)) :
    dictRow (row.map Prod.fst) (row.map Prod.snd) = row.map fun pair => (pair.1, some pair.2) := by
  induction row with
  | nil => rfl
  | cons pair row ih => simp [dictRow, ih]

/-- A written record is read as the row that was written. -/
theorem dictRow_persistedRecord (bar : MarketBar F) :
    dictRow persistedMarketBarFields (persistedRecord bar) =
      (persistedRow bar).map fun pair => (pair.1, some pair.2) := by
  rw [← persistedRow_names bar, persistedRecord, dictRow_zip]

end PersistedRow

end MarketdataProvider
