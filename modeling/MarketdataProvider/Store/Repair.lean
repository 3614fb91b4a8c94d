import Mathlib.Data.Prod.Lex
import MarketdataProvider.Store.ClosedSeries
import MarketdataProvider.Store.SegmentRows

namespace MarketdataProvider

open Foundation

inductive RepairPolicy where
  | strict
  | nonStrict
  deriving DecidableEq, Repr

structure AuditIssue where
  code : String
  time : Int
  message : String
  deriving DecidableEq, Repr

structure AuditReport where
  ok : Bool
  checked : Nat
  issues : List AuditIssue
  deriving DecidableEq, Repr

structure RepairLog where
  schemaVersion : String
  exchange : String
  market : String
  symbol : String
  timeframe : String
  policy : RepairPolicy
  checked : Nat
  changed : Nat
  issues : List AuditIssue
  applied : Bool
  deriving DecidableEq, Repr

section Source

variable [PyText] {F : Type} [PyFloat F]

/-- The names of the texts that are missing or empty. -/
def missingText (texts : List (String × Option String)) : List String :=
  (texts.filter fun entry => entry.2.getD "" = "").map Prod.fst

/-- `market_bar_from_bar` -/
def marketBarFromBar (bar : MarketBar F) (key : SeriesKey) (transport : String) :
    Except PyError (MarketBar F) :=
  let missing := missingText [("open", bar.openText), ("high", bar.highText), ("low", bar.lowText),
    ("close", bar.closeText), ("volume", bar.volumeText)]
  if bar.timeClose = none then
    .error (.mdValidationError "repair source bar is missing explicit close time")
  else if bar.isClosed = false then .error (.mdValidationError "repair source bar must be FINAL")
  else if bar.provider = "" ∨ bar.providerRevision.getD "" = "" then
    .error (.mdValidationError "repair source bar is missing provider identity")
  else if missing ≠ [] then
    .error (.mdValidationError
      ("repair source bar is missing exact source decimal text: " ++ String.intercalate ", " missing))
  else do
    let timeframe ← canonicalTimeframe key.timeframe
    return {
      bar with
      exchange := PyText.lower key.exchange
      market := PyText.lower key.market
      symbol := PyText.upper key.symbol
      timeframe
      sourceTransport := transport
      sourceKind := key.sourceKind
      source := ""
      metadata := [] }

/-- The numbers of a row; a text that is no number makes the row invalid. -/
def repairNumber {Value : Type} (read : Option Value) : Except PyError Value :=
  match read with
  | none => .error (.mdValidationError "repair source row is invalid")
  | some value => .ok value

/-- The source bar of one row; `finality` tells the other members of `Finality`. -/
def repairSourceBar (finality : String → Bool) (exchange : String) (row : CsvRow) :
    Except PyError (MarketBar F) := do
  match row.optText "finality" with
  | none => throw (.mdMissingFinality "repair source row finality is required")
  | some text =>
      if text ≠ "FINAL" then
        if finality text then throw (.mdValidationError "repair source row must be FINAL")
        else throw (.mdValidationError "repair source row finality is invalid")
  let some openTime := (row.optText "time").or (row.optText "open_time")
    | throw (.mdValidationError "repair source row time is required")
  let some closeTime := (row.optText "time_close").or (row.optText "close_time")
    | throw (.mdValidationError "repair source row time_close is required")
  let provider := row.text "provider" ""
  let providerRevision := row.text "provider_revision" ""
  if provider = "" ∨ providerRevision = "" then
    throw (.mdValidationError "repair source row provider identity is required")
  if PyText.lower provider ≠ PyText.lower exchange then
    throw (.mdValidationError "repair source row provider does not match exchange")
  let (some stateText, some revisionText) := (row.optText "revision_state", row.optText "revision")
    | throw (.mdValidationError "repair source row revision identity is required")
  let (some revisionState, some revision) := (RevisionState.ofValue stateText, pyInt revisionText.toList)
    | throw (.mdValidationError "repair source row revision identity is invalid")
  let missing := missingText [("open", row.optText "open"), ("high", row.optText "high"),
    ("low", row.optText "low"), ("close", row.optText "close"), ("volume", row.optText "volume")]
  if missing ≠ [] then
    throw (.mdValidationError
      ("repair source row is missing exact source decimal text: " ++ String.intercalate ", " missing))
  let time ← repairNumber (pyInt openTime.toList)
  let openPrice ← repairNumber (PyFloat.ofStr (row.text "open" ""))
  let high ← repairNumber (PyFloat.ofStr (row.text "high" ""))
  let low ← repairNumber (PyFloat.ofStr (row.text "low" ""))
  let close ← repairNumber (PyFloat.ofStr (row.text "close" ""))
  let volume ← repairNumber (PyFloat.ofStr (row.text "volume" ""))
  let timeClose ← repairNumber (pyInt closeTime.toList)
  let lineage ← checkRevision revisionState revision
  return {
    time, openPrice, high, low, close, volume
    timeClose := some timeClose
    exchange := ""
    market := ""
    symbol := ""
    timeframe := ""
    sourceTransport := ""
    sourceKind := ""
    source := ""
    isClosed := true
    provider
    providerRevision := some providerRevision
    revisionState, revision
    openText := row.optText "open"
    highText := row.optText "high"
    lowText := row.optText "low"
    closeText := row.optText "close"
    volumeText := row.optText "volume"
    quoteVolume := none
    turnover := none
    tradesCount := none
    takerBuyBaseVolume := none
    takerBuyQuoteVolume := none
    downloadedAt := none
    metadata := []
    lineage := lineage.down }

/-- One row of `load_repair_source` under the key of the series. -/
def repairRow (finality : String → Bool) (key : SeriesKey) (transport : String) (row : CsvRow) :
    Except PyError (MarketBar F) := do
  marketBarFromBar (← repairSourceBar finality key.exchange row) key transport

/-- `load_repair_source` with the rows of its file, by time and revision. -/
def loadRepairSource (finality : String → Bool) (suffix : String) (rows : List CsvRow) (key : SeriesKey)
    (transport : String) : Except PyError (List (MarketBar F)) :=
  if PyText.lower suffix ≠ ".csv" then
    .error (.mdValidationError "canonical repair source currently requires CSV")
  else do
    let bars ← rows.mapM (repairRow finality key transport)
    return bars.insertionSort fun left right =>
      toLex (left.time, left.revision) ≤ toLex (right.time, right.revision)

end Source

section Audit

variable {F : Type} [PyFloat F]

/-- What the audit says of a source bar. -/
def auditBar (existing : List (MarketBar F)) (src : MarketBar F) : List AuditIssue :=
  match barAt existing src.time with
  | none => [⟨"MD_AUDIT_MISSING_BAR", src.time, "bar missing from finalized store"⟩]
  | some current =>
      if sameCanonicalCandle current src then []
      else [⟨"MD_WS_REST_CANDLE_MISMATCH", src.time, "stored candle differs from source candle"⟩]

/-- The stored bars at times that the source does not have, `sorted(set(existing) - set(source))`. -/
def extraBars (existing source : List (MarketBar F)) : List (MarketBar F) :=
  sortByTime (existing.filter fun bar => bar.time ∉ source.map fun bar => bar.time)

/-- `audit_against_source` of the stored bars -/
def auditAgainstSource (existing source : List (MarketBar F)) (strict : Bool) : AuditReport :=
  let issues := source.flatMap (auditBar existing) ++ if strict then
    (extraBars existing source).map fun bar =>
      ⟨"MD_AUDIT_EXTRA_BAR", bar.time, "bar exists in store but not in reconciliation source"⟩
    else []
  ⟨issues.isEmpty, source.length, issues⟩

/-- A source bar takes the place of a missing or different one. -/
def repairBar (state : List (MarketBar F) × Nat) (src : MarketBar F) : List (MarketBar F) × Nat :=
  let replaced := (Keyed.upsert (fun bar : MarketBar F => bar.time) state.1 src, state.2 + 1)
  match barAt state.1 src.time with
  | none => replaced
  | some current => if sameCanonicalCandle current src then state else replaced

/-- The bars behind the loops of a repair, and how many changes they took. -/
def repairedBars (existing source : List (MarketBar F)) (policy : RepairPolicy) :
    List (MarketBar F) × Nat :=
  let folded := source.foldl repairBar (existing, 0)
  match policy with
  | .nonStrict => folded
  | .strict => (folded.1.filter fun bar => bar.time ∈ source.map fun bar => bar.time,
      folded.2 + (extraBars folded.1 source).length)

variable [PyText]

/-- What a repair reports. -/
def repairLog (key : SeriesKey) (policy : RepairPolicy) (report : AuditReport) (changed : Nat) :
    Except PyError RepairLog := do
  let timeframe ← canonicalTimeframe key.timeframe
  return {
    schemaVersion := "stage-d-repair-1"
    exchange := PyText.lower key.exchange
    market := PyText.lower key.market
    symbol := PyText.upper key.symbol
    timeframe, policy
    checked := report.checked
    changed
    issues := report.issues
    applied := changed ≠ 0 }

/-- What a repair makes of a series. -/
def repairSeries (format : SegmentFormat) (stored : Option (ClosedSeries F))
    (source : List (MarketBar F)) (key : SeriesKey) (policy : RepairPolicy) :
    Except PyError (RepairLog × Option (ClosedSeries F)) := do
  let report := auditAgainstSource (storedBars stored) source (policy = .strict)
  let (bars, changed) := repairedBars (storedBars stored) source policy
  let after ← if changed ≠ 0 then some <$> replaceSeries format bars key else pure stored
  let log ← repairLog key policy report changed
  return (log, after)

end Audit

end MarketdataProvider
