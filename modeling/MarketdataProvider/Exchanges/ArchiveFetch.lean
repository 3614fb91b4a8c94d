import MarketdataProvider.Exchanges.ArchiveFold
import MarketdataProvider.Exchanges.ArchivePeriods

namespace MarketdataProvider

open Foundation

/-- `BINANCE_ARCHIVE_MARKET_PATHS` -/
def binanceArchiveMarketPaths : List (String × String) :=
  [("spot", "spot"), ("usdm", "futures/um"), ("usd-m", "futures/um"), ("um", "futures/um"),
    ("linear", "futures/um"), ("coinm", "futures/cm"), ("coin-m", "futures/cm"), ("cm", "futures/cm"),
    ("inverse", "futures/cm")]

def archiveMarketPath [PyText] (market : String) : Option String :=
  binanceArchiveMarketPaths.lookup (PyText.lower market)

def maxDailyArchiveDays : Nat := 45

def maxMonthlyArchiveMonths : Nat := 12

/-- The records of the archive's files; a file may be missing or unreadable. -/
structure ArchiveFiles where
  monthly : Int × Int → Option (List (List String))
  daily : Int × Int × Int → Option (List (List String))

section Fetch

variable [PyText] {F : Type} [PyFloat F]

omit [PyText] [PyFloat F] in
/-- `_dedupe_sorted` -/
def dedupeSorted (bars : List (MarketBar F)) : List (MarketBar F) :=
  Keyed.byKey (fun bar : MarketBar F => bar.time) bars

variable (D : Type) [PyDecimal D] [DecimalFloat D F]

/-- The bars of the files of some periods, one file after the other. -/
def loadFiles {Period : Type} (file : Period → Option (List (List String))) (periods : List Period)
    (symbol market timeframe : String) (start stop : Int) : Except PyError (List (MarketBar F)) := do
  let loaded ← periods.mapM fun period =>
    loadArchiveFile D (file period) symbol market timeframe start stop
  return loaded.flatten

end Fetch

section Coverage

variable [PyText] (F D : Type) [PyFloat F] [PyDecimal D]
  {symbol market timeframe interval : String} {duration start stop : Int} {Period : Type}

variable {F D} [DecimalFloat D F]

end Coverage

section Result

variable [PyText] (F : Type) [PyFloat F] (D : Type) [PyDecimal D] [DecimalFloat D F]
  (files : ArchiveFiles) (symbol market timeframe : String) (duration start stop : Int)

variable {F D files symbol market timeframe duration start stop}

end Result

end MarketdataProvider

namespace MarketdataProvider

open Foundation Reference
open scoped Reference

namespace Reference

theorem hour_duration : timeframeMs "1h" = .ok 3600000 := eq_ok_of_toOption (by decide +kernel)

def hourRow (openTime : String) : List String := [openTime, "1", "1", "1", "1", "1"]

/-- The file of the first day has the first hour of the second day, too. -/
def overlappingDays : ArchiveFiles where
  monthly _ := none
  daily day :=
    if day = (1970, 1, 1) then some [hourRow "82800000", hourRow "86400000"]
    else some [hourRow "86400000"]

end Reference

end MarketdataProvider
