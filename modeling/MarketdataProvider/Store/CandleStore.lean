import MarketdataProvider.Store.SegmentRead

namespace MarketdataProvider

open Foundation Foundation.Crash

variable [PyText] {F : Type} [PyFloat F] [Sha256] [Parquet]

/-- The statuses of `CommitResult` for a closed candle. -/
inductive CommitStatus where
  | committed
  | duplicate
  deriving DecidableEq, Repr

/-- A CSV tail takes a newer candle without a read of the series. -/
def SegmentManifest.takesTail (manifest : SegmentManifest) (time : Int) : Bool :=
  manifest.dataFormat = .csv && manifest.endTime.any (· < time)

/-- An equal candle is a duplicate, any other one of that time is a conflict. -/
def compareClosed (existing bar : MarketBar F) : Except PyError CommitStatus := do
  let stored ← marketBarChecksum existing
  let incoming ← marketBarChecksum bar
  if stored = incoming then .ok .duplicate
  else .error (.mdCacheConflict "Conflicting closed candle"
    [("diagnostic", .text "MD_CACHE_CONFLICT"), ("time", .int bar.time),
      ("existing_checksum", .text stored), ("new_checksum", .text incoming)])

/-- What `commit_closed` does to the segments, with the writer lock around it. -/
def commitClosed (pending : Nat → Bool) (store : SegmentStore) (bar : MarketBar F) :
    StoreProg CommitStatus := do
  recoverSeries .seriesLock
  let state ← Prog.read
  if state.manifest.any fun raw => raw.toManifest.takesTail bar.time then do
    let _ ← appendStrictlyNewerLocked store [bar] bar.key
    return .committed
  else do
    match ← getLocked F pending store bar.time with
    | some existing => Prog.ofExcept (compareClosed existing bar)
    | none => do
        let _ ← upsertClosedLocked store bar
        return .committed

end MarketdataProvider
