import MarketdataProvider.Store.CandleView
import MarketdataProvider.Streaming.Live
import MarketdataProvider.Streaming.StreamedSeries

namespace MarketdataProvider

open Foundation

structure MockStreamResult where
  processed : Nat
  openUpdates : Nat
  closedCommits : Nat
  reconnects : Nat
  backfilled : Nat
  dropped : Nat
  coalesced : Nat
  diagnostics : List String
  deriving DecidableEq, Repr

namespace MockStreamResult

def start : MockStreamResult := ⟨0, 0, 0, 0, 0, 0, 0, []⟩

/-- The counters after an update that the store took. -/
def count (result : MockStreamResult) (status : UpdateResult) : MockStreamResult :=
  match status with
  | .closed _ => { result with
      closedCommits := result.closedCommits + 1, processed := result.processed + 1 }
  | _ => { result with openUpdates := result.openUpdates + 1, processed := result.processed + 1 }

end MockStreamResult

variable {F : Type}

def KlineUpdate.event (update : KlineUpdate F) : StreamEvent :=
  ⟨some update.eventTime, update.receivedAt, update.rawEventId⟩

/-- The checkpoint that a reconnection leaves. -/
def reconnectedCheckpoint (previous : Option StreamCheckpoint) (update : KlineUpdate F) :
    StreamCheckpoint where
  key := update.queueKey.1
  sourceTransport := "ws"
  lastClosedBarTime := previous.bind StreamCheckpoint.lastClosedBarTime
  lastEventTime := previous.bind StreamCheckpoint.lastEventTime
  lastReceivedAt := previous.bind StreamCheckpoint.lastReceivedAt
  lastReconnectAt := some (intOr update.receivedAt update.eventTime)
  consecutiveReconnects := (previous.map StreamCheckpoint.consecutiveReconnects).getD 0 + 1
  status := "reconnected"
  updatedAt := intOr update.receivedAt update.eventTime

/-- A backfilled bar has no event of its own. -/
def backfillEvent (bar : MarketBar F) : StreamEvent := ⟨bar.downloadedAt, bar.downloadedAt, none⟩

section Run

variable [PyText] [PyFloat F] [Sha256] [StreamHash]

/-- One bar of a backfill; only closed ones count. -/
def backfillBar (run : MockStreamResult × LiveStore F) (bar : MarketBar F) :
    Except PyError (MockStreamResult × LiveStore F) :=
  if bar.isClosed then do
    let committed ← run.2.commitClosed bar (backfillEvent bar)
    return ({ run.1 with backfilled := run.1.backfilled + 1 }, committed.2)
  else .ok run

def reconnect (backfillBars : List (MarketBar F)) (run : MockStreamResult × LiveStore F)
    (update : KlineUpdate F) : Except PyError (MockStreamResult × LiveStore F) := do
  let filled ← backfillBars.foldlM backfillBar
    ({ run.1 with reconnects := run.1.reconnects + 1 }, run.2)
  let previous ← filled.2.getCheckpoint update.queueKey.1
  let store ← filled.2.updateCheckpoint (reconnectedCheckpoint previous update)
  return (filled.1, store)

/-- A reconnection takes place before one update of the run, by its position. -/
def reconnectIfDue (backfillBars : List (MarketBar F)) (reconnectAfter : Option Int)
    (run : MockStreamResult × LiveStore F) (update : KlineUpdate F) :
    Except PyError (MockStreamResult × LiveStore F) :=
  if reconnectAfter = some (run.1.processed : Int) then reconnect backfillBars run update else .ok run

def storeUpdate (store : LiveStore F) (update : KlineUpdate F) (bar : MarketBar F) :
    Except PyError (UpdateResult × LiveStore F) :=
  if update.isClosed then store.commitClosed bar update.event else store.upsertOpen bar update.event

/-- One turn of the loop over the updates. -/
def processUpdate (backfillBars : List (MarketBar F)) (reconnectAfter : Option Int)
    (run : MockStreamResult × LiveStore F) (update : KlineUpdate F) :
    Except PyError (MockStreamResult × LiveStore F) := do
  let ready ← reconnectIfDue backfillBars reconnectAfter run update
  let bar ← update.toMarketBar none
  let taken ← storeUpdate ready.2 update bar
  return (ready.1.count taken.1, taken.2)

/-- The updates that the loop runs over, and the counters that it starts with. -/
def queued (updates : List (KlineUpdate F)) (queueMaxsize : Option Int) :
    Except PyError (List (KlineUpdate F) × MockStreamResult) :=
  match queueMaxsize with
  | none => .ok (updates, .start)
  | some maxsize => do
      let queue ← CoalescingKlineQueue.make maxsize
      let filled := queue.putAll updates
      return (filled.drain.1, { MockStreamResult.start with
        dropped := filled.dropped
        coalesced := filled.coalesced
        diagnostics := filled.diagnostics.map StreamDiagnostic.code })

/-- `MockWebSocketSupervisor.run` -/
def runStream (store : LiveStore F) (updates : List (KlineUpdate F)) (backfillBars : List (MarketBar F))
    (reconnectAfter : Option Int) (queueMaxsize : Option Int) :
    Except PyError (MockStreamResult × LiveStore F) := do
  let waiting ← queued updates queueMaxsize
  waiting.1.foldlM (processUpdate backfillBars reconnectAfter) (waiting.2, store)

omit [Sha256] [StreamHash] in
/-- The closed bars of a backfill on their way into the store. -/
def backfillArrivals (backfillBars : List (MarketBar F)) : Except PyError (List (Arrival F)) :=
  (backfillBars.filter (·.isClosed)).mapM fun bar => arrive bar (backfillEvent bar)

omit [Sha256] in
def KlineUpdate.arrive (update : KlineUpdate F) : Except PyError (Arrival F) := do
  let bar ← update.toMarketBar none
  MarketdataProvider.arrive bar update.event

omit [Sha256] [StreamHash] in
def dueArrivals (backfillBars : List (MarketBar F)) (reconnectAfter : Option Int) (processed : Nat) :
    Except PyError (List (Arrival F)) :=
  if reconnectAfter = some (processed : Int) then backfillArrivals backfillBars else .ok []

omit [Sha256] in
/-- What a run brings to the store: the candle of each update, and the backfill before the update that
follows a reconnection. -/
def streamArrivals (backfillBars : List (MarketBar F)) (reconnectAfter : Option Int) :
    Nat → List (KlineUpdate F) → Except PyError (List (Arrival F))
  | _, [] => .ok []
  | processed, update :: rest => do
      let filled ← dueArrivals backfillBars reconnectAfter processed
      let own ← update.arrive
      let later ← streamArrivals backfillBars reconnectAfter (processed + 1) rest
      return filled ++ own :: later

variable {store : LiveStore F} {backfillBars : List (MarketBar F)} {reconnectAfter : Option Int}
  {run final : MockStreamResult × LiveStore F} {update : KlineUpdate F} {updates : List (KlineUpdate F)}

omit [StreamHash] in
theorem view_backfill (filled : backfillBars.foldlM backfillBar run = .ok final) :
    final.1.processed = run.1.processed ∧ ∃ arrivals, backfillArrivals backfillBars = .ok arrivals ∧
      final.2.view = run.2.view.takeAll arrivals := by
  induction backfillBars generalizing run with
  | nil =>
      cases filled
      exact ⟨rfl, [], rfl, rfl⟩
  | cons bar bars ih =>
      rw [List.foldlM_cons, bind_eq_ok] at filled
      obtain ⟨middle, taken, rest⟩ := filled
      obtain ⟨processed, arrivals, made, seen⟩ := ih rest
      unfold backfillBar at taken
      split at taken
      · rename_i isClosed
        obtain ⟨⟨result, store⟩, committed, taken⟩ := bind_eq_ok.mp taken
        cases taken
        obtain ⟨arrival, arrived, step⟩ := view_commitClosed committed
        refine ⟨processed, arrival :: arrivals, ?_, ?_⟩
        · rw [backfillArrivals, List.filter_cons_of_pos (by simpa using isClosed), List.mapM_cons, arrived,
            ok_bind]
          rw [backfillArrivals] at made
          rw [made]
          rfl
        · rw [seen]
          exact congrArg (CandleView.takeAll · arrivals) step
      · rename_i isOpen
        cases taken
        refine ⟨processed, arrivals, ?_, seen⟩
        rwa [backfillArrivals, List.filter_cons_of_neg (by simpa using isOpen)]

omit [StreamHash] in
theorem view_reconnect (done : reconnect backfillBars run update = .ok final) :
    final.1.processed = run.1.processed ∧ ∃ arrivals, backfillArrivals backfillBars = .ok arrivals ∧
      final.2.view = run.2.view.takeAll arrivals := by
  obtain ⟨filled, folded, done⟩ := bind_eq_ok.mp done
  obtain ⟨previous, -, done⟩ := bind_eq_ok.mp done
  obtain ⟨store, marked, done⟩ := bind_eq_ok.mp done
  cases done
  obtain ⟨processed, arrivals, made, seen⟩ := view_backfill folded
  exact ⟨processed, arrivals, made, (view_updateCheckpoint marked).trans seen⟩

omit [StreamHash] in
theorem view_reconnectIfDue
    (done : reconnectIfDue backfillBars reconnectAfter run update = .ok final) :
    final.1.processed = run.1.processed ∧ ∃ arrivals,
      dueArrivals backfillBars reconnectAfter run.1.processed = .ok arrivals ∧
      final.2.view = run.2.view.takeAll arrivals := by
  unfold reconnectIfDue at done
  unfold dueArrivals
  split at done
  · rename_i due
    rw [if_pos due]
    exact view_reconnect done
  · rename_i notDue
    cases done
    rw [if_neg notDue]
    exact ⟨rfl, [], rfl, rfl⟩

omit [PyText] [Sha256] [StreamHash] in
theorem processed_count (result : MockStreamResult) (status : UpdateResult) :
    (result.count status).processed = result.processed + 1 := by
  cases status <;> rfl

/-- A turn of the loop brings the backfill, where one is due, and then the candle of its update. -/
theorem view_processUpdate
    (done : processUpdate backfillBars reconnectAfter run update = .ok final) :
    final.1.processed = run.1.processed + 1 ∧ ∃ filled own,
      dueArrivals backfillBars reconnectAfter run.1.processed = .ok filled ∧
      update.arrive = .ok own ∧ final.2.view = run.2.view.takeAll (filled ++ [own]) := by
  obtain ⟨ready, prepared, done⟩ := bind_eq_ok.mp done
  obtain ⟨bar, converted, done⟩ := bind_eq_ok.mp done
  obtain ⟨⟨status, store⟩, taken, done⟩ := bind_eq_ok.mp done
  cases done
  obtain ⟨processed, filled, made, seen⟩ := view_reconnectIfDue prepared
  rw [storeUpdate, upsertOpen_eq_commitClosed, ite_self] at taken
  obtain ⟨own, arrived, step⟩ := view_commitClosed taken
  refine ⟨by rw [processed_count, processed], filled, own, made, ?_, ?_⟩
  · rw [KlineUpdate.arrive, converted, ok_bind, arrived]
  · rw [CandleView.takeAll_append, ← seen]
    exact step

/-- A run takes all that it brings to the store, in turn. -/
theorem view_run
    (done : updates.foldlM (processUpdate backfillBars reconnectAfter) run = .ok final) :
    ∃ arrivals, streamArrivals backfillBars reconnectAfter run.1.processed updates = .ok arrivals ∧
      final.2.view = run.2.view.takeAll arrivals := by
  induction updates generalizing run with
  | nil =>
      cases done
      exact ⟨[], rfl, rfl⟩
  | cons update updates ih =>
      rw [List.foldlM_cons, bind_eq_ok] at done
      obtain ⟨middle, turned, rest⟩ := done
      obtain ⟨processed, filled, own, made, arrived, step⟩ := view_processUpdate turned
      obtain ⟨later, following, seen⟩ := ih rest
      refine ⟨filled ++ own :: later, ?_, ?_⟩
      · rw [processed] at following
        rw [streamArrivals, made, ok_bind, arrived, ok_bind, following, ok_bind]
        rfl
      · rw [seen, step, ← CandleView.takeAll_append, List.append_assoc, List.singleton_append]

omit [PyText] [PyFloat F] [Sha256] [StreamHash] in
/-- The queue hands on the last update of each candle, in the order in which the candles arrived. -/
theorem queued_of_few {maxsize : Int} {waiting : List (KlineUpdate F) × MockStreamResult}
    (few : ((updates.map KlineUpdate.queueKey).dedup.length : Int) ≤ maxsize)
    (taken : queued updates (some maxsize) = .ok waiting) :
    waiting.1 = Keyed.upsertAll KlineUpdate.queueKey [] updates ∧ waiting.2.processed = 0 ∧
      waiting.2.dropped = 0 ∧ waiting.2.diagnostics = [] := by
  obtain ⟨queue, made, taken⟩ := bind_eq_ok.mp taken
  cases taken
  obtain ⟨empty, noneDropped, noDiagnostics, size⟩ := CoalescingKlineQueue.make_ok made
  have room : ((queue.items ++ updates).map KlineUpdate.queueKey).dedup.length ≤ queue.maxsize := by
    rw [empty, List.nil_append, size]
    omega
  obtain ⟨items, dropped, diagnostics⟩ := CoalescingKlineQueue.putAll_items room
  rw [empty] at items
  exact ⟨items, rfl, dropped.trans noneDropped, by simp [diagnostics, noDiagnostics]⟩

/-- What a run leaves behind, for a queue with room for each candle or none at all. -/
theorem view_runStream {queueMaxsize : Option Int}
    (few : ∀ maxsize, queueMaxsize = some maxsize →
      ((updates.map KlineUpdate.queueKey).dedup.length : Int) ≤ maxsize)
    (done : runStream store updates backfillBars reconnectAfter queueMaxsize = .ok final) :
    ∃ arrivals, streamArrivals backfillBars reconnectAfter 0 (if queueMaxsize.isSome then
        Keyed.upsertAll KlineUpdate.queueKey [] updates else updates) = .ok arrivals ∧
      final.2.view = store.view.takeAll arrivals := by
  obtain ⟨⟨waiting, counters⟩, taken, turns⟩ := bind_eq_ok.mp done
  cases queueMaxsize with
  | none =>
      cases taken
      exact view_run turns
  | some maxsize =>
      obtain ⟨kept, processed, -⟩ := queued_of_few (few maxsize rfl) taken
      obtain ⟨arrivals, made, seen⟩ := view_run turns
      rw [processed, show waiting = _ from kept] at made
      exact ⟨arrivals, made, seen⟩

/-- Without an overflow a stream leaves the same through the queue as without it exactly when, for each
slot that was free, the first close of all updates is that of the kept ones, and for each row the last
update in time has the same effect among both. -/
theorem coalescing_preserves_outcome_iff {maxsize : Int} {direct throughQueue : MockStreamResult × LiveStore F}
    (few : ((updates.map KlineUpdate.queueKey).dedup.length : Int) ≤ maxsize)
    (without : runStream store updates backfillBars reconnectAfter none = .ok direct)
    (withQueue : runStream store updates backfillBars reconnectAfter (some maxsize) = .ok throughQueue) :
    ∃ all kept, streamArrivals backfillBars reconnectAfter 0 updates = .ok all ∧
      streamArrivals backfillBars reconnectAfter 0 (Keyed.upsertAll KlineUpdate.queueKey [] updates) =
        .ok kept ∧
      (direct.2.SameOutcome throughQueue.2 ↔ store.view.SameEffect all kept) := by
  obtain ⟨all, made, seen⟩ := view_runStream (fun _ => by simp) without
  obtain ⟨kept, madeKept, seenKept⟩ := view_runStream (by simpa using few) withQueue
  refine ⟨all, kept, made, madeKept, ?_⟩
  rw [sameOutcome_iff, seen, seenKept]
  exact CandleView.takeAll_eq_iff

end Run

end MarketdataProvider

namespace MarketdataProvider

open Foundation Reference
open scoped Reference

namespace Reference

def freshLive : LiveStore Whole := ⟨fun _ => none, ⟨[], Keyed.distinct_nil⟩, []⟩

def openQuarterUpdate : KlineUpdate Whole := { quarterUpdate with isClosed := false }

def quarterPlace : List String :=
  ["v1", "exchange=bybit", "market=linear", "symbol=BTCUSDT", "source=trade_kline", "timeframe=15m"]

def quarterRun (updates : List (KlineUpdate Whole)) (queueMaxsize : Option Int) :
    Except PyError (MockStreamResult × LiveStore Whole) :=
  runStream freshLive updates [] none queueMaxsize

def quarterCount (run : MockStreamResult × LiveStore Whole) : Nat :=
  (storedBars (run.2.series quarterPlace)).length

end Reference

/-- A candle that is open first and closed afterwards, with and without a queue for one candle. -/
theorem coalescing_preserves_outcome_quarter :
    ∃ direct throughQueue all kept, quarterRun [openQuarterUpdate, quarterUpdate] none = .ok direct ∧
      quarterRun [openQuarterUpdate, quarterUpdate] (some 1) = .ok throughQueue ∧
      streamArrivals [] none 0 [openQuarterUpdate, quarterUpdate] = .ok all ∧
      streamArrivals [] none 0 (Keyed.upsertAll KlineUpdate.queueKey []
        [openQuarterUpdate, quarterUpdate]) = .ok kept ∧
      (direct.2.SameOutcome throughQueue.2 ↔ freshLive.view.SameEffect all kept) := by
  obtain ⟨direct, without⟩ : ∃ run, quarterRun [openQuarterUpdate, quarterUpdate] none = .ok run :=
    eq_ok_of_toBool (by decide +kernel)
  obtain ⟨throughQueue, withQueue⟩ :
      ∃ run, quarterRun [openQuarterUpdate, quarterUpdate] (some 1) = .ok run :=
    eq_ok_of_toBool (by decide +kernel)
  obtain ⟨all, kept, made, madeKept, same⟩ := coalescing_preserves_outcome_iff (by decide) without withQueue
  exact ⟨direct, throughQueue, all, kept, without, withQueue, made, madeKept, same⟩

/-- A late open update takes the place of the closed one in the queue, and the closed candle is lost. -/
theorem late_open_loses_close :
    ([quarterUpdate, openQuarterUpdate].map KlineUpdate.queueKey).dedup.length = 1 ∧
      ∃ direct throughQueue, quarterRun [quarterUpdate, openQuarterUpdate] none = .ok direct ∧
        quarterRun [quarterUpdate, openQuarterUpdate] (some 1) = .ok throughQueue ∧
        quarterCount direct = 1 ∧ quarterCount throughQueue = 0 ∧
        ¬ direct.2.SameOutcome throughQueue.2 := by
  obtain ⟨direct, without, stored⟩ := Option.map_eq_some_iff.mp
    (show (quarterRun [quarterUpdate, openQuarterUpdate] none).toOption.map quarterCount = some 1 by
      decide +kernel)
  obtain ⟨throughQueue, withQueue, lost⟩ := Option.map_eq_some_iff.mp
    (show (quarterRun [quarterUpdate, openQuarterUpdate] (some 1)).toOption.map quarterCount = some 0 by
      decide +kernel)
  refine ⟨by decide, direct, throughQueue, eq_ok_of_toOption without, eq_ok_of_toOption withQueue, stored,
    lost, fun same => ?_⟩
  have lengths := congrArg List.length (same.1 quarterPlace)
  change quarterCount direct = quarterCount throughQueue at lengths
  omega

end MarketdataProvider
