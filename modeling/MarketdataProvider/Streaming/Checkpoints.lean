import MarketdataProvider.Foundation.Trail
import MarketdataProvider.Streaming.Supervisor
import Mathlib.Data.List.Find

namespace MarketdataProvider

open Foundation Foundation.Trail

/-- What a call does to the store, one write at a time. -/
inductive CandleStep (F : Type) where
  | take (bar : MarketBar F) (event : StreamEvent)
  | reconnected (update : KlineUpdate F)

/-- A call that brings candles to the store. -/
inductive CandleCall (F : Type) where
  | commitClosed (bar : MarketBar F) (event : StreamEvent)
  | upsertOpen (bar : MarketBar F) (event : StreamEvent)
  | run (updates : List (KlineUpdate F)) (backfillBars : List (MarketBar F))
      (reconnectAfter queueMaxsize : Option Int)

namespace CandleStep

variable {F : Type}

def key : CandleStep F → SeriesKey
  | take bar _ => bar.key
  | reconnected update => update.queueKey.1

/-- The open time of the closed bar that a step takes, if it takes one. -/
def closedTime : CandleStep F → Option Int
  | take bar _ => if bar.isClosed then some bar.time else none
  | reconnected _ => none

variable [PyText] [PyFloat F] [Sha256]

def perform (store : LiveStore F) : CandleStep F → Except PyError (LiveStore F)
  | take bar event => Prod.snd <$> store.commitClosed bar event
  | reconnected update => do
      let previous ← store.getCheckpoint update.queueKey.1
      store.updateCheckpoint (reconnectedCheckpoint previous update)

end CandleStep

section Calls

variable [PyText] {F : Type} [PyFloat F] [Sha256] [StreamHash]

omit [PyText] [PyFloat F] [Sha256] [StreamHash] in
/-- The writes of a reconnection: the closed bars of the backfill and then the checkpoint. -/
def reconnectSteps (backfillBars : List (MarketBar F)) (update : KlineUpdate F) :
    List (Except PyError (CandleStep F)) :=
  (backfillBars.filter (·.isClosed)).map (fun bar => .ok (.take bar (backfillEvent bar))) ++
    [.ok (.reconnected update)]

omit [PyText] [PyFloat F] [Sha256] [StreamHash] in
def dueSteps (backfillBars : List (MarketBar F)) (reconnectAfter : Option Int) (processed : Nat)
    (update : KlineUpdate F) : List (Except PyError (CandleStep F)) :=
  if reconnectAfter = some (processed : Int) then reconnectSteps backfillBars update else []

omit [Sha256] in
def turnSteps (backfillBars : List (MarketBar F)) (reconnectAfter : Option Int) :
    Nat → List (KlineUpdate F) → List (Except PyError (CandleStep F))
  | _, [] => []
  | processed, update :: rest =>
      dueSteps backfillBars reconnectAfter processed update ++
        (fun bar => .take bar update.event) <$> update.toMarketBar none ::
          turnSteps backfillBars reconnectAfter (processed + 1) rest

namespace CandleCall

omit [Sha256] in
/-- The writes of a call in their order. -/
def steps : CandleCall F → List (Except PyError (CandleStep F))
  | commitClosed bar event => [.ok (.take bar event)]
  | upsertOpen bar event => [.ok (.take bar event)]
  | run updates backfillBars reconnectAfter queueMaxsize =>
      match queued updates queueMaxsize with
      | .error error => [.error error]
      | .ok waiting => turnSteps backfillBars reconnectAfter 0 waiting.1

def perform (store : LiveStore F) : CandleCall F → Except PyError (LiveStore F)
  | commitClosed bar event => Prod.snd <$> store.commitClosed bar event
  | upsertOpen bar event => Prod.snd <$> store.upsertOpen bar event
  | run updates backfillBars reconnectAfter queueMaxsize =>
      Prod.snd <$> runStream store updates backfillBars reconnectAfter queueMaxsize

omit [Sha256] in
/-- All that a call writes is about one series, whose key is in its stored form. -/
def OnSeries (key : SeriesKey) (call : CandleCall F) : Prop :=
  ∀ step, .ok step ∈ call.steps → normalizedKey step.key = .ok key

end CandleCall

/-- The writes of a series of calls, each with the store that it leaves; a call that fails leaves what
its earlier writes have left. -/
def storeHistory (store : LiveStore F) (calls : List (CandleCall F)) :
    List (CandleStep F × LiveStore F) :=
  history CandleStep.perform store (calls.map CandleCall.steps)

/-- `last_closed_bar_time` of the checkpoint that `get_checkpoint` finds. -/
def lastClosedBarTime (key : SeriesKey) (checkpoints : List StreamCheckpoint) : Option Int :=
  (checkpoints.find? fun checkpoint => checkpoint.key = key).bind StreamCheckpoint.lastClosedBarTime

/-- The last closed time of a series in a store. -/
def LiveStore.lastClosed (key : SeriesKey) (store : LiveStore F) : Option Int :=
  lastClosedBarTime key store.checkpoints

variable {store next final : LiveStore F} {key : SeriesKey} {bar : MarketBar F} {event : StreamEvent}
  {backfillBars : List (MarketBar F)} {reconnectAfter : Option Int} {update : KlineUpdate F}
  {updates : List (KlineUpdate F)} {run : MockStreamResult × LiveStore F} {step : CandleStep F}

omit [StreamHash] in
theorem backfillBar_step (isClosed : bar.isClosed = true) : Prod.snd <$> backfillBar run bar =
    CandleStep.perform run.2 (.take bar (backfillEvent bar)) := by
  rw [backfillBar, if_pos isClosed, CandleStep.perform]
  cases run.2.commitClosed bar (backfillEvent bar) <;> rfl

omit [StreamHash] in
theorem backfill_steps : Prod.snd <$> backfillBars.foldlM backfillBar run =
    performAll CandleStep.perform run.2
      ((backfillBars.filter (·.isClosed)).map fun bar => .ok (.take bar (backfillEvent bar))) := by
  induction backfillBars generalizing run with
  | nil => rfl
  | cons bar bars ih =>
      rw [List.foldlM_cons]
      cases isClosed : bar.isClosed with
      | false =>
          rw [List.filter_cons_of_neg (by simp [isClosed]), backfillBar, if_neg (by simp [isClosed]), ok_bind]
          exact ih
      | true =>
          rw [List.filter_cons_of_pos isClosed, List.map_cons, performAll_cons, ← backfillBar_step isClosed]
          cases backfillBar run bar with
          | error error => rfl
          | ok filled => exact ih

omit [StreamHash] in
theorem reconnect_steps : Prod.snd <$> reconnect backfillBars run update =
    performAll CandleStep.perform run.2 (reconnectSteps backfillBars update) := by
  let counted := { run.1 with reconnects := run.1.reconnects + 1 }
  have filled : Prod.snd <$> backfillBars.foldlM backfillBar (counted, run.2) =
      performAll CandleStep.perform run.2
        ((backfillBars.filter (·.isClosed)).map fun bar => .ok (.take bar (backfillEvent bar))) :=
    backfill_steps
  rw [reconnectSteps, performAll_append, ← filled, reconnect]
  cases backfillBars.foldlM backfillBar (counted, run.2) with
  | error error => rfl
  | ok filled =>
      change _ = performAll CandleStep.perform filled.2 [.ok (.reconnected update)]
      rw [ok_bind, performAll_single, CandleStep.perform]
      cases filled.2.getCheckpoint update.queueKey.1 with
      | error error => rfl
      | ok previous =>
          rw [ok_bind, ok_bind]
          cases filled.2.updateCheckpoint (reconnectedCheckpoint previous update) <;> rfl

omit [StreamHash] in
theorem reconnectIfDue_steps : Prod.snd <$> reconnectIfDue backfillBars reconnectAfter run update =
    performAll CandleStep.perform run.2
      (dueSteps backfillBars reconnectAfter run.1.processed update) := by
  unfold reconnectIfDue dueSteps
  split
  · exact reconnect_steps
  · rfl

/-- A turn of the loop is the reconnection, where one is due, and then the candle of its update. -/
theorem processUpdate_steps : Prod.snd <$> processUpdate backfillBars reconnectAfter run update =
    performAll CandleStep.perform run.2
      (dueSteps backfillBars reconnectAfter run.1.processed update ++
        [(fun bar => .take bar update.event) <$> update.toMarketBar none]) := by
  rw [performAll_append, ← reconnectIfDue_steps, processUpdate]
  cases reconnectIfDue backfillBars reconnectAfter run update with
  | error error => rfl
  | ok ready =>
      rw [ok_bind]
      cases update.toMarketBar none with
      | error error => rfl
      | ok bar =>
          change _ = performAll CandleStep.perform ready.2 [.ok (.take bar update.event)]
          rw [ok_bind, performAll_single, storeUpdate, upsertOpen_eq_commitClosed, ite_self, CandleStep.perform]
          cases ready.2.commitClosed bar update.event <;> rfl

theorem turns_steps : Prod.snd <$> updates.foldlM (processUpdate backfillBars reconnectAfter) run =
    performAll CandleStep.perform run.2
      (turnSteps backfillBars reconnectAfter run.1.processed updates) := by
  induction updates generalizing run with
  | nil => rfl
  | cons update updates ih =>
      rw [List.foldlM_cons, turnSteps, ← List.singleton_append, ← List.append_assoc, performAll_append,
        ← processUpdate_steps]
      cases turned : processUpdate backfillBars reconnectAfter run update with
      | error error => rfl
      | ok middle =>
          rw [← (view_processUpdate turned).1]
          exact ih

omit [PyText] [PyFloat F] [Sha256] [StreamHash] in
theorem queued_processed {queueMaxsize : Option Int} {waiting : List (KlineUpdate F) × MockStreamResult}
    (taken : queued updates queueMaxsize = .ok waiting) : waiting.2.processed = 0 := by
  cases queueMaxsize with
  | none =>
      cases taken
      rfl
  | some maxsize =>
      obtain ⟨queue, -, taken⟩ := bind_eq_ok.mp taken
      cases taken
      rfl

/-- A call does its writes in turn, and fails as the first of them that fails. -/
theorem perform_steps (call : CandleCall F) :
    call.perform store = performAll CandleStep.perform store call.steps := by
  cases call with
  | commitClosed bar event =>
      rw [CandleCall.steps, performAll_single]
      rfl
  | upsertOpen bar event =>
      rw [CandleCall.steps, performAll_single, CandleCall.perform, upsertOpen_eq_commitClosed]
      rfl
  | run updates backfillBars reconnectAfter queueMaxsize =>
      rw [CandleCall.perform, runStream, CandleCall.steps]
      cases taken : queued updates queueMaxsize with
      | error error => rfl
      | ok waiting =>
          rw [ok_bind, turns_steps, queued_processed taken]

/-- The only checkpoint of a series is the one that a stream leaves. -/
def OnlyStream (key : SeriesKey) (checkpoints : List StreamCheckpoint) : Prop :=
  ∀ checkpoint ∈ checkpoints, checkpoint.key = key → checkpoint.sourceTransport = "ws"

omit [PyText] [Sha256] [StreamHash] in
theorem find_onlyStream {checkpoints : List StreamCheckpoint} (only : OnlyStream key checkpoints) :
    (checkpoints.find? fun checkpoint => checkpoint.key = key) =
      Keyed.find StreamCheckpoint.id checkpoints (key, "ws") := by
  apply List.find?_congr
  intro checkpoint member
  have own := only checkpoint member
  by_cases same : checkpoint.key = key
  · simp [StreamCheckpoint.id, same, own same]
  · simp [StreamCheckpoint.id, same]

omit [Sha256] [StreamHash] in
theorem getCheckpoint_last {previous : Option StreamCheckpoint} {own : SeriesKey}
    (found : store.getCheckpoint own = .ok previous) (named : normalizedKey own = .ok key) :
    previous.bind StreamCheckpoint.lastClosedBarTime = lastClosedBarTime key store.checkpoints := by
  rw [LiveStore.getCheckpoint, named, ok_bind] at found
  cases found
  rfl

omit [Sha256] [StreamHash] in
theorem updateCheckpoint_last {checkpoint : StreamCheckpoint}
    (updated : store.updateCheckpoint checkpoint = .ok next)
    (named : normalizedKey checkpoint.key = .ok key) (stream : checkpoint.sourceTransport = "ws")
    (only : OnlyStream key store.checkpoints) :
    OnlyStream key next.checkpoints ∧
      lastClosedBarTime key next.checkpoints = checkpoint.lastClosedBarTime := by
  rw [LiveStore.updateCheckpoint, named, ok_bind] at updated
  cases updated
  have kept : OnlyStream key
      (Keyed.upsert StreamCheckpoint.id store.checkpoints { checkpoint with key }) := by
    intro other member own
    cases Keyed.mem_upsert member with
    | inl new => exact new ▸ stream
    | inr old => exact only other old own
  have found : Keyed.find StreamCheckpoint.id
      (Keyed.upsert StreamCheckpoint.id store.checkpoints { checkpoint with key }) (key, "ws") =
        some { checkpoint with key } := by
    rw [Keyed.find_upsert, if_pos (by simp [StreamCheckpoint.id, stream])]
  exact ⟨kept, congrArg (Option.bind · StreamCheckpoint.lastClosedBarTime) ((find_onlyStream kept).trans found)⟩

omit [Sha256] [StreamHash] in
theorem touchEventCheckpoint_last (touched : store.touchEventCheckpoint bar event = .ok next)
    (named : normalizedKey bar.key = .ok key) (only : OnlyStream key store.checkpoints) :
    OnlyStream key next.checkpoints ∧
      lastClosedBarTime key next.checkpoints = lastClosedBarTime key store.checkpoints := by
  obtain ⟨previous, found, marked⟩ := bind_eq_ok.mp touched
  obtain ⟨kept, last⟩ := updateCheckpoint_last marked named rfl only
  exact ⟨kept, last.trans (getCheckpoint_last found named)⟩

omit [Sha256] [StreamHash] in
theorem closedCheckpoint_last (closed : store.closedCheckpoint bar event = .ok next)
    (named : normalizedKey bar.key = .ok key) (only : OnlyStream key store.checkpoints) :
    OnlyStream key next.checkpoints ∧ lastClosedBarTime key next.checkpoints = some bar.time := by
  obtain ⟨previous, -, marked⟩ := bind_eq_ok.mp closed
  exact updateCheckpoint_last marked named rfl only

omit [StreamHash] in
/-- A closed candle sets the last closed time of its series; an open one leaves it. -/
theorem commitClosed_last {result : UpdateResult}
    (committed : store.commitClosed bar event = .ok (result, next))
    (named : normalizedKey bar.key = .ok key) (only : OnlyStream key store.checkpoints) :
    OnlyStream key next.checkpoints ∧ lastClosedBarTime key next.checkpoints =
      (if bar.isClosed then some bar.time else none).or (lastClosedBarTime key store.checkpoints) := by
  unfold LiveStore.commitClosed at committed
  split at committed
  · rename_i isOpen
    rw [if_neg (by simpa using isOpen), Option.none_or]
    obtain ⟨directory, -, committed⟩ := bind_eq_ok.mp committed
    split at committed
    · cases committed
      exact ⟨only, rfl⟩
    · obtain ⟨table, -, committed⟩ := bind_eq_ok.mp committed
      obtain ⟨touched, marked, committed⟩ := bind_eq_ok.mp committed
      cases committed
      have moved := touchEventCheckpoint_last marked named only
      exact moved
  · rename_i isClosed
    rw [if_pos (by simpa using isClosed), Option.some_or]
    obtain ⟨directory, -, committed⟩ := bind_eq_ok.mp committed
    obtain ⟨taken, -, committed⟩ := bind_eq_ok.mp committed
    obtain ⟨table, -, committed⟩ := bind_eq_ok.mp committed
    obtain ⟨closed, marked, committed⟩ := bind_eq_ok.mp committed
    cases committed
    have moved := closedCheckpoint_last marked named only
    exact moved

omit [StreamHash] in
theorem step_last (performed : step.perform store = .ok next)
    (named : normalizedKey step.key = .ok key) (only : OnlyStream key store.checkpoints) :
    OnlyStream key next.checkpoints ∧
      next.lastClosed key = step.closedTime.or (store.lastClosed key) := by
  cases step with
  | take bar event =>
      obtain ⟨⟨result, final⟩, committed, same⟩ := map_eq_ok.mp performed
      subst same
      exact commitClosed_last committed named only
  | reconnected update =>
      obtain ⟨previous, found, marked⟩ := bind_eq_ok.mp performed
      obtain ⟨kept, last⟩ := updateCheckpoint_last marked named rfl only
      exact ⟨kept, last.trans (getCheckpoint_last found named)⟩

omit [StreamHash] in
/-- The last closed time of a series is a register that each closed candle overwrites. -/
theorem lastClosed_register (key : SeriesKey) :
    Register CandleStep.perform (fun store : LiveStore F => OnlyStream key store.checkpoints)
      (fun step => normalizedKey step.key = .ok key) (LiveStore.lastClosed key) CandleStep.closedTime where
  keeps only named performed := (step_last performed named only).1
  writes only named performed := (step_last performed named only).2

/-- The closed bars that a history has taken, by their open times. -/
def closedTimes (done : List (CandleStep F × LiveStore F)) : List Int := marks CandleStep.closedTime done

theorem admits_history {calls : List (CandleCall F)} (own : ∀ call ∈ calls, call.OnSeries key) :
    ∀ entry ∈ storeHistory store calls, normalizedKey entry.1.key = .ok key := by
  intro entry member
  obtain ⟨steps, inside, formed⟩ := mem_history member
  obtain ⟨call, called, rfl⟩ := List.mem_map.mp inside
  exact own call called entry.1 formed

/-- In a series without a checkpoint the last closed time never falls, and each call leaves the highest
open time of the closed bars taken so far, exactly when no closed bar that the store takes is older than
the last closed time before it. -/
theorem checkpoint_highest_iff {calls : List (CandleCall F)}
    (fresh : ∀ checkpoint ∈ store.checkpoints, checkpoint.key ≠ key)
    (own : ∀ call ∈ calls, call.OnSeries key) :
    (NeverFalls (LiveStore.lastClosed key) store (storeHistory store calls) ∧
      ∀ earlier later, calls = earlier ++ later →
        (lastState store (storeHistory store earlier)).lastClosed key =
          (closedTimes (storeHistory store earlier)).max?) ↔
      Ahead (LiveStore.lastClosed key) CandleStep.closedTime store (storeHistory store calls) := by
  have only : OnlyStream key store.checkpoints := fun checkpoint member same =>
    absurd same (fresh checkpoint member)
  have clear : store.lastClosed key = none := by
    have missing : (store.checkpoints.find? fun checkpoint => checkpoint.key = key) = none := by
      simpa using fresh
    rw [LiveStore.lastClosed, lastClosedBarTime, missing]
    rfl
  have register := lastClosed_register (F := F) key
  constructor
  · rintro ⟨steady, -⟩
    exact register.ahead_of_neverFalls only follows_history (admits_history own) steady
  · intro ahead
    refine ⟨register.neverFalls_of_ahead only clear follows_history (admits_history own) ahead, ?_⟩
    intro earlier later whole
    subst whole
    have front : ∀ call ∈ earlier, call.OnSeries key := fun call member =>
      own call (List.mem_append_left _ member)
    rw [storeHistory, List.map_append, history_append] at ahead
    exact register.reads_last only clear follows_history (admits_history front) (ahead_front ahead)

omit [Sha256] in
theorem onSeries_of_all {call : CandleCall F}
    (each : call.steps.all (fun step => step.toOption.all fun step =>
      (normalizedKey step.key).toOption = some key) = true) : call.OnSeries key := by
  intro step member
  have own := List.all_eq_true.mp each _ member
  exact eq_ok_of_toOption (of_decide_eq_true own)

end Calls

end MarketdataProvider

namespace MarketdataProvider

open Foundation Foundation.Trail Reference
open scoped Reference

namespace Reference

def nextQuarterUpdate : KlineUpdate Whole :=
  { quarterUpdate with
    eventTime := 1800000, openTime := 900000, closeTime := 1799999
    rawEventId := some "kline.15.BTCUSDT:1800000" }

def quarterSeries : SeriesKey := ⟨"bybit", "linear", "BTCUSDT", "15m", "trade_kline"⟩

/-- The candle of the first quarter as a bar. -/
def quarterCandle : MarketBar Whole :=
  { candle 0 with
    timeClose := some 899999, exchange := "bybit", market := "linear", timeframe := "15m" }

def inOrder : List (CandleCall Whole) :=
  [.commitClosed quarterCandle ⟨none, none, none⟩, .run [nextQuarterUpdate] [] none none]

/-- A reconnection after the second quarter that backfills the first one. -/
def lateBackfill : List (CandleCall Whole) :=
  [.run [nextQuarterUpdate, { nextQuarterUpdate with isClosed := false }] [quarterCandle] (some 1) none]

end Reference

theorem checkpoint_highest_inOrder :
    (NeverFalls (LiveStore.lastClosed quarterSeries) freshLive (storeHistory freshLive inOrder) ∧
      ∀ earlier later, inOrder = earlier ++ later →
        (lastState freshLive (storeHistory freshLive earlier)).lastClosed quarterSeries =
          (closedTimes (storeHistory freshLive earlier)).max?) ↔
      Ahead (LiveStore.lastClosed quarterSeries) CandleStep.closedTime freshLive
        (storeHistory freshLive inOrder) := by
  apply checkpoint_highest_iff
  · intro checkpoint member
    cases member
  · intro call member
    apply onSeries_of_all
    cases member with
    | head => decide +kernel
    | tail _ member =>
        cases member with
        | head => decide +kernel
        | tail _ none => cases none

/-- The backfilled candle moves the last closed time back. -/
theorem backfill_moves_checkpoint_back :
    (∀ call ∈ lateBackfill, call.OnSeries quarterSeries) ∧
      ¬ (NeverFalls (LiveStore.lastClosed quarterSeries) freshLive (storeHistory freshLive lateBackfill) ∧
        ∀ earlier later, lateBackfill = earlier ++ later →
          (lastState freshLive (storeHistory freshLive earlier)).lastClosed quarterSeries =
            (closedTimes (storeHistory freshLive earlier)).max?) := by
  constructor
  · intro call member
    apply onSeries_of_all
    cases member with
    | head => decide +kernel
    | tail _ none => cases none
  · rintro ⟨-, highest⟩
    have last : (lastState freshLive (storeHistory freshLive lateBackfill)).lastClosed quarterSeries =
        some 0 := by decide +kernel
    have closed : (closedTimes (storeHistory freshLive lateBackfill)).max? = some 900000 := by
      decide +kernel
    have same := highest lateBackfill [] rfl
    rw [last, closed] at same
    cases same

end MarketdataProvider
