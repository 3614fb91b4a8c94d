import MarketdataProvider.Store.LiveStore

namespace MarketdataProvider

open Foundation

variable {F : Type}

abbrev CandleSlot := List String × Int

/-- A candle on its way into a store: the series that it belongs to, and the row it would leave. -/
structure Arrival (F : Type) where
  directory : List String
  bar : MarketBar F
  row : LiveRow F

namespace Arrival

def slot (arrival : Arrival F) : CandleSlot := (arrival.directory, arrival.bar.time)

/-- A closed candle removes its row, an open one replaces it. -/
def effect (arrival : Arrival F) : Option (LiveRow F) :=
  if arrival.bar.isClosed then none else some arrival.row

def closes (arrival : Arrival F) (slot : CandleSlot) : Bool :=
  arrival.bar.isClosed && arrival.slot = slot

end Arrival

/-- The bar of the first closed candle of a slot. -/
def firstClosed (arrivals : List (Arrival F)) (slot : CandleSlot) : Option (MarketBar F) :=
  (arrivals.find? fun arrival => arrival.closes slot).map Arrival.bar

/-- The arrivals without the open candles that come when their slot is closed already. -/
def effective (closed : CandleSlot → Bool) : List (Arrival F) → List (Arrival F)
  | [] => []
  | arrival :: rest =>
      let later := effective (fun slot => closed slot || arrival.closes slot) rest
      if arrival.bar.isClosed || !closed arrival.slot then arrival :: later else later

/-- What can be asked of a store: the closed bar of a slot and the open row of a candle. -/
@[ext] structure CandleView (F : Type) where
  bars : CandleSlot → Option (MarketBar F)
  rows : CandleId → Option (LiveRow F)

namespace CandleView

/-- The first closed candle of a slot stays, and an open candle has to come before it. -/
def take (view : CandleView F) (arrival : Arrival F) : CandleView F :=
  if arrival.bar.isClosed then {
    bars := fun slot => (view.bars slot).or (if slot = arrival.slot then some arrival.bar else none)
    rows := Function.update view.rows arrival.row.id none }
  else if (view.bars arrival.slot).isSome then view
  else { view with rows := Function.update view.rows arrival.row.id (some arrival.row) }

def takeAll (view : CandleView F) (arrivals : List (Arrival F)) : CandleView F :=
  arrivals.foldl take view

/-- What the last effective arrival of a candle leaves in its row. -/
def rowLeft (view : CandleView F) (arrivals : List (Arrival F)) (id : CandleId) : Option (LiveRow F) :=
  (((effective (fun slot => (view.bars slot).isSome) arrivals).filter
    (·.row.id = id)).getLast?).elim (view.rows id) Arrival.effect

/-- Two sequences of arrivals close the same bars first and leave the same rows. -/
structure SameEffect (view : CandleView F) (all kept : List (Arrival F)) : Prop where
  bars : ∀ slot, view.bars slot = none → firstClosed all slot = firstClosed kept slot
  rows : ∀ id, view.rowLeft all id = view.rowLeft kept id

variable {view : CandleView F} {arrival : Arrival F} {arrivals all kept : List (Arrival F)}
  {slot : CandleSlot} {id : CandleId}

theorem takeAll_append : view.takeAll (all ++ kept) = (view.takeAll all).takeAll kept :=
  List.foldl_append

theorem bars_take : (view.take arrival).bars slot =
    (view.bars slot).or (if arrival.closes slot then some arrival.bar else none) := by
  unfold take
  split
  · rename_i closed
    simp [Arrival.closes, closed, eq_comm]
  · rename_i notClosed
    simp only [Arrival.closes, notClosed, Bool.false_and]
    split <;> simp

theorem rows_take : (view.take arrival).rows id =
    if (arrival.bar.isClosed || !(view.bars arrival.slot).isSome) = true ∧ arrival.row.id = id then
      arrival.effect
    else view.rows id := by
  unfold take Arrival.effect
  by_cases closed : arrival.bar.isClosed
  · by_cases own : id = arrival.row.id
    · simp [closed, own]
    · simp [closed, own, Ne.symm own]
  · cases stored : view.bars arrival.slot with
    | some bar => simp [closed]
    | none =>
        by_cases own : id = arrival.row.id
        · simp [closed, own]
        · simp [closed, own, Ne.symm own]

/-- A slot keeps its bar, or else takes that of the first closed candle. -/
theorem bars_takeAll : (view.takeAll arrivals).bars slot =
    (view.bars slot).or (firstClosed arrivals slot) := by
  induction arrivals generalizing view with
  | nil => exact Option.or_none.symm
  | cons arrival arrivals ih =>
      have step : view.takeAll (arrival :: arrivals) = (view.take arrival).takeAll arrivals := rfl
      rw [step, ih, bars_take, Option.or_assoc, firstClosed, firstClosed, List.find?_cons]
      cases arrival.closes slot with
      | true => rfl
      | false => rfl

theorem closed_take : (fun slot => ((view.take arrival).bars slot).isSome) =
    fun slot => (view.bars slot).isSome || arrival.closes slot := by
  funext slot
  rw [bars_take]
  cases view.bars slot <;> cases arrival.closes slot <;> rfl

theorem rows_takeAll : (view.takeAll arrivals).rows id = view.rowLeft arrivals id := by
  induction arrivals generalizing view with
  | nil => rfl
  | cons arrival arrivals ih =>
      have step : view.takeAll (arrival :: arrivals) = (view.take arrival).takeAll arrivals := rfl
      rw [step, ih, rowLeft, rowLeft, closed_take, rows_take, effective]
      by_cases acts : (arrival.bar.isClosed || !(view.bars arrival.slot).isSome) = true
      · rw [if_pos acts, List.filter_cons]
        by_cases own : arrival.row.id = id
        · rw [if_pos ⟨acts, own⟩, if_pos (decide_eq_true own), List.getLast?_cons]
          cases List.getLast? _ with
          | none => rfl
          | some last => rfl
        · rw [if_neg fun both => own both.2, if_neg (by simpa using own)]
      · rw [if_neg acts, if_neg fun both => acts both.1]

/-- The arrivals have the same effect exactly when they lead to the same view. -/
theorem takeAll_eq_iff : view.takeAll all = view.takeAll kept ↔ view.SameEffect all kept := by
  constructor
  · intro same
    refine ⟨fun slot free => ?_, fun id => ?_⟩
    · have stored := congrFun (congrArg bars same) slot
      rwa [bars_takeAll, bars_takeAll, free, Option.none_or, Option.none_or] at stored
    · have left := congrFun (congrArg rows same) id
      rwa [rows_takeAll, rows_takeAll] at left
  · intro effect
    apply CandleView.ext
    · funext slot
      rw [bars_takeAll, bars_takeAll]
      cases stored : view.bars slot with
      | some bar => rfl
      | none => rw [effect.bars slot stored]
    · funext id
      rw [rows_takeAll, rows_takeAll, effect.rows id]

end CandleView

section Refinement

variable [PyText] [PyFloat F] {store after : LiveStore F} {bar : MarketBar F} {event : StreamEvent}
  {result : UpdateResult}

def arrive (bar : MarketBar F) (event : StreamEvent) : Except PyError (Arrival F) := do
  let directory ← seriesDirectory bar.key
  let key ← normalizedKey bar.key
  return ⟨directory, bar, liveRow key bar event⟩

def LiveStore.view (store : LiveStore F) : CandleView F where
  bars slot := barAt (storedBars (store.series slot.1)) slot.2
  rows := Keyed.find LiveRow.id store.table.rows

omit [PyFloat F] in
theorem normalizedKey_of_seriesDirectory {key : SeriesKey} {directory : List String}
    (placed : seriesDirectory key = .ok directory) : ∃ normal, normalizedKey key = .ok normal := by
  obtain ⟨timeframe, accepted, -⟩ := bind_eq_ok.mp placed
  exact ⟨_, by rw [normalizedKey, accepted, ok_bind]; rfl⟩

theorem view_updateCheckpoint {checkpoint : StreamCheckpoint}
    (returned : store.updateCheckpoint checkpoint = .ok after) : after.view = store.view := by
  obtain ⟨_, -, made⟩ := bind_eq_ok.mp returned
  cases made
  rfl

theorem view_touchEventCheckpoint (returned : store.touchEventCheckpoint bar event = .ok after) :
    after.view = store.view := by
  obtain ⟨_, -, updated⟩ := bind_eq_ok.mp returned
  exact view_updateCheckpoint updated

theorem view_closedCheckpoint (returned : store.closedCheckpoint bar event = .ok after) :
    after.view = store.view := by
  obtain ⟨_, -, updated⟩ := bind_eq_ok.mp returned
  exact view_updateCheckpoint updated

theorem view_upsertOpenCandle (isOpen : bar.isClosed = false)
    (returned : store.upsertOpenCandle bar event = .ok (result, after)) :
    ∃ arrival, arrive bar event = .ok arrival ∧ after.view = store.view.take arrival := by
  obtain ⟨directory, placed, returned⟩ := bind_eq_ok.mp returned
  obtain ⟨key, named⟩ := normalizedKey_of_seriesDirectory placed
  refine ⟨⟨directory, bar, liveRow key bar event⟩, by rw [arrive, placed, ok_bind, named]; rfl, ?_⟩
  unfold CandleView.take
  rw [if_neg (by simp [isOpen])]
  split at returned
  · rename_i late
    cases returned
    exact (if_pos late).symm
  · rename_i free
    obtain ⟨table, upserted, returned⟩ := bind_eq_ok.mp returned
    obtain ⟨touched, marked, returned⟩ := bind_eq_ok.mp returned
    cases returned
    obtain ⟨⟨⟩, -, upserted⟩ := bind_eq_ok.mp upserted
    obtain ⟨normal, again, upserted⟩ := bind_eq_ok.mp upserted
    obtain rfl : key = normal := Except.ok.inj (named.symm.trans again)
    cases upserted
    rw [view_touchEventCheckpoint marked]
    apply Eq.trans _ (if_neg free).symm
    apply CandleView.ext
    · rfl
    · funext id
      apply Keyed.find_upsert.trans
      by_cases own : id = (liveRow key bar event).id
      · simp [own]
      · simp [own]
        rfl

variable [Sha256]

theorem view_commitClosedCandle (isClosed : bar.isClosed = true)
    (returned : store.commitClosedCandle bar event = .ok (result, after)) :
    ∃ arrival, arrive bar event = .ok arrival ∧ after.view = store.view.take arrival := by
  obtain ⟨directory, placed, returned⟩ := bind_eq_ok.mp returned
  obtain ⟨⟨status, series⟩, committed, returned⟩ := bind_eq_ok.mp returned
  obtain ⟨table, deleted, returned⟩ := bind_eq_ok.mp returned
  obtain ⟨closed, marked, returned⟩ := bind_eq_ok.mp returned
  cases returned
  obtain ⟨key, named, deleted⟩ := bind_eq_ok.mp deleted
  cases deleted
  refine ⟨⟨directory, bar, liveRow key bar event⟩, by rw [arrive, placed, ok_bind, named]; rfl, ?_⟩
  rw [view_closedCheckpoint marked]
  unfold CandleView.take
  rw [if_pos isClosed]
  apply CandleView.ext
  · funext slot
    obtain ⟨other, time⟩ := slot
    change barAt (storedBars (Function.update store.series directory (some series) other)) time =
      (barAt (storedBars (store.series other)) time).or
        (if (other, time) = (directory, bar.time) then some bar else none)
    by_cases same : other = directory
    · subst same
      rw [Function.update_self]
      apply (barAt_commitSeries committed time).trans
      simp
    · rw [Function.update_of_ne same, if_neg (by simp [same]), Option.or_none]
  · funext id
    have removed : (fun row : LiveRow F => !row.deletedBy key bar) =
        fun row => !decide (row.id = (liveRow key bar event).id) := by
      funext row
      simp [CurrentRow.deletedBy, LiveRow.id, CurrentRow.id, liveRow, CurrentRow.toBar, Bool.and_assoc]
    change Keyed.find LiveRow.id (store.table.rows.filter fun row => !row.deletedBy key bar) id = _
    rw [removed, Keyed.find_without]
    by_cases own : id = (liveRow key bar event).id
    · simp [own]
    · simp [own]
      rfl

theorem view_commitClosed (returned : store.commitClosed bar event = .ok (result, after)) :
    ∃ arrival, arrive bar event = .ok arrival ∧ after.view = store.view.take arrival := by
  unfold LiveStore.commitClosed at returned
  split at returned
  · rename_i isOpen
    exact view_upsertOpenCandle (by simpa using isOpen) returned
  · rename_i isClosed
    exact view_commitClosedCandle (by simpa using isClosed) returned

theorem upsertOpen_eq_commitClosed : store.upsertOpen bar event = store.commitClosed bar event := by
  unfold LiveStore.upsertOpen LiveStore.commitClosed
  cases bar.isClosed <;> rfl

omit [Sha256] in
theorem sameOutcome_iff {left right : LiveStore F} :
    left.SameOutcome right ↔ left.view = right.view := by
  constructor
  · rintro ⟨sameBars, sameRows⟩
    apply CandleView.ext
    · funext slot
      exact congrArg (barAt · slot.2) (sameBars slot.1)
    · funext id
      apply Option.ext
      intro row
      change Keyed.find LiveRow.id left.table.rows id = some row ↔
        Keyed.find LiveRow.id right.table.rows id = some row
      rw [Keyed.find_eq_some_iff left.table.distinct, Keyed.find_eq_some_iff right.table.distinct,
        sameRows]
  · intro same
    refine ⟨fun directory => ?_, fun row => ?_⟩
    · apply Keyed.eq_of_find_eq (sorted_storedBars _) (sorted_storedBars _)
      intro time
      exact congrFun (congrArg CandleView.bars same) (directory, time)
    · have entry : Keyed.find LiveRow.id left.table.rows row.id =
          Keyed.find LiveRow.id right.table.rows row.id := congrFun (congrArg CandleView.rows same) row.id
      have inLeft : Keyed.find LiveRow.id left.table.rows row.id = some row ↔ _ :=
        Keyed.find_eq_some_iff left.table.distinct
      have inRight : Keyed.find LiveRow.id right.table.rows row.id = some row ↔ _ :=
        Keyed.find_eq_some_iff right.table.distinct
      rw [entry] at inLeft
      simpa using inLeft.symm.trans inRight

end Refinement

end MarketdataProvider
