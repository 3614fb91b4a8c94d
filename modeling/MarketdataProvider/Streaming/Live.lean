import Mathlib.Data.List.Dedup
import MarketdataProvider.Foundation.Keyed
import MarketdataProvider.Streaming.Kline

namespace MarketdataProvider

open Foundation

variable {F : Type}

structure StreamDiagnostic where
  code : String
  message : String
  details : List (String × Nat)
  deriving DecidableEq, Repr

/-- The candle that an update is about, as it was received. -/
def KlineUpdate.queueKey (update : KlineUpdate F) : SeriesKey × Int :=
  (⟨update.exchange, update.market, update.symbol, update.timeframe, update.sourceKind⟩,
    update.openTime)

/-- A dictionary of updates in the order in which their candles arrived. -/
structure CoalescingKlineQueue (F : Type) where
  maxsize : Nat
  items : List (KlineUpdate F)
  dropped : Nat
  coalesced : Nat
  diagnostics : List StreamDiagnostic
  positive : 0 < maxsize
  distinct : (items.map KlineUpdate.queueKey).Nodup
  bounded : items.length ≤ maxsize

namespace CoalescingKlineQueue

def make (maxsize : Int) : Except PyError (CoalescingKlineQueue F) :=
  if positive : maxsize < 1 then .error (.valueError "maxsize must be >= 1")
  else .ok {
    maxsize := maxsize.toNat
    items := []
    dropped := 0
    coalesced := 0
    diagnostics := []
    positive := by omega
    distinct := Keyed.distinct_nil
    bounded := Nat.zero_le _ }

def backpressureDrop (maxsize : Nat) : StreamDiagnostic where
  code := "MD_STREAM_BACKPRESSURE_DROP"
  message := "bounded stream queue overflow; oldest candle update dropped"
  details := [("maxsize", maxsize)]

theorem nodup_append_singleton {items : List (KlineUpdate F)} {update : KlineUpdate F}
    (distinct : (items.map KlineUpdate.queueKey).Nodup)
    (absent : Keyed.find KlineUpdate.queueKey items update.queueKey = none) :
    ((items ++ [update]).map KlineUpdate.queueKey).Nodup := by
  rw [List.map_append, List.map_singleton, ← List.concat_eq_append]
  apply List.Nodup.concat _ distinct
  intro member
  obtain ⟨item, inside, same⟩ := List.mem_map.mp member
  exact Keyed.find_eq_none_iff.mp absent item inside same

def put (queue : CoalescingKlineQueue F) (update : KlineUpdate F) : CoalescingKlineQueue F :=
  match present : Keyed.find KlineUpdate.queueKey queue.items update.queueKey with
  | some _ => { queue with
      items := Keyed.upsert KlineUpdate.queueKey queue.items update
      coalesced := queue.coalesced + 1
      distinct := Keyed.nodup_upsert queue.distinct
      bounded := by
        have member := Keyed.mem_of_find present
        have keyed := Keyed.key_of_find present
        rw [Keyed.upsert, if_pos (List.any_eq_true.mpr ⟨_, member, decide_eq_true keyed⟩),
          List.length_map]
        exact queue.bounded }
  | none =>
      if full : queue.maxsize ≤ queue.items.length then { queue with
        items := queue.items.tail ++ [update]
        dropped := queue.dropped + 1
        diagnostics := queue.diagnostics ++ [backpressureDrop queue.maxsize]
        distinct := by
          apply nodup_append_singleton
          · rw [List.map_tail]
            exact queue.distinct.tail
          · rw [Keyed.find_eq_none_iff] at present ⊢
            exact fun item member => present item (List.mem_of_mem_tail member)
        bounded := by
          have := queue.bounded
          have := queue.positive
          rw [List.length_append, List.length_tail, List.length_singleton]
          omega }
      else { queue with
        items := queue.items ++ [update]
        distinct := nodup_append_singleton queue.distinct present
        bounded := by
          rw [List.length_append, List.length_singleton]
          omega }

def putAll (queue : CoalescingKlineQueue F) (updates : List (KlineUpdate F)) :
    CoalescingKlineQueue F := updates.foldl put queue

/-- The updates that the queue hands over; it is empty afterwards. -/
def drain (queue : CoalescingKlineQueue F) : List (KlineUpdate F) × CoalescingKlineQueue F :=
  (queue.items, { queue with
    items := []
    distinct := Keyed.distinct_nil
    bounded := Nat.zero_le _ })

variable {queue : CoalescingKlineQueue F} {update : KlineUpdate F} {updates : List (KlineUpdate F)}

theorem make_ok {maxsize : Int} (made : make maxsize = .ok queue) :
    queue.items = [] ∧ queue.dropped = 0 ∧ queue.diagnostics = [] ∧ queue.maxsize = maxsize.toNat := by
  unfold make at made
  split at made
  · cases made
  · cases made
    exact ⟨rfl, rfl, rfl, rfl⟩

/-- Without an overflow an update takes the place of its candle, or the end of the queue. -/
theorem put_items (room : queue.items.length < queue.maxsize ∨
      ∃ item ∈ queue.items, item.queueKey = update.queueKey) :
    (queue.put update).items = Keyed.upsert KlineUpdate.queueKey queue.items update ∧
      (queue.put update).dropped = queue.dropped ∧
      (queue.put update).diagnostics = queue.diagnostics ∧
      (queue.put update).maxsize = queue.maxsize := by
  unfold put
  split
  · exact ⟨rfl, rfl, rfl, rfl⟩
  · rename_i absent
    rw [Keyed.find_eq_none_iff] at absent
    have space : queue.items.length < queue.maxsize := by
      rcases room with space | ⟨item, member, same⟩
      · exact space
      · exact absurd same (absent item member)
    rw [dif_neg (by omega)]
    refine ⟨?_, rfl, rfl, rfl⟩
    rw [Keyed.upsert, if_neg]
    simpa using absent

/-- A queue with room for each distinct candle keeps the last update of each of them, and drops
nothing. -/
theorem putAll_items (few : ((queue.items ++ updates).map KlineUpdate.queueKey).dedup.length ≤
      queue.maxsize) :
    (queue.putAll updates).items = Keyed.upsertAll KlineUpdate.queueKey queue.items updates ∧
      (queue.putAll updates).dropped = queue.dropped ∧
      (queue.putAll updates).diagnostics = queue.diagnostics := by
  induction updates generalizing queue with
  | nil => exact ⟨rfl, rfl, rfl⟩
  | cons update updates ih =>
      have room : queue.items.length < queue.maxsize ∨
          ∃ item ∈ queue.items, item.queueKey = update.queueKey := by
        by_cases present : ∃ item ∈ queue.items, item.queueKey = update.queueKey
        · exact .inr present
        · have absent : update.queueKey ∉ queue.items.map KlineUpdate.queueKey :=
            fun member => present (List.mem_map.mp member)
          -- The queued candles and the new one are among those that the queue has room for.
          have inside : update.queueKey :: queue.items.map KlineUpdate.queueKey ⊆
              ((queue.items ++ update :: updates).map KlineUpdate.queueKey).dedup := by
            intro key member
            rw [List.mem_dedup, List.map_append, List.map_cons, List.mem_append, List.mem_cons]
            rcases List.mem_cons.mp member with rfl | queued
            · exact .inr (.inl rfl)
            · exact .inl queued
          have count := (List.subperm_of_subset
            (List.nodup_cons.mpr ⟨absent, queue.distinct⟩) inside).length_le
          rw [List.length_cons, List.length_map] at count
          exact .inl (by omega)
      obtain ⟨items, dropped, diagnostics, maxsize⟩ := put_items room
      have fewer : (((queue.put update).items ++ updates).map KlineUpdate.queueKey).dedup.length ≤
          (queue.put update).maxsize := by
        rw [maxsize]
        apply le_trans _ few
        apply (List.subperm_of_subset (List.nodup_dedup _) _).length_le
        intro key member
        rw [List.mem_dedup, List.mem_map] at member ⊢
        obtain ⟨item, inItems, rfl⟩ := member
        rw [items] at inItems
        refine ⟨item, ?_, rfl⟩
        rcases List.mem_append.mp inItems with queued | later
        · rcases Keyed.mem_upsert queued with rfl | old
          · exact List.mem_append_right _ List.mem_cons_self
          · exact List.mem_append_left _ old
        · exact List.mem_append_right _ (List.mem_cons_of_mem _ later)
      obtain ⟨laterItems, laterDropped, laterDiagnostics⟩ := ih fewer
      refine ⟨?_, laterDropped.trans dropped, laterDiagnostics.trans diagnostics⟩
      rw [Keyed.upsertAll, List.foldl_cons, ← items]
      exact laterItems

end CoalescingKlineQueue

end MarketdataProvider
