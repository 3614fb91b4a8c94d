import MarketdataProvider.Core.Reference
import MarketdataProvider.Streaming.Live

namespace MarketdataProvider

open Foundation

variable {F : Type}

/-- A call of the queue. -/
inductive QueueOp (F : Type) where
  | put (update : KlineUpdate F)
  | drain

namespace CoalescingKlineQueue

variable {queue : CoalescingKlineQueue F} {update : KlineUpdate F} {ops : List (QueueOp F)}
  {now arrival : Nat} {key : SeriesKey × Int} {op : QueueOp F}

/-- The candles that are pending, in the order of the dictionary. -/
def keys (queue : CoalescingKlineQueue F) : List (SeriesKey × Int) := queue.items.map KlineUpdate.queueKey

def step (queue : CoalescingKlineQueue F) : QueueOp F → CoalescingKlineQueue F
  | .put update => queue.put update
  | .drain => queue.drain.2

/-- The queue after the first calls. -/
def after (queue : CoalescingKlineQueue F) (ops : List (QueueOp F)) (now : Nat) : CoalescingKlineQueue F :=
  (ops.take now).foldl step queue

/-- What a call makes of the queue, with the counters that it touches. -/
structure Change (queue next : CoalescingKlineQueue F) (lost merged : Nat) : Prop where
  maxsize : next.maxsize = queue.maxsize
  dropped : next.dropped = queue.dropped + lost
  coalesced : next.coalesced = queue.coalesced + merged
  diagnostics : next.diagnostics = queue.diagnostics ++ List.replicate lost (backpressureDrop queue.maxsize)

/-- The three ways of a `put`. -/
inductive PutCase (queue : CoalescingKlineQueue F) (update : KlineUpdate F) : Prop where
  | coalesced (present : update.queueKey ∈ queue.keys)
      (items : (queue.put update).items = Keyed.upsert KlineUpdate.queueKey queue.items update)
      (change : Change queue (queue.put update) 0 1)
  | queued (absent : update.queueKey ∉ queue.keys)
      (items : (queue.put update).items = queue.items ++ [update])
      (change : Change queue (queue.put update) 0 0)
  | dropped (absent : update.queueKey ∉ queue.keys) (full : queue.items.length = queue.maxsize)
      (oldest : KlineUpdate F) (rest : List (KlineUpdate F)) (pending : queue.items = oldest :: rest)
      (items : (queue.put update).items = rest ++ [update])
      (change : Change queue (queue.put update) 1 0)

theorem put_cases (queue : CoalescingKlineQueue F) (update : KlineUpdate F) : PutCase queue update := by
  cases present : Keyed.find KlineUpdate.queueKey queue.items update.queueKey with
  | some item =>
      have member : update.queueKey ∈ queue.keys :=
        List.mem_map.mpr ⟨item, Keyed.mem_of_find present, Keyed.key_of_find present⟩
      have made : (queue.put update).items = Keyed.upsert KlineUpdate.queueKey queue.items update ∧
          Change queue (queue.put update) 0 1 := by
        unfold put
        split
        · exact ⟨rfl, rfl, rfl, rfl, by simp⟩
        · rename_i absent
          rw [present] at absent
          cases absent
      exact .coalesced member made.1 made.2
  | none =>
      have absent : update.queueKey ∉ queue.keys := by
        intro member
        obtain ⟨item, inside, same⟩ := List.mem_map.mp member
        exact Keyed.find_eq_none_iff.mp present item inside same
      by_cases full : queue.maxsize ≤ queue.items.length
      · have made : (queue.put update).items = queue.items.tail ++ [update] ∧
            Change queue (queue.put update) 1 0 := by
          unfold put
          split
          · rename_i found
            rw [present] at found
            cases found
          · rw [dif_pos full]
            exact ⟨rfl, rfl, rfl, rfl, rfl⟩
        have filled : queue.items ≠ [] := by
          intro empty
          have := queue.positive
          rw [empty, List.length_nil] at full
          omega
        obtain ⟨oldest, rest, pending⟩ := List.exists_cons_of_ne_nil filled
        rw [pending, List.tail_cons] at made
        exact .dropped absent (le_antisymm queue.bounded full) oldest rest pending made.1 made.2
      · have made : (queue.put update).items = queue.items ++ [update] ∧
            Change queue (queue.put update) 0 0 := by
          unfold put
          split
          · rename_i found
            rw [present] at found
            cases found
          · rw [dif_neg full]
            exact ⟨rfl, rfl, rfl, rfl, by simp⟩
        exact .queued absent made.1 made.2

theorem after_succ (called : ops[now]? = some op) :
    queue.after ops (now + 1) = (queue.after ops now).step op := by
  rw [after, List.take_add_one, called, Option.toList_some, List.foldl_append]
  rfl

/-- A candle has been pending since the call that put it there. -/
structure Resides (queue : CoalescingKlineQueue F) (ops : List (QueueOp F)) (now : Nat)
    (key : SeriesKey × Int) (arrival : Nat) : Prop where
  before : arrival < now
  put : ∃ update, ops[arrival]? = some (.put update) ∧ update.queueKey = key
  absent : key ∉ (queue.after ops arrival).keys
  present : ∀ time, arrival < time → time ≤ now → key ∈ (queue.after ops time).keys

/-- No later call put an update for the candle. -/
structure Latest (ops : List (QueueOp F)) (now : Nat) (update : KlineUpdate F) (call : Nat) : Prop where
  before : call < now
  put : ops[call]? = some (.put update)
  last : ∀ later, call < later → later < now → ∀ other, ops[later]? = some (.put other) →
    other.queueKey ≠ update.queueKey

theorem Resides.stays (resides : Resides queue ops now key arrival)
    (still : key ∈ (queue.after ops (now + 1)).keys) : Resides queue ops (now + 1) key arrival where
  before := Nat.lt_succ_of_lt resides.before
  put := resides.put
  absent := resides.absent
  present := by
    intro time began reached
    rcases Nat.lt_or_eq_of_le reached with earlier | rfl
    · exact resides.present time began (Nat.le_of_lt_succ earlier)
    · exact still

/-- A candle that was pending before the last call arrived before it. -/
theorem Resides.earlier (resides : Resides queue ops (now + 1) key arrival)
    (there : key ∈ (queue.after ops now).keys) : Resides queue ops now key arrival := by
  have different : arrival ≠ now := by
    rintro rfl
    exact resides.absent there
  have before := resides.before
  exact ⟨by omega, resides.put, resides.absent,
    fun time began reached => resides.present time began (Nat.le_succ_of_le reached)⟩

/-- A candle that was not pending before the last call came with it. -/
theorem Resides.arrived (resides : Resides queue ops (now + 1) key arrival)
    (missing : key ∉ (queue.after ops now).keys) : arrival = now := by
  by_contra different
  have before := resides.before
  exact missing (resides.present now (by omega) (Nat.le_succ now))

theorem Resides.begin (called : ops[now]? = some (.put update))
    (missing : update.queueKey ∉ (queue.after ops now).keys)
    (there : update.queueKey ∈ (queue.after ops (now + 1)).keys) :
    Resides queue ops (now + 1) update.queueKey now where
  before := Nat.lt_succ_self now
  put := ⟨update, called, rfl⟩
  absent := missing
  present := by
    intro time began reached
    obtain rfl : time = now + 1 := by omega
    exact there

theorem Latest.own (called : ops[now]? = some (.put update)) : Latest ops (now + 1) update now where
  before := Nat.lt_succ_self now
  put := called
  last := by
    intro later began reached
    omega

/-- A call that puts no update for a candle leaves its latest one. -/
theorem Latest.stays {call : Nat} (latest : Latest ops now update call)
    (foreign : ∀ other, ops[now]? = some (.put other) → other.queueKey ≠ update.queueKey) :
    Latest ops (now + 1) update call where
  before := Nat.lt_succ_of_lt latest.before
  put := latest.put
  last := by
    intro later began reached other called
    rcases Nat.lt_or_eq_of_le (Nat.le_of_lt_succ reached) with earlier | rfl
    · exact latest.last later began earlier other called
    · exact foreign other called

/-- The updates that the calls have handed over. -/
def drained (queue : CoalescingKlineQueue F) : List (QueueOp F) → List (KlineUpdate F)
  | [] => []
  | .put update :: rest => (queue.put update).drained rest
  | .drain :: rest => queue.drain.1 ++ queue.drain.2.drained rest

theorem drained_append (front back : List (QueueOp F)) :
    queue.drained (front ++ back) = queue.drained front ++ (front.foldl step queue).drained back := by
  induction front generalizing queue with
  | nil => rfl
  | cons op front ih =>
      cases op with
      | put update => exact ih
      | drain =>
          rw [List.cons_append, drained, drained, ih, List.append_assoc]
          rfl

/-- The `put` calls among the first calls. -/
def puts (ops : List (QueueOp F)) : Nat := ops.countP fun op => match op with
  | .put _ => true
  | .drain => false

/-- What holds between the calls of a queue, told from the history of its calls. -/
structure Accounted (queue : CoalescingKlineQueue F) (ops : List (QueueOp F)) (now : Nat) : Prop where
  bounded : (queue.after ops now).items.length ≤ queue.maxsize
  distinct : (queue.after ops now).keys.Nodup
  conserved : puts (ops.take now) = (queue.drained (ops.take now)).length +
    (queue.after ops now).items.length + (queue.after ops now).dropped + (queue.after ops now).coalesced
  reported : (queue.after ops now).diagnostics.length = (queue.after ops now).dropped
  latest : ∀ item ∈ (queue.after ops now).items, ∃ arrival call,
    Resides queue ops now item.queueKey arrival ∧ arrival ≤ call ∧ Latest ops now item call
  ordered : (queue.after ops now).keys.Pairwise fun left right => ∀ first second,
    Resides queue ops now left first → Resides queue ops now right second → first < second

/-- Why a pending candle leaves: it is drained, or it is the oldest one when a new one needs room. -/
inductive Leaves (queue : CoalescingKlineQueue F) (ops : List (QueueOp F)) (now : Nat)
    (item : KlineUpdate F) : Prop where
  | drained (called : ops[now]? = some .drain) (handed : item ∈ (queue.after ops now).drain.1)
  | dropped (update : KlineUpdate F) (called : ops[now]? = some (.put update))
      (fresh : update.queueKey ∉ (queue.after ops now).keys)
      (full : (queue.after ops now).items.length = queue.maxsize)
      (oldest : ∀ other ∈ (queue.after ops now).keys, other ≠ item.queueKey → ∀ first second,
        Resides queue ops now item.queueKey first → Resides queue ops now other second → first < second)
      (counted : (queue.after ops (now + 1)).dropped = (queue.after ops now).dropped + 1)

/-- A queue that has had no call. -/
structure Fresh (queue : CoalescingKlineQueue F) : Prop where
  items : queue.items = []
  dropped : queue.dropped = 0
  coalesced : queue.coalesced = 0
  diagnostics : queue.diagnostics = []

theorem fresh_of_make {maxsize : Int} (made : make maxsize = .ok queue) : queue.Fresh := by
  unfold make at made
  split at made
  · cases made
  · cases made
    exact ⟨rfl, rfl, rfl, rfl⟩

theorem maxsize_step : (queue.step op).maxsize = queue.maxsize := by
  cases op with
  | drain => rfl
  | put update =>
      cases put_cases queue update with
      | coalesced _ _ change => exact change.maxsize
      | queued _ _ change => exact change.maxsize
      | dropped _ _ _ _ _ _ change => exact change.maxsize

theorem maxsize_after : (queue.after ops now).maxsize = queue.maxsize := by
  unfold after
  generalize ops.take now = calls
  induction calls generalizing queue with
  | nil => rfl
  | cons op calls ih => exact ih.trans maxsize_step

theorem keys_upsert (present : update.queueKey ∈ queue.keys) :
    (Keyed.upsert KlineUpdate.queueKey queue.items update).map KlineUpdate.queueKey = queue.keys := by
  rw [Keyed.map_key_upsert, if_pos]
  · rfl
  · obtain ⟨item, member, same⟩ := List.mem_map.mp present
    exact List.any_eq_true.mpr ⟨item, member, decide_eq_true same⟩

/-- The new update stands for its candle alone. -/
theorem mem_upsert_present (present : update.queueKey ∈ queue.keys) {item : KlineUpdate F}
    (member : item ∈ Keyed.upsert KlineUpdate.queueKey queue.items update) :
    item = update ∨ item ∈ queue.items ∧ item.queueKey ≠ update.queueKey := by
  obtain ⟨old, inside, same⟩ := List.mem_map.mp present
  rw [Keyed.upsert, if_pos (List.any_eq_true.mpr ⟨old, inside, decide_eq_true same⟩)] at member
  obtain ⟨before, held, rfl⟩ := List.mem_map.mp member
  split
  · exact .inl rfl
  · rename_i other
    exact .inr ⟨held, other⟩

/-- Candles that stay keep their order, and a new one comes last. -/
theorem ordered_step {stay : List (SeriesKey × Int)} {fresh : List (SeriesKey × Int)}
    (ordered : (queue.after ops now).keys.Pairwise fun left right => ∀ first second,
      Resides queue ops now left first → Resides queue ops now right second → first < second)
    (kept : stay.Sublist (queue.after ops now).keys)
    (new : fresh.Pairwise fun _ _ => False)
    (absent : ∀ key ∈ fresh, key ∉ (queue.after ops now).keys) :
    (stay ++ fresh).Pairwise fun left right => ∀ first second,
      Resides queue ops (now + 1) left first → Resides queue ops (now + 1) right second → first < second := by
  rw [List.pairwise_append]
  refine ⟨?_, new.imp fun never => never.elim, ?_⟩
  · apply (ordered.sublist kept).imp_of_mem
    intro left right inLeft inRight before first second arrivedLeft arrivedRight
    exact before first second (arrivedLeft.earlier (kept.subset inLeft))
      (arrivedRight.earlier (kept.subset inRight))
  · intro left inLeft right inRight first second arrivedLeft arrivedRight
    rw [arrivedRight.arrived (absent right inRight)]
    exact (arrivedLeft.earlier (kept.subset inLeft)).before

theorem take_succ (called : ops[now]? = some op) : ops.take (now + 1) = ops.take now ++ [op] := by
  rw [List.take_add_one, called, Option.toList_some]

theorem drained_succ (called : ops[now]? = some op) : queue.drained (ops.take (now + 1)) =
    queue.drained (ops.take now) ++ (queue.after ops now).drained [op] := by
  rw [take_succ called, drained_append]
  rfl

theorem puts_succ (called : ops[now]? = some op) :
    puts (ops.take (now + 1)) = puts (ops.take now) + puts [op] := by
  rw [take_succ called, puts, List.countP_append]
  rfl

/-- An update that no call has touched keeps its account. -/
theorem Accounted.latest_stays (account : Accounted queue ops now) {item : KlineUpdate F}
    (member : item ∈ (queue.after ops now).items)
    (still : item.queueKey ∈ (queue.after ops (now + 1)).keys)
    (foreign : ∀ other, ops[now]? = some (.put other) → other.queueKey ≠ item.queueKey) :
    ∃ arrival call, Resides queue ops (now + 1) item.queueKey arrival ∧ arrival ≤ call ∧
      Latest ops (now + 1) item call := by
  obtain ⟨arrival, call, resides, since, latest⟩ := account.latest item member
  exact ⟨arrival, call, resides.stays still, since, latest.stays foreign⟩

theorem Accounted.drain (account : Accounted queue ops now) (called : ops[now]? = some .drain) :
    Accounted queue ops (now + 1) := by
  have made : queue.after ops (now + 1) = (queue.after ops now).drain.2 := after_succ called
  have empty : (queue.after ops (now + 1)).items = [] := by
    rw [made]
    rfl
  have none : (queue.after ops (now + 1)).keys = [] := by
    rw [keys, empty]
    rfl
  have dropped : (queue.after ops (now + 1)).dropped = (queue.after ops now).dropped := by
    rw [made]
    rfl
  have coalesced : (queue.after ops (now + 1)).coalesced = (queue.after ops now).coalesced := by
    rw [made]
    rfl
  refine ⟨?_, ?_, ?_, ?_, ?_, ?_⟩
  · rw [empty]
    exact Nat.zero_le _
  · rw [none]
    exact List.nodup_nil
  · have conserved := account.conserved
    have handed : (queue.after ops now).drained [.drain] = (queue.after ops now).items :=
      List.append_nil _
    rw [puts_succ called, drained_succ called, handed, List.length_append, empty, dropped, coalesced,
      conserved]
    change _ + 0 = _
    rw [List.length_nil]
    omega
  · rw [dropped, ← account.reported, made]
    rfl
  · rw [empty]
    simp
  · rw [none]
    exact List.Pairwise.nil

/-- Behind candles that stay, a new one arrives with the last call. -/
theorem Accounted.latest_join (account : Accounted queue ops now) (called : ops[now]? = some (.put update))
    (absent : update.queueKey ∉ (queue.after ops now).keys) {stay : List (KlineUpdate F)}
    (kept : ∀ item ∈ stay, item ∈ (queue.after ops now).items) {item : KlineUpdate F}
    (member : item ∈ stay ++ [update]) (still : item.queueKey ∈ (queue.after ops (now + 1)).keys) :
    ∃ arrival call, Resides queue ops (now + 1) item.queueKey arrival ∧ arrival ≤ call ∧
      Latest ops (now + 1) item call := by
  rcases List.mem_append.mp member with old | new
  · apply account.latest_stays (kept item old) still
    intro put same
    obtain rfl := QueueOp.put.inj (Option.some.inj (called.symm.trans same))
    intro own
    exact absent (own ▸ List.mem_map_of_mem (kept item old))
  · obtain rfl := List.mem_singleton.mp new
    exact ⟨now, now, Resides.begin called absent still, le_refl _, Latest.own called⟩

theorem Accounted.put (account : Accounted queue ops now) (called : ops[now]? = some (.put update)) :
    Accounted queue ops (now + 1) := by
  have made : queue.after ops (now + 1) = (queue.after ops now).put update := after_succ called
  have limit : (queue.after ops now).maxsize = queue.maxsize := maxsize_after
  have conserved := account.conserved
  have bounded : (queue.after ops (now + 1)).items.length ≤ queue.maxsize :=
    @maxsize_after F queue ops (now + 1) ▸ (queue.after ops (now + 1)).bounded
  have counted : puts (ops.take (now + 1)) = puts (ops.take now) + 1 := puts_succ called
  have handed : queue.drained (ops.take (now + 1)) = queue.drained (ops.take now) := by
    rw [drained_succ called]
    exact List.append_nil _
  have reported (lost merged : Nat) (change : Change (queue.after ops now) (queue.after ops (now + 1)) lost merged) :
      (queue.after ops (now + 1)).diagnostics.length = (queue.after ops (now + 1)).dropped := by
    rw [change.diagnostics, change.dropped, List.length_append, List.length_replicate, account.reported]
  have foreign {item : KlineUpdate F} (other : item.queueKey ≠ update.queueKey) (put : KlineUpdate F)
      (same : ops[now]? = some (.put put)) : put.queueKey ≠ item.queueKey := by
    obtain rfl := QueueOp.put.inj (Option.some.inj (called.symm.trans same))
    exact other.symm
  cases put_cases (queue.after ops now) update with
  | coalesced present items change =>
      rw [← made] at items change
      have sameKeys : (queue.after ops (now + 1)).keys = (queue.after ops now).keys := by
        rw [keys, items, keys_upsert present]
      have size : (queue.after ops (now + 1)).items.length = (queue.after ops now).items.length := by
        rw [← List.length_map KlineUpdate.queueKey, ← List.length_map KlineUpdate.queueKey]
        exact congrArg List.length sameKeys
      refine ⟨bounded, (queue.after ops (now + 1)).distinct, ?_, reported 0 1 change, ?_, ?_⟩
      · rw [counted, handed, size, change.dropped, change.coalesced]
        omega
      · intro item member
        have still : item.queueKey ∈ (queue.after ops (now + 1)).keys := List.mem_map_of_mem member
        rw [items] at member
        rcases mem_upsert_present present member with rfl | ⟨old, other⟩
        · obtain ⟨before, held, same⟩ := List.mem_map.mp present
          obtain ⟨arrival, call, resides, -, -⟩ := account.latest before held
          rw [same] at resides
          exact ⟨arrival, now, resides.stays still, resides.before.le, Latest.own called⟩
        · exact account.latest_stays old still (foreign other)
      · have same := ordered_step account.ordered (List.Sublist.refl _) List.Pairwise.nil (by simp)
        rwa [List.append_nil, ← sameKeys] at same
  | queued absent items change =>
      rw [← made] at items change
      have newKeys : (queue.after ops (now + 1)).keys = (queue.after ops now).keys ++ [update.queueKey] := by
        rw [keys, items, List.map_append]
        rfl
      refine ⟨bounded, (queue.after ops (now + 1)).distinct, ?_, reported 0 0 change, ?_, ?_⟩
      · rw [counted, handed, items, List.length_append, List.length_singleton, change.dropped,
          change.coalesced]
        omega
      · intro item member
        have still : item.queueKey ∈ (queue.after ops (now + 1)).keys := List.mem_map_of_mem member
        rw [items] at member
        exact account.latest_join called absent (fun _ held => held) member still
      · rw [newKeys]
        exact ordered_step account.ordered (List.Sublist.refl _) (List.pairwise_singleton _ _) (by simpa)
  | dropped absent full oldest rest pending items change =>
      rw [← made] at items change
      have oldKeys : (queue.after ops now).keys = oldest.queueKey :: rest.map KlineUpdate.queueKey := by
        rw [keys, pending, List.map_cons]
      have newKeys : (queue.after ops (now + 1)).keys =
          rest.map KlineUpdate.queueKey ++ [update.queueKey] := by
        rw [keys, items, List.map_append]
        rfl
      have size := congrArg List.length pending
      rw [List.length_cons] at size
      refine ⟨bounded, (queue.after ops (now + 1)).distinct, ?_, reported 1 0 change, ?_, ?_⟩
      · rw [counted, handed, items, List.length_append, List.length_singleton, change.dropped,
          change.coalesced]
        omega
      · intro item member
        have still : item.queueKey ∈ (queue.after ops (now + 1)).keys := List.mem_map_of_mem member
        rw [items] at member
        exact account.latest_join called absent (fun _ held => pending ▸ List.mem_cons_of_mem _ held) member still
      · rw [newKeys]
        refine ordered_step account.ordered ?_ (List.pairwise_singleton _ _) (by simpa)
        rw [oldKeys]
        exact List.sublist_cons_self _ _

theorem accounted (fresh : queue.Fresh) (reached : now ≤ ops.length) : Accounted queue ops now := by
  induction now with
  | zero =>
      have start : queue.after ops 0 = queue := rfl
      have none : queue.keys = [] := by
        rw [keys, fresh.items]
        rfl
      refine ⟨queue.bounded, queue.distinct, ?_, ?_, ?_, ?_⟩
      · rw [start, fresh.items, fresh.dropped, fresh.coalesced]
        rfl
      · rw [start, fresh.diagnostics, fresh.dropped]
        rfl
      · rw [start, fresh.items]
        simp
      · rw [start, none]
        exact List.Pairwise.nil
  | succ now ih =>
      have account := ih (by omega)
      obtain ⟨op, called⟩ : ∃ op, ops[now]? = some op := ⟨_, List.getElem?_eq_getElem (by omega)⟩
      cases op with
      | put update => exact account.put called
      | drain => exact account.drain called

/-- Only a drain or the arrival of a new candle at a full queue takes a pending candle away. -/
theorem Accounted.leaves (account : Accounted queue ops now) {op : QueueOp F} (called : ops[now]? = some op)
    {item : KlineUpdate F} (member : item ∈ (queue.after ops now).items)
    (gone : item.queueKey ∉ (queue.after ops (now + 1)).keys) : Leaves queue ops now item := by
  have limit : (queue.after ops now).maxsize = queue.maxsize := maxsize_after
  cases op with
  | drain => exact .drained called member
  | put update =>
      have made : queue.after ops (now + 1) = (queue.after ops now).put update := after_succ called
      have held : item.queueKey ∈ (queue.after ops now).keys := List.mem_map_of_mem member
      cases put_cases (queue.after ops now) update with
      | coalesced present items change =>
          rw [made, keys, items, keys_upsert present] at gone
          exact absurd held gone
      | queued absent items change =>
          rw [made, keys, items, List.map_append] at gone
          exact absurd (List.mem_append_left _ held) gone
      | dropped absent full oldest rest pending items change =>
          have first : item = oldest := by
            rw [pending] at member
            rcases List.mem_cons.mp member with same | later
            · exact same
            · rw [made, keys, items, List.map_append] at gone
              exact absurd (List.mem_append_left _ (List.mem_map_of_mem later)) gone
          subst first
          refine .dropped update called absent (full.trans limit) ?_ ?_
          · intro other among different
            have ordered := account.ordered
            rw [keys, pending, List.map_cons] at ordered among
            rcases List.mem_cons.mp among with same | later
            · exact absurd same different
            · exact List.rel_of_pairwise_cons ordered later
          · rw [made, change.dropped]

/-- The account of a queue holds over every run of its calls. -/
theorem queue_accounting {maxsize : Int} (positive : 1 ≤ maxsize) :
    ∃ queue : CoalescingKlineQueue F, make maxsize = .ok queue ∧ (queue.maxsize : Int) = maxsize ∧
      ∀ ops now, now ≤ ops.length → Accounted queue ops now ∧
        (ops[now]? = some .drain → queue.drained (ops.take (now + 1)) =
          queue.drained (ops.take now) ++ (queue.after ops now).items) ∧
        ∀ item ∈ (queue.after ops now).items, item.queueKey ∉ (queue.after ops (now + 1)).keys →
          Leaves queue ops now item := by
  obtain ⟨queue, made⟩ : ∃ queue : CoalescingKlineQueue F, make maxsize = .ok queue := by
    rw [make, dif_neg (by omega)]
    exact ⟨_, rfl⟩
  have size := (make_ok made).2.2.2
  refine ⟨queue, made, by omega, ?_⟩
  intro ops now reached
  have account := accounted (fresh_of_make made) reached
  refine ⟨account, ?_, ?_⟩
  · intro called
    rw [drained_succ called]
    exact congrArg _ (List.append_nil _)
  intro item member gone
  cases called : ops[now]? with
  | some op => exact account.leaves called member gone
  | none =>
      have done : queue.after ops (now + 1) = queue.after ops now := by
        rw [after, after, List.take_add_one, called, Option.toList_none, List.append_nil]
      rw [done] at gone
      exact absurd (List.mem_map_of_mem member) gone

end CoalescingKlineQueue

end MarketdataProvider

namespace MarketdataProvider

open CoalescingKlineQueue Reference

theorem queue_accounting_two : ∃ queue : CoalescingKlineQueue Whole, make 2 = .ok queue ∧
    ∀ ops now, now ≤ ops.length → Accounted queue ops now := by
  obtain ⟨queue, made, -, account⟩ := queue_accounting (F := Whole) (show (1 : Int) ≤ 2 by decide)
  exact ⟨queue, made, fun ops now reached => (account ops now reached).1⟩

end MarketdataProvider
