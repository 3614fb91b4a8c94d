import MarketdataProvider.Exchanges.BinanceTrades
import MarketdataProvider.Foundation.Grouping
import MarketdataProvider.Store.RawBatches

namespace MarketdataProvider

open Foundation

section Days

/-- A number with leading zeros. -/
def padded (width value : Nat) : List Char :=
  List.replicate (width - (Nat.toDigits 10 value).length) '0' ++ Nat.toDigits 10 value

/-- The date of a time in the form `YYYY-MM-DD`. -/
def dateText (time : Int) : List Char :=
  let civil := civilOfDays (time / dayMs)
  padded 4 civil.1.toNat ++ '-' :: padded 2 civil.2.1.toNat ++ '-' :: padded 2 civil.2.2.toNat

def dayText (time : Int) : String := String.ofList (['d', 'a', 'y', '='] ++ dateText time)

/-- `_day_partition` -/
def dayPartition (time : Int) : Except PyError String :=
  if datetimeRange time then .ok (dayText time) else .error (.valueError "year is out of range")

theorem digit_of_padded {width value : Nat} {character : Char} (member : character ∈ padded width value) :
    character.isDigit = true := by
  rcases List.mem_append.mp member with zero | digit
  · rw [List.eq_of_mem_replicate zero]
    decide
  · exact Nat.isDigit_of_mem_toDigits (by decide) (by decide) digit

/-- A date has digits and dashes only, and it ends with a digit. -/
theorem dateText_plain {time : Int} {character : Char} (member : character ∈ dateText time) :
    character.isDigit = true ∨ character = '-' := by
  simp only [dateText, List.mem_append, List.mem_cons] at member
  rcases member with (year | rfl | month) | rfl | day
  · exact .inl (digit_of_padded year)
  · exact .inr rfl
  · exact .inl (digit_of_padded month)
  · exact .inr rfl
  · exact .inl (digit_of_padded day)

theorem padded_ends (width value : Nat) :
    ∃ front last, padded width value = front ++ [last] ∧ last.isDigit = true := by
  obtain ⟨front, last, ends⟩ := (List.eq_nil_or_concat' (Nat.toDigits 10 value)).resolve_left
    Nat.toDigits_ne_nil
  have digit : last.isDigit = true := Nat.isDigit_of_mem_toDigits (by decide) (by decide)
    (show last ∈ Nat.toDigits 10 value by simp [ends])
  exact ⟨_, last, by rw [padded, ends, ← List.append_assoc], digit⟩

theorem dateText_ends (time : Int) :
    ∃ front last, dateText time = front ++ [last] ∧ last.isDigit = true := by
  obtain ⟨front, last, ends, digit⟩ := padded_ends 2 (civilOfDays (time / dayMs)).2.2.toNat
  refine ⟨padded 4 (civilOfDays (time / dayMs)).1.toNat ++
    '-' :: padded 2 (civilOfDays (time / dayMs)).2.1.toNat ++ '-' :: front, last, ?_, digit⟩
  simp [dateText, ends]

/-- A date behind four ASCII characters is a text that the sanitizer does not trim. -/
theorem pathText_date (time : Int) {first second third fourth : Char} (plain : first.isAlphanum = true)
    (ascii : ([first, second, third, fourth].all (·.toNat < 128)) = true) :
    ∃ last, PathText ([first, second, third, fourth] ++ dateText time) first last := by
  obtain ⟨front, last, ends, digit⟩ := dateText_ends time
  refine ⟨last, ⟨_, rfl⟩, ⟨[first, second, third, fourth] ++ front, ?_⟩, ?_, plain, ?_⟩
  · rw [ends, List.append_assoc]
  · rw [List.all_append, ascii, Bool.true_and, List.all_eq_true]
    intro character member
    rw [decide_eq_true_eq]
    rcases dateText_plain member with isDigit | rfl
    · have := (Reference.isDigit_iff character).mp isDigit
      omega
    · decide
  · simp [Char.isAlphanum, digit]

theorem toUpper_dateText (time : Int) : (dateText time).map Char.toUpper = dateText time := by
  conv_rhs => rw [← List.map_id (dateText time)]
  apply List.map_congr_left
  intro character member
  rcases dateText_plain member with digit | rfl
  · have range := (Reference.isDigit_iff character).mp digit
    have table : ∀ code < 58, (Char.ofNat code).toUpper = Char.ofNat code := by decide
    have found := table character.toNat (by omega)
    rwa [Char.ofNat_toNat] at found
  · rfl

theorem safe_dateText (time : Int) : ∀ character ∈ dateText time, safeCharacter character = true := by
  intro character member
  rcases dateText_plain member with digit | rfl
  · have range := (Reference.isDigit_iff character).mp digit
    have table : ∀ code < 58, 48 ≤ code → safeCharacter (Char.ofNat code) = true := by decide
    have found := table character.toNat (by omega) range.1
    rwa [Char.ofNat_toNat] at found
  · decide

/-- The directory name of a day. -/
def dayDirectory (time : Int) : String := String.ofList (['D', 'A', 'Y', '_'] ++ dateText time)

variable [PyText]

theorem safePathPart_dayText (time : Int) : safePathPart (dayText time) = dayDirectory time := by
  obtain ⟨last, path⟩ := @pathText_date time 'd' 'a' 'y' '=' (by decide) (by decide)
  obtain ⟨tail, sane⟩ := @pathText_date time 'D' 'A' 'Y' '_' (by decide) (by decide)
  apply safePathPart_of_collapsed path _ sane
  rw [List.map_append, toUpper_dateText]
  have inner := collapseUnsafe_safe (safe_dateText time) true
  simpa [collapseUnsafe, safeCharacter] using inner

theorem safePathPart_dayDirectory (time : Int) : safePathPart (dayDirectory time) = dayDirectory time := by
  obtain ⟨tail, sane⟩ := @pathText_date time 'D' 'A' 'Y' '_' (by decide) (by decide)
  apply safePathPart_of_collapsed sane _ sane
  rw [List.map_append, toUpper_dateText]
  have inner := collapseUnsafe_safe (safe_dateText time) false
  simpa [collapseUnsafe, safeCharacter] using inner

end Days

section Trades

variable [PyText] {F : Type}

def rawTradesKey (instrument : InstrumentKey) : RawKey :=
  ⟨instrument.exchange, instrument.market, instrument.symbol, "rest", "agg_trades", none⟩

/-- `by_partition` of the trades of one call -/
def rawBatches (trades : List (AggTrade F)) : Except PyError (List (RawBatch (AggTrade F))) :=
  trades.foldlM (fun batches trade => do
    let day ← dayPartition trade.time
    return Grouping.append (fun _ => day) batches trade) []

variable [RawJson (AggTrade F)] [Zstandard] [Sha256]

/-- `_write_raw_trades` -/
def writeRawTrades (instrument : InstrumentKey) (tree : RawTree) (trades : List (AggTrade F)) :
    Except PyError RawTree := do
  let batches ← rawBatches trades
  return batches.foldl (RawTree.storeBatch (rawTradesKey instrument)) tree

/-- `_read_raw_trades` -/
def readRawTrades (tree : RawTree) (instrument : InstrumentKey) (start stop : Int) :
    Except PyError (List (AggTrade F)) := do
  let rows ← tree.readPartitions (AggTrade F) (rawTradesKey instrument)
  return tradesById (tradesWithin start stop rows)

/-- Several calls one after the other. -/
def writeAllRawTrades (instrument : InstrumentKey) (tree : RawTree)
    (writes : List (List (AggTrade F))) : Except PyError RawTree :=
  writes.foldlM (writeRawTrades instrument) tree

/-- The batches that the calls write, each for one day. -/
def batchesOf (writes : List (List (AggTrade F))) : List (RawBatch (AggTrade F)) :=
  writes.flatMap (Grouping.groupBy fun trade => dayText trade.time)

/-- The last batch that went to the directory of a trade has a trade of its id. -/
def Retained (writes : List (List (AggTrade F))) : Prop :=
  ∀ trade ∈ writes.flatten, ∃ kept ∈ lastBatch (batchesOf writes) (dayDirectory trade.time),
    kept.tradeId = trade.tradeId

variable {instrument : InstrumentKey} {tree after : RawTree} {trades : List (AggTrade F)}
  {writes : List (List (AggTrade F))}

omit [PyText] [RawJson (AggTrade F)] [Zstandard] [Sha256] in
theorem rawBatches_ok {batches : List (RawBatch (AggTrade F))} (grouped : rawBatches trades = .ok batches) :
    batches = Grouping.groupBy (fun trade => dayText trade.time) trades := by
  induction trades using List.reverseRecOn generalizing batches with
  | nil => exact (Except.ok.inj grouped).symm
  | append_singleton trades trade ih =>
      rw [rawBatches, foldlM_append_eq_ok] at grouped
      obtain ⟨before, front, last⟩ := grouped
      rw [Grouping.groupBy_concat, ← ih front]
      simp only [List.foldlM_cons, List.foldlM_nil, dayPartition] at last
      split at last
      · exact (Except.ok.inj last).symm
      · cases last

theorem writeAllRawTrades_ok (written : writeAllRawTrades instrument tree writes = .ok after) :
    after = (batchesOf writes).foldl (RawTree.storeBatch (rawTradesKey instrument)) tree := by
  induction writes generalizing tree with
  | nil => exact (Except.ok.inj written).symm
  | cons trades writes ih =>
      rw [writeAllRawTrades, List.foldlM_cons, bind_eq_ok] at written
      obtain ⟨middle, first, rest⟩ := written
      simp only [writeRawTrades, bind_eq_ok, pure_eq_ok] at first
      obtain ⟨batches, grouped, rfl⟩ := first
      rw [ih rest, rawBatches_ok grouped, batchesOf, batchesOf, List.flatMap_cons, List.foldl_append]

section Batches

omit [RawJson (AggTrade F)] [Zstandard] [Sha256] in
/-- A batch has the trades of one call on one day. -/
theorem mem_batchesOf {batch : RawBatch (AggTrade F)} (member : batch ∈ batchesOf writes) :
    (∃ trade ∈ batch.2, batch.1 = dayText trade.time) ∧
      ∀ trade ∈ batch.2, trade ∈ writes.flatten ∧ batch.part = dayDirectory trade.time := by
  obtain ⟨trades, call, grouped⟩ := List.mem_flatMap.mp member
  obtain ⟨rows, nonempty⟩ := Grouping.mem_groupBy.mp grouped
  have dated (trade : AggTrade F) (inside : trade ∈ batch.2) :
      trade ∈ trades ∧ dayText trade.time = batch.1 := by
    rw [rows, List.mem_filter, decide_eq_true_eq] at inside
    exact inside
  constructor
  · obtain ⟨trade, inside⟩ := List.exists_mem_of_ne_nil _ nonempty
    exact ⟨trade, inside, (dated trade inside).2.symm⟩
  · intro trade inside
    refine ⟨List.mem_flatten.mpr ⟨trades, call, (dated trade inside).1⟩, ?_⟩
    rw [RawBatch.part, ← (dated trade inside).2, safePathPart_dayText]

omit [Zstandard] [Sha256] in
theorem storable_batchesOf (dumped : ∀ trade ∈ writes.flatten, Dumped trade) :
    ∀ batch ∈ batchesOf writes, StorableBatch batch := by
  intro batch member
  obtain ⟨⟨trade, inside, named⟩, rows⟩ := mem_batchesOf member
  have part := (rows trade inside).2
  refine ⟨?_, ?_, ?_, fun other within => dumped other (rows other within).1⟩
  · rw [named]
    simp [dayText]
  · rw [part, safePathPart_dayDirectory]
  · rw [part]
    simp [dayDirectory]

omit [RawJson (AggTrade F)] [Zstandard] [Sha256] in
theorem mem_lastBatch {part : String} {trade : AggTrade F}
    (member : trade ∈ lastBatch (batchesOf writes) part) :
    trade ∈ writes.flatten ∧ part = dayDirectory trade.time := by
  rw [lastBatch] at member
  cases found : Keyed.find RawBatch.part (batchesOf writes).reverse part with
  | none => simp [found] at member
  | some batch =>
      rw [found] at member
      have inside := List.mem_reverse.mp (Keyed.mem_of_find found)
      obtain ⟨known, dated⟩ := (mem_batchesOf inside).2 trade member
      exact ⟨known, (Keyed.key_of_find found).symm.trans dated⟩

omit [RawJson (AggTrade F)] [Zstandard] [Sha256] [PyText] in
/-- Trades of one day keep their order in the batches. -/
theorem filter_batchesOf {keep : AggTrade F → Bool} {day : String}
    (alike : ∀ trade ∈ writes.flatten, keep trade = true → dayText trade.time = day) :
    (batchesOf writes).flatMap (fun batch => batch.2.filter keep) = writes.flatten.filter keep := by
  rw [batchesOf, List.flatMap_assoc, List.filter_flatten, List.flatMap_def]
  congr 1
  apply List.map_congr_left
  intro trades call
  exact Grouping.filter_groupBy fun trade member =>
    alike trade (List.mem_flatten.mpr ⟨trades, call, member⟩)

omit [RawJson (AggTrade F)] [Zstandard] [Sha256] in
/-- The last trade that a predicate keeps is the one in the last batch of its directory. -/
theorem getLast_batches {batches : List (RawBatch (AggTrade F))} {keep : AggTrade F → Bool} {part : String}
    (placed : ∀ batch ∈ batches, ∀ trade ∈ batch.2, keep trade = true → batch.part = part)
    (kept : (lastBatch batches part).filter keep ≠ []) :
    (batches.flatMap fun batch => batch.2.filter keep).getLast? =
      ((lastBatch batches part).filter keep).getLast? := by
  induction batches using List.reverseRecOn with
  | nil => exact absurd rfl kept
  | append_singleton batches batch ih =>
      rw [lastBatch_concat] at kept ⊢
      rw [List.flatMap_append, List.flatMap_singleton]
      split at kept
      · rename_i own
        rw [if_pos own, List.getLast?_append_of_ne_nil _ kept]
      · rename_i other
        have none : batch.2.filter keep = [] := by
          rw [List.filter_eq_nil_iff]
          intro trade inside keeps
          exact other (placed batch (List.mem_append_right _ List.mem_cons_self) trade inside keeps)
        rw [if_neg other, none, List.append_nil]
        exact ih (fun batch member => placed batch (List.mem_append_left _ member)) kept

end Batches

section Retention

variable {parts : List String}

omit [RawJson (AggTrade F)] [Zstandard] [Sha256] in
/-- What a read finds of one id is in the last batch of one directory. -/
theorem filter_lastBatches (distinct : parts.Nodup)
    (listed : ∀ part, part ∈ parts ↔ ∃ batch ∈ batchesOf writes, batch.part = part)
    {id time : Int} (timed : ∀ trade ∈ writes.flatten, trade.tradeId = id → trade.time = time) :
    (parts.flatMap (lastBatch (batchesOf writes))).filter (·.tradeId = id) =
      (lastBatch (batchesOf writes) (dayDirectory time)).filter (·.tradeId = id) := by
  have others : ∀ part ∈ parts, part ≠ dayDirectory time →
      (lastBatch (batchesOf writes) part).filter (·.tradeId = id) = [] := by
    intro part _ different
    rw [List.filter_eq_nil_iff]
    intro trade member own
    obtain ⟨known, dated⟩ := mem_lastBatch member
    rw [timed trade known (by simpa using own)] at dated
    exact different dated
  rw [List.filter_flatMap]
  have single := @Keyed.flatMap_eq_find String String _ (fun part => part) parts (dayDirectory time)
    (AggTrade F) (fun part => (lastBatch (batchesOf writes) part).filter (·.tradeId = id))
    (by simpa using distinct) others
  rw [single]
  cases found : Keyed.find (fun part : String => part) parts (dayDirectory time) with
  | some part => rw [Option.elim_some, Keyed.key_of_find found]
  | none =>
      have absent : Keyed.find RawBatch.part (batchesOf writes).reverse (dayDirectory time) = none := by
        rw [Keyed.find_eq_none_iff]
        intro batch member same
        have inside := (listed (dayDirectory time)).mpr ⟨batch, List.mem_reverse.mp member, same⟩
        exact Keyed.find_eq_none_iff.mp found _ inside rfl
      rw [lastBatch, absent]
      rfl

/-- A read delivers the last batches of the range. -/
theorem readRawTrades_ok (written : writeAllRawTrades instrument RawTree.empty writes = .ok after)
    (dumped : ∀ trade ∈ writes.flatten, Dumped trade) :
    ∃ parts : List String, parts.Nodup ∧
      (∀ part, part ∈ parts ↔ ∃ batch ∈ batchesOf writes, batch.part = part) ∧
        ∀ start stop, readRawTrades after instrument start stop =
          .ok (tradesById (tradesWithin start stop (parts.flatMap (lastBatch (batchesOf writes))))) := by
  have storable := storable_batchesOf dumped
  have holds : HoldsBatches (rawTradesKey instrument) _ _ := holdsBatches_foldl storable
  rw [← writeAllRawTrades_ok written] at holds
  obtain ⟨distinct, listed⟩ := holds.partitions storable
  refine ⟨_, distinct, listed, fun start stop => ?_⟩
  rw [readRawTrades, holds.readPartitions storable, ok_bind]
  rfl

omit [RawJson (AggTrade F)] [Zstandard] [Sha256] [PyText] in
/-- The trades of one id have one time, which the range has or has not. -/
theorem filter_tradesWithin {trades : List (AggTrade F)} {id time start stop : Int}
    (timed : ∀ trade ∈ trades, trade.tradeId = id → trade.time = time) :
    (tradesWithin start stop trades).filter (·.tradeId = id) =
      if start ≤ time ∧ time < stop then trades.filter (·.tradeId = id) else [] := by
  rw [tradesWithin, List.filter_filter]
  split
  · rename_i inside
    apply List.filter_congr
    intro trade member
    by_cases own : trade.tradeId = id
    · simp [own, timed trade member own, inside]
    · simp [own]
  · rename_i outside
    rw [List.filter_eq_nil_iff]
    intro trade member kept
    simp only [Bool.and_eq_true, decide_eq_true_eq] at kept
    rw [timed trade member kept.1] at kept
    exact outside kept.2

/-- Every id that a read misses is missing in the last batch of its day. -/
theorem retained_of_complete
    (written : writeAllRawTrades instrument RawTree.empty writes = .ok after)
    (dumped : ∀ trade ∈ writes.flatten, Dumped trade)
    (timed : ∀ trade ∈ writes.flatten, ∀ other ∈ writes.flatten,
      trade.tradeId = other.tradeId → trade.time = other.time)
    (complete : ∀ start stop, readRawTrades after instrument start stop =
      .ok (tradesById (tradesWithin start stop writes.flatten))) : Retained writes := by
  obtain ⟨parts, distinct, listed, read⟩ := readRawTrades_ok written dumped
  have known (trade : AggTrade F) (member : trade ∈ parts.flatMap (lastBatch (batchesOf writes))) :
      trade ∈ writes.flatten := by
    obtain ⟨part, -, inside⟩ := List.mem_flatMap.mp member
    exact (mem_lastBatch inside).1
  intro trade member
  have same := complete trade.time (trade.time + 1)
  rw [read, Except.ok.injEq, tradesById, tradesById, Keyed.byKey_eq_iff] at same
  have last := same trade.tradeId
  have own : trade ∈ (tradesWithin trade.time (trade.time + 1) writes.flatten).filter
      (·.tradeId = trade.tradeId) :=
    List.mem_filter.mpr ⟨List.mem_filter.mpr ⟨member, by simp⟩, by simp⟩
  obtain ⟨kept, ends⟩ := Option.isSome_iff_exists.mp
    (List.getLast?_isSome.mpr (List.ne_nil_of_mem own))
  rw [ends] at last
  have found := List.mem_filter.mp (List.mem_of_getLast? last)
  have inside := List.mem_of_mem_filter found.1
  have id : kept.tradeId = trade.tradeId := by simpa using found.2
  obtain ⟨part, -, batch⟩ := List.mem_flatMap.mp inside
  have dated := (mem_lastBatch batch).2
  rw [timed kept (known kept inside) trade member id] at dated
  exact ⟨kept, dated ▸ batch, id⟩

/-- The last batches of the days are enough when they have all ids. -/
theorem complete_of_retained
    (written : writeAllRawTrades instrument RawTree.empty writes = .ok after)
    (dumped : ∀ trade ∈ writes.flatten, Dumped trade)
    (timed : ∀ trade ∈ writes.flatten, ∀ other ∈ writes.flatten,
      trade.tradeId = other.tradeId → trade.time = other.time)
    (retained : Retained writes) (start stop : Int) :
    readRawTrades after instrument start stop =
      .ok (tradesById (tradesWithin start stop writes.flatten)) := by
  obtain ⟨parts, distinct, listed, read⟩ := readRawTrades_ok written dumped
  have known (trade : AggTrade F) (member : trade ∈ parts.flatMap (lastBatch (batchesOf writes))) :
      trade ∈ writes.flatten := by
    obtain ⟨part, -, inside⟩ := List.mem_flatMap.mp member
    exact (mem_lastBatch inside).1
  rw [read, Except.ok.injEq, tradesById, tradesById, Keyed.byKey_eq_iff]
  intro id
  by_cases occurs : ∃ trade ∈ writes.flatten, trade.tradeId = id
  · obtain ⟨trade, member, rfl⟩ := occurs
    have alike (other : AggTrade F) (inside : other ∈ writes.flatten)
        (same : other.tradeId = trade.tradeId) : other.time = trade.time :=
      timed other inside trade member same
    rw [filter_tradesWithin alike,
      filter_tradesWithin fun other inside => alike other (known other inside)]
    split
    · obtain ⟨kept, batch, id⟩ := retained trade member
      have nonempty : (lastBatch (batchesOf writes) (dayDirectory trade.time)).filter
          (·.tradeId = trade.tradeId) ≠ [] :=
        List.ne_nil_of_mem (List.mem_filter.mpr ⟨batch, by simpa using id⟩)
      rw [filter_lastBatches distinct listed alike]
      have last := getLast_batches (fun batch inside other row keeps => by
        obtain ⟨within, part⟩ := (mem_batchesOf inside).2 other row
        rw [part, alike other within (by simpa using keeps)]) nonempty
      have dated : ∀ other ∈ writes.flatten, decide (other.tradeId = trade.tradeId) = true →
          dayText other.time = dayText trade.time := fun other inside same => by
        rw [alike other inside (by simpa using same)]
      rw [← last, filter_batchesOf dated]
    · rfl
  · have none (trades : List (AggTrade F)) (from_writes : ∀ trade ∈ trades, trade ∈ writes.flatten) :
        (tradesWithin start stop trades).filter (·.tradeId = id) = [] := by
      rw [List.filter_eq_nil_iff]
      intro trade member own
      exact occurs ⟨trade, from_writes trade (List.mem_of_mem_filter member), by simpa using own⟩
    rw [none _ known, none _ fun _ member => member]

/-- Reads deliver all trades that were written exactly when each trade is in the last batch of its
day: a batch takes the place of the earlier ones of its day. -/
theorem rawTrades_retained_iff
    (written : writeAllRawTrades instrument RawTree.empty writes = .ok after)
    (dumped : ∀ trade ∈ writes.flatten, Dumped trade)
    (timed : ∀ trade ∈ writes.flatten, ∀ other ∈ writes.flatten,
      trade.tradeId = other.tradeId → trade.time = other.time) :
    (∀ start stop, readRawTrades after instrument start stop =
        .ok (tradesById (tradesWithin start stop writes.flatten))) ↔ Retained writes :=
  ⟨retained_of_complete written dumped timed, complete_of_retained written dumped timed⟩

end Retention

section Fresh

variable {history : List (AggTrade F)} {start stop : Int}

omit [RawJson (AggTrade F)] [Zstandard] [Sha256] in
/-- The trades of the last call stand in the last batches of their days. -/
theorem mem_lastBatch_last {trade : AggTrade F} (member : trade ∈ trades) :
    trade ∈ lastBatch (batchesOf (writes ++ [trades])) (dayDirectory trade.time) := by
  have split : batchesOf (writes ++ [trades]) =
      batchesOf writes ++ Grouping.groupBy (fun trade => dayText trade.time) trades := by
    simp [batchesOf]
  have own : trade ∈ trades.filter fun other => dayText other.time = dayText trade.time := by
    simp [member]
  have group := Grouping.mem_groupBy.mpr ⟨rfl, List.ne_nil_of_mem own⟩
  have occurs : (Keyed.find RawBatch.part
      (Grouping.groupBy (fun trade => dayText trade.time) trades).reverse (dayDirectory trade.time)).isSome := by
    apply Keyed.find_isSome_iff.mpr
    exact ⟨_, List.mem_reverse.mpr group, safePathPart_dayText trade.time⟩
  obtain ⟨⟨day, rows⟩, found⟩ := Option.isSome_iff_exists.mp occurs
  have inside := List.mem_reverse.mp (Keyed.mem_of_find found)
  have part : RawBatch.part (day, rows) = dayDirectory trade.time := Keyed.key_of_find found
  rw [RawBatch.part] at part
  obtain ⟨same, nonempty⟩ := Grouping.mem_groupBy.mp inside
  have dated : day = dayText trade.time := by
    obtain ⟨other, kept⟩ := List.exists_mem_of_ne_nil _ nonempty
    rw [same, List.mem_filter, decide_eq_true_eq] at kept
    rw [← kept.2, safePathPart_dayText, dayDirectory, dayDirectory, String.ofList_inj,
      List.append_right_inj] at part
    rw [← kept.2, dayText, dayText, part]
  rw [lastBatch, split, List.reverse_append, Keyed.find_append, found, Option.some_or, Option.elim_some,
    same, dated]
  exact own

/-- A call reads the trades of its range as it wrote them, whatever was written before. -/
theorem readRawTrades_fresh
    (written : writeAllRawTrades instrument RawTree.empty (writes ++ [tradesWithin start stop history]) =
      .ok after)
    (dumped : ∀ trade ∈ history, Dumped trade) (known : ∀ trade ∈ writes.flatten, trade ∈ history)
    (ids : history.Pairwise (·.tradeId < ·.tradeId)) :
    readRawTrades after instrument start stop = .ok (tradesWithin start stop history) := by
  have all : ∀ trade ∈ (writes ++ [tradesWithin start stop history]).flatten, trade ∈ history := by
    intro trade member
    rw [List.flatten_append, List.mem_append, List.flatten_singleton] at member
    rcases member with old | new
    · exact known trade old
    · exact (List.mem_filter.mp new).1
  obtain ⟨parts, -, listed, read⟩ := readRawTrades_ok written fun trade member => dumped trade (all trade member)
  rw [read, Except.ok.injEq]
  apply Keyed.byKey_eq_of_mem (ids.filter _)
  intro trade
  rw [tradesWithin, tradesWithin, List.mem_filter, List.mem_filter]
  apply and_congr_left
  intro inside
  constructor
  · intro member
    obtain ⟨part, -, batch⟩ := List.mem_flatMap.mp member
    exact all trade (mem_lastBatch batch).1
  · intro member
    have fetched : trade ∈ tradesWithin start stop history := List.mem_filter.mpr ⟨member, inside⟩
    have last : trade ∈ lastBatch (batchesOf (writes ++ [tradesWithin start stop history])) _ := mem_lastBatch_last fetched
    apply List.mem_flatMap.mpr
    refine ⟨dayDirectory trade.time, (listed _).mpr ?_, last⟩
    rw [lastBatch] at last
    cases found : Keyed.find RawBatch.part
        (batchesOf (writes ++ [tradesWithin start stop history])).reverse (dayDirectory trade.time) with
    | none => simp [found] at last
    | some batch => exact ⟨batch, List.mem_reverse.mp (Keyed.mem_of_find found), Keyed.key_of_find found⟩

end Fresh

end Trades

end MarketdataProvider

namespace MarketdataProvider

open Foundation Reference
open scoped Reference

namespace Reference

/-- The JSON text of a trade with whole numbers. -/
def tradeJson (trade : AggTrade Whole) : String :=
  "\x7b\"buyer_maker\":" ++ (if trade.buyerMaker then "true" else "false") ++
    ",\"price\":" ++ trade.price.text ++ ",\"quantity\":" ++ trade.quantity.text ++
    ",\"time\":" ++ toString trade.time ++ ",\"trade_id\":" ++ toString trade.tradeId ++ "\x7d"

/-- The values between the colons and the commas. -/
def jsonValues (text : String) : List (List Char) :=
  (text.toList.splitOn ',').map fun member =>
    ((member.dropWhile (· ≠ ':')).drop 1).takeWhile (· ≠ '\x7d')

def tradeOfJson (text : String) : Except PyError (AggTrade Whole) :=
  match jsonValues text with
  | [maker, price, quantity, time, id] =>
      match Whole.ofText (String.ofList price), Whole.ofText (String.ofList quantity), pyInt time,
          pyInt id with
      | some price, some quantity, some time, some id =>
          .ok ⟨id, time, price, quantity, String.ofList maker = "true"⟩
      | _, _, _, _ => .error (.valueError "JSONDecodeError")
  | _ => .error (.valueError "JSONDecodeError")

scoped instance tradeRawJson : RawJson (AggTrade Whole) where
  dumps := tradeJson
  loads := tradeOfJson

scoped instance zstandard : Zstandard where
  compress body := body
  decompress body := .ok body

/-- The second call has the trades of the first one again. -/
def overlapping : List (List (AggTrade Whole)) :=
  [[tradeAt (7, 5)], [tradeAt (7, 5), tradeAt (8, 6), tradeAt (9, 86400000)]]

/-- Two parts of one day. -/
def disjointParts : List (List (AggTrade Whole)) := [[tradeAt (7, 5)], [tradeAt (8, 6)]]

theorem dumped_of_texts {trades : List (AggTrade Whole)}
    (loads : (trades.all fun trade => (tradeOfJson (tradeJson trade)).toOption = some trade) = true)
    (oneLine : (trades.all fun trade => (tradeJson trade).toList.all fun character =>
      !isLineBreak character) = true)
    (visible : (trades.all fun trade => strip (tradeJson trade).toList ≠ []) = true) :
    ∀ trade ∈ trades, Dumped trade := by
  intro trade member
  refine ⟨?_, ?_, ?_⟩
  · have found := List.all_eq_true.mp loads trade member
    exact eq_ok_of_toOption (decide_eq_true_eq.mp found)
  · intro character inside
    have plain := List.all_eq_true.mp (List.all_eq_true.mp oneLine trade member) character inside
    simpa using plain
  · have shown := List.all_eq_true.mp visible trade member
    exact decide_eq_true_eq.mp shown

end Reference

/-- The second call of the first day repeats the first one, so that nothing is lost. -/
theorem rawTrades_retained_overlapping :
    ∃ after, writeAllRawTrades btcusdt RawTree.empty overlapping = .ok after ∧
      ∀ start stop, readRawTrades after btcusdt start stop =
        .ok (tradesById (tradesWithin start stop overlapping.flatten)) := by
  obtain ⟨after, written⟩ : ∃ after, writeAllRawTrades btcusdt RawTree.empty overlapping = .ok after :=
    eq_ok_of_toBool (by decide +kernel)
  have dumped : ∀ trade ∈ overlapping.flatten, Dumped trade :=
    dumped_of_texts (by decide +kernel) (by decide +kernel) (by decide +kernel)
  have retained : Retained overlapping := by
    unfold Retained
    decide +kernel
  exact ⟨after, written, (rawTrades_retained_iff written dumped (by decide)).mpr retained⟩

/-- The second part of a day hides the first one. -/
theorem first_part_hidden :
    ∃ after, writeAllRawTrades btcusdt RawTree.empty disjointParts = .ok after ∧
      ¬ ∀ start stop, readRawTrades after btcusdt start stop =
        .ok (tradesById (tradesWithin start stop disjointParts.flatten)) := by
  obtain ⟨after, written⟩ : ∃ after, writeAllRawTrades btcusdt RawTree.empty disjointParts = .ok after :=
    eq_ok_of_toBool (by decide +kernel)
  have dumped : ∀ trade ∈ disjointParts.flatten, Dumped trade :=
    dumped_of_texts (by decide +kernel) (by decide +kernel) (by decide +kernel)
  refine ⟨after, written, fun complete => ?_⟩
  have lost : ¬ Retained disjointParts := by
    unfold Retained
    decide +kernel
  exact lost (retained_of_complete written dumped (by decide) complete)

end MarketdataProvider
