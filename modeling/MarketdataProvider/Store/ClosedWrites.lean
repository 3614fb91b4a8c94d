import MarketdataProvider.Store.BulkWrite

namespace MarketdataProvider

open Foundation

section Payloads

variable {F : Type} [PyFloat F] {left right : List (MarketBar F)}

/-- Two lists of bars with one canonical payload at each time. -/
def SamePayloads (left right : List (MarketBar F)) : Prop :=
  ∀ time, Option.Rel (fun first second => first = second ∨ sameCanonicalCandle first second = true)
    (barAt left time) (barAt right time)

theorem samePayloads_of_eq (same : ∀ time, barAt left time = barAt right time) :
    SamePayloads left right := by
  intro time
  rw [same]
  cases barAt right time with
  | none => exact .none
  | some bar => exact .some (.inl rfl)

end Payloads

section Paths

variable [PyText] {F : Type} [PyFloat F] {stored : Option (ClosedSeries F)} {bar existing : MarketBar F}

/-- What every path should leave: the stored bars with a new one among them, the stored bars for a
duplicate, and nothing for a conflict. -/
def expectedBars (stored : Option (ClosedSeries F)) (bar : MarketBar F) : Option (List (MarketBar F)) :=
  match barAt (storedBars stored) bar.time with
  | none => some (insertByTime (storedBars stored) bar)
  | some existing => if sameCanonicalCandle existing bar then some (storedBars stored) else none

/-- A path that accepts a bar exactly when it should, and leaves the payloads that it should. -/
def Reaches (outcome : Except PyError (ClosedSeries F)) (expected : Option (List (MarketBar F))) : Prop :=
  match expected with
  | none => ∃ error, outcome = .error error
  | some bars => ∃ after, outcome = .ok after ∧ SamePayloads bars after.bars

/-- The series takes no bar in front of its tail by an append; an empty one takes none at all. -/
def AtTail (stored : Option (ClosedSeries F)) (bar : MarketBar F) : Prop :=
  ∀ series, stored = some series → ∃ endTime, series.endTime = some endTime ∧ endTime ≤ bar.time

theorem barAt_insertByTime (time : Int) : barAt (insertByTime (storedBars stored) bar) time =
    if time = bar.time then some bar else barAt (storedBars stored) time := Keyed.find_upsert

/-- A free time and a bar behind the stored ones: the payloads are those of the merge by time. -/
theorem samePayloads_of_lookup {bars : List (MarketBar F)} (free : barAt (storedBars stored) bar.time = none)
    (lookup : ∀ time, barAt bars time = (barAt (storedBars stored) time).or (barAt [bar] time)) :
    SamePayloads (insertByTime (storedBars stored) bar) bars := by
  apply samePayloads_of_eq
  intro time
  rw [barAt_insertByTime, lookup, barAt_cons]
  by_cases own : time = bar.time
  · rw [if_pos own, if_pos own.symm, own, free, Option.none_or]
  · rw [if_neg own, if_neg (Ne.symm own)]
    exact Option.or_none.symm

theorem key_of_admissible (admissible : bar.Admissible bar.key) :
    ∃ normal, normalizedKey bar.key = .ok normal := by
  obtain ⟨row, digested⟩ := admissible.digested
  exact normalizedKey_of_digested digested

theorem agrees_single (agrees : ∀ current, barAt (storedBars stored) bar.time = some current →
    sameCanonicalCandle current bar = true) : Agrees (storedBars stored) [bar] where
  stored other member := by
    rw [List.mem_singleton.mp member]
    exact agrees
  batch := List.pairwise_singleton _ _

theorem appendSeries_tail (series : ClosedSeries F) (csv : series.format = .csv)
    (admissible : bar.Admissible bar.key) {last : MarketBar F} (found : series.bars.getLast? = some last)
    (same : bar.time = last.time) : appendSeries (some series) [bar] bar.key =
      if sameCanonicalCandle bar last then .ok series else .error (conflict "Conflicting tail candle" bar.time) := by
  obtain ⟨normal, named⟩ := key_of_admissible admissible
  have accepted := validatedAppendBars_of_admissible named (List.forall_mem_singleton.mpr admissible)
    (List.pairwise_singleton _ _)
  rw [appendSeries_of_validated accepted]
  unfold appendIncoming
  rw [if_neg (by simp [csv])]
  dsimp only
  split
  · rename_i absent
    rw [found] at absent
    cases absent
  · rename_i other present
    obtain rfl : last = other := Option.some.inj (found.symm.trans present)
    rw [dif_neg (by omega), dif_pos same]

variable [Sha256]

theorem upsertSeries_accepts (admissible : bar.Admissible bar.key)
    (checked : checkClosedConflict (storedBars stored) bar = .ok ()) :
    ∃ after, upsertSeries stored bar = .ok after ∧
      ∀ time, barAt after.bars time = if time = bar.time then some bar else barAt (storedBars stored) time := by
  obtain ⟨normal, named⟩ := key_of_admissible admissible
  have known : ∀ other ∈ insertByTime (storedBars stored) bar, other = bar ∨ other ∈ storedBars stored :=
    fun other member => Keyed.mem_upsert member
  have stays : ∀ other ∈ storedBars stored, other.WellFormed ∧ ∃ row, updateChecksum .v4 other = .ok row := by
    cases stored with
    | none => simp [storedBars]
    | some series => exact fun other member => ⟨series.formed other member, series.digested other member⟩
  obtain ⟨after, replaced, -, -⟩ := @replaceSeries_of_distinct _ F _ .csv _ _ _
    (Keyed.nodup_upsert (distinct_storedBars stored))
    (fun other member => (known other member).elim (fun own => own ▸ admissible.formed)
      fun old => (stays other old).1)
    (fun other member => (known other member).elim (fun own => own ▸ admissible.digested)
      fun old => (stays other old).2) named
  have returned : upsertSeries stored bar = .ok after := by
    rw [upsertSeries, checked, ok_bind]
    exact replaced
  exact ⟨after, returned, barAt_upsertSeries returned⟩

/-- Both comparators of the paths give one answer about a stored candle and the new one. -/
def ComparatorsAgree (stored : Option (ClosedSeries F)) (bar : MarketBar F) : Prop :=
  ∀ existing, barAt (storedBars stored) bar.time = some existing →
    (marketBarChecksum existing = marketBarChecksum bar ↔ sameCanonicalCandle existing bar = true)

theorem marketBarChecksum_returns (digested : ∃ row, updateChecksum .v4 bar = .ok row) :
    ∃ checksum, marketBarChecksum bar = .ok checksum := by
  obtain ⟨row, updated⟩ := digested
  have rows : [bar].mapM (updateChecksum .v4) = .ok [row] := mapM_eq_ok.mpr (.cons updated .nil)
  have summed : rowsDigest .v4 [bar] = .ok (hexOfBytes (Sha256.digest [row].flatten)) := by
    rw [rowsDigest, rows, ok_bind]
    rfl
  exact ⟨_, summed⟩

omit [Sha256] in
theorem digested_of_barAt (found : barAt (storedBars stored) bar.time = some existing) :
    ∃ row, updateChecksum .v4 existing = .ok row := by
  cases stored with
  | none => cases found
  | some series => exact series.digested existing (mem_of_barAt found)

/-- A stored candle is compared by its digest. -/
theorem compareClosed_of_digested (first : ∃ row, updateChecksum .v4 existing = .ok row)
    (second : ∃ row, updateChecksum .v4 bar = .ok row) :
    (marketBarChecksum existing = marketBarChecksum bar → compareClosed existing bar = .ok .duplicate) ∧
      (marketBarChecksum existing ≠ marketBarChecksum bar →
        ∃ error, compareClosed existing bar = .error error) := by
  obtain ⟨old, oldSummed⟩ := marketBarChecksum_returns first
  obtain ⟨new, newSummed⟩ := marketBarChecksum_returns second
  rw [compareClosed, oldSummed, newSummed, ok_bind, ok_bind]
  constructor
  · intro same
    exact if_pos (Except.ok.inj same)
  · intro different
    exact ⟨_, if_neg fun same => different (congrArg Except.ok same)⟩

theorem checkClosedConflict_of_digested (found : barAt (storedBars stored) bar.time = some existing)
    (digested : ∃ row, updateChecksum .v4 bar = .ok row) :
    (marketBarChecksum existing = marketBarChecksum bar →
        checkClosedConflict (storedBars stored) bar = .ok ()) ∧
      (marketBarChecksum existing ≠ marketBarChecksum bar →
        ∃ error, checkClosedConflict (storedBars stored) bar = .error error) := by
  obtain ⟨old, oldSummed⟩ := marketBarChecksum_returns (digested_of_barAt found)
  obtain ⟨new, newSummed⟩ := marketBarChecksum_returns digested
  have known : (storedBars stored).find? (·.time = bar.time) = some existing := found
  rw [checkClosedConflict, known]
  dsimp only
  rw [oldSummed, newSummed, ok_bind, ok_bind]
  constructor
  · intro same
    exact if_pos (Except.ok.inj same)
  · intro different
    exact ⟨_, if_neg fun same => different (congrArg Except.ok same)⟩

/-- `upsert_closed` -/
theorem upsertSeries_reaches (admissible : bar.Admissible bar.key) (agree : ComparatorsAgree stored bar) :
    Reaches (upsertSeries stored bar) (expectedBars stored bar) := by
  unfold expectedBars
  cases found : barAt (storedBars stored) bar.time with
  | none =>
      have checked : checkClosedConflict (storedBars stored) bar = .ok () := by
        rw [checkClosedConflict, show (storedBars stored).find? (·.time = bar.time) = none from found]
      obtain ⟨after, returned, held⟩ := upsertSeries_accepts admissible checked
      refine ⟨after, returned, samePayloads_of_eq fun time => ?_⟩
      rw [barAt_insertByTime, held]
  | some existing =>
      obtain ⟨accepts, refuses⟩ := checkClosedConflict_of_digested found admissible.digested
      dsimp only
      split_ifs with same
      · obtain ⟨after, returned, held⟩ :=
          upsertSeries_accepts admissible (accepts ((agree existing found).mpr same))
        refine ⟨after, returned, fun time => ?_⟩
        rw [held]
        split_ifs with own
        · rw [own, found]
          exact .some (.inr same)
        · exact samePayloads_of_eq (fun _ => rfl) time
      · obtain ⟨error, refused⟩ := refuses fun equal => same ((agree existing found).mp equal)
        exact ⟨error, by rw [upsertSeries, refused]; rfl⟩

/-- `commit_closed` -/
theorem commitSeries_reaches (admissible : bar.Admissible bar.key) (agree : ComparatorsAgree stored bar) :
    Reaches (Prod.snd <$> commitSeries stored bar) (expectedBars stored bar) := by
  have upserted := upsertSeries_reaches admissible agree
  cases stored with
  | none =>
      obtain ⟨after, returned, same⟩ := upserted
      exact ⟨after, by rw [commitSeries, returned]; rfl, same⟩
  | some series =>
      unfold commitSeries
      dsimp only
      split_ifs with tail
      · obtain ⟨csv, later⟩ := tail
        obtain ⟨endTime, ends, after⟩ : ∃ endTime, series.endTime = some endTime ∧ endTime < bar.time := by
          simpa [Option.any_eq_true] using later
        obtain ⟨normal, named⟩ := key_of_admissible admissible
        obtain ⟨extended, returned, -, bars⟩ := appendSeries_of_newer csv ends named
          (List.forall_mem_singleton.mpr admissible) (List.pairwise_singleton _ _) after
        have free : barAt series.bars bar.time = none := by
          rw [barAt_eq_none_iff]
          intro old member equal
          have early := time_le_endTime ends member
          omega
        unfold expectedBars
        rw [show barAt (storedBars (some series)) bar.time = none from free]
        refine ⟨extended, by rw [returned]; rfl, samePayloads_of_lookup free fun time => ?_⟩
        rw [bars, barAt_append]
        rfl
      · cases found : series.find bar.time with
        | none =>
            unfold expectedBars at upserted ⊢
            rw [show barAt (storedBars (some series)) bar.time = none from found] at upserted ⊢
            obtain ⟨after, returned, same⟩ := upserted
            exact ⟨after, by dsimp only; rw [returned]; rfl, same⟩
        | some existing =>
            have held : barAt (storedBars (some series)) bar.time = some existing := found
            obtain ⟨accepts, refuses⟩ := compareClosed_of_digested (digested_of_barAt held) admissible.digested
            unfold expectedBars
            rw [held]
            dsimp only
            split_ifs with same
            · refine ⟨series, ?_, samePayloads_of_eq fun _ => rfl⟩
              rw [accepts ((agree existing held).mpr same)]
              rfl
            · obtain ⟨error, refused⟩ := refuses fun equal => same ((agree existing held).mp equal)
              exact ⟨error, by rw [refused]; rfl⟩

omit [Sha256] in
/-- A free time in front of the tail of either format: the bulk path writes the whole series again. -/
theorem bulkWriteSeries_backfill {series : ClosedSeries F} {endTime : Int}
    (ends : series.endTime = some endTime) (early : bar.time ≤ endTime)
    (free : barAt series.bars bar.time = none) (admissible : bar.Admissible bar.key) :
    ∃ after, bulkWriteSeries (some series) bar [] = .ok (1, after) ∧
      ∀ time, barAt after.bars time = (barAt series.bars time).or (barAt [bar] time) := by
  obtain ⟨normal, named⟩ := key_of_admissible admissible
  have absent : barAt (series.range (some bar.time) (some (bar.time + 1))) bar.time = none := by
    rw [barAt_eq_none_iff] at free ⊢
    intro other member
    exact free other (List.mem_filter.mp member).1
  have missing : requiresBackfill (series.range (some bar.time) (some (bar.time + 1))) [bar] = .ok true := by
    rw [requiresBackfill, List.foldlM_cons, absent]
    rfl
  have merged : addMissing series.bars [bar] = .ok (series.bars ++ [bar]) := by
    rw [addMissing, List.foldlM_cons, keepFirst, free]
    rfl
  have distinct : ((series.bars ++ [bar]).map (·.time)).Nodup := by
    rw [List.map_append, List.map_singleton, List.nodup_append]
    refine ⟨Keyed.nodup_of_sorted series.sorted, List.nodup_singleton _, ?_⟩
    intro time inside other own same
    obtain ⟨old, member, rfl⟩ := List.mem_map.mp inside
    obtain rfl := List.mem_singleton.mp own
    exact barAt_eq_none_iff.mp free old member same
  obtain ⟨after, replaced, -, bars⟩ := @replaceSeries_of_distinct _ F _ .csv _ _ _ distinct
    (List.forall_mem_append.mpr ⟨series.formed, List.forall_mem_singleton.mpr admissible.formed⟩)
    (List.forall_mem_append.mpr ⟨series.digested, List.forall_mem_singleton.mpr admissible.digested⟩) named
  have overlap : [bar].filter (fun other => other.time ≤ endTime) = [bar] :=
    List.filter_eq_self.mpr (List.forall_mem_singleton.mpr (decide_eq_true early))
  refine ⟨after, ?_, fun time => by rw [bars, barAt_sortByTime, barAt_append]⟩
  rw [bulkWriteSeries, show normalizeClosedBatch [bar] = .ok [bar] from rfl, ok_bind, Option.bind_some, ends,
    Option.map_some]
  change (requiresBackfill (storedOverlap series _) _ >>= _) = _
  rw [overlap, show storedOverlap series [bar] = series.range (some bar.time) (some (bar.time + 1)) from rfl,
    missing, ok_bind, if_pos rfl, merged, ok_bind, replaced, List.length_append, List.length_singleton,
    Nat.add_sub_cancel_left]
  rfl

omit [Sha256] in
/-- Without a tail the bulk path writes its bar alone. -/
theorem bulkWriteSeries_empty
    (empty : stored.bind (fun series => series.endTime.map fun endTime => (series, endTime)) = none)
    (admissible : bar.Admissible bar.key) :
    ∃ after, bulkWriteSeries stored bar [] = .ok (1, after) ∧ after.bars = [bar] := by
  obtain ⟨normal, named⟩ := key_of_admissible admissible
  obtain ⟨after, replaced, -, bars⟩ := @replaceSeries_of_valid _ F _ .csv _ _ _
    (List.pairwise_singleton _ bar) (List.forall_mem_singleton.mpr admissible.formed)
    (List.forall_mem_singleton.mpr admissible.digested) named
  refine ⟨after, ?_, bars⟩
  rw [bulkWriteSeries, show normalizeClosedBatch [bar] = .ok [bar] from rfl, ok_bind, empty]
  dsimp only
  rw [replaced]
  rfl

omit [Sha256] in
/-- Past the tail the bulk path appends. -/
theorem bulkWriteSeries_past {series : ClosedSeries F} {endTime : Int}
    (ends : series.endTime = some endTime) (past : endTime < bar.time) :
    bulkWriteSeries (some series) bar [] = (1, ·) <$> appendSeries (some series) [bar] bar.key := by
  have overlap : [bar].filter (fun other => other.time ≤ endTime) = [] :=
    List.filter_eq_nil_iff.mpr (by simpa using past)
  have tail : [bar].filter (fun other => endTime < other.time) = [bar] :=
    List.filter_eq_self.mpr (List.forall_mem_singleton.mpr (decide_eq_true past))
  rw [bulkWriteSeries, show normalizeClosedBatch [bar] = .ok [bar] from rfl, ok_bind, Option.bind_some, ends,
    Option.map_some]
  dsimp only
  rw [overlap, tail]
  rfl

omit [Sha256] in
/-- A series that the bulk path can write: Parquet takes no bar past its tail. -/
def BulkReaches (stored : Option (ClosedSeries F)) (bar : MarketBar F) : Prop :=
  ∀ series, stored = some series → series.format = .csv ∨
    ∀ endTime, series.endTime = some endTime → bar.time ≤ endTime

omit [Sha256] in
/-- A bar at a free time is one new bar of the bulk path. -/
theorem bulkWriteSeries_new (admissible : bar.Admissible bar.key) (reached : BulkReaches stored bar)
    (free : barAt (storedBars stored) bar.time = none) :
    ∃ after, bulkWriteSeries stored bar [] = .ok (1, after) ∧
      SamePayloads (insertByTime (storedBars stored) bar) after.bars := by
  cases held : stored.bind fun series => series.endTime.map fun endTime => (series, endTime) with
  | none =>
      obtain ⟨after, returned, bars⟩ := bulkWriteSeries_empty held admissible
      refine ⟨after, returned, samePayloads_of_lookup free fun time => ?_⟩
      rw [bars, storedBars_of_noEnd held]
      rfl
  | some pair =>
      obtain ⟨series, rfl, endTime, ends, rfl⟩ : ∃ series, stored = some series ∧
          ∃ endTime, series.endTime = some endTime ∧ (series, endTime) = pair := by
        simpa [Option.bind_eq_some_iff] using held
      rcases lt_or_ge endTime bar.time with past | early
      · have csv : series.format = .csv := by
          rcases reached series rfl with csv | early
          · exact csv
          · have := early endTime ends
            omega
        obtain ⟨normal, named⟩ := key_of_admissible admissible
        obtain ⟨after, returned, -, bars⟩ := appendSeries_of_newer csv ends named
          (List.forall_mem_singleton.mpr admissible) (List.pairwise_singleton _ _) past
        refine ⟨after, by rw [bulkWriteSeries_past ends past, returned]; rfl, ?_⟩
        apply samePayloads_of_lookup free
        intro time
        rw [bars, barAt_append]
        rfl
      · obtain ⟨after, returned, lookup⟩ := bulkWriteSeries_backfill ends early free admissible
        exact ⟨after, returned, samePayloads_of_lookup free lookup⟩

omit [Sha256] in
/-- A bar with the payload of the stored one is no new bar of the bulk path. -/
theorem bulkWriteSeries_duplicate (equality : FloatEquality F)
    (found : barAt (storedBars stored) bar.time = some existing)
    (same : sameCanonicalCandle existing bar = true) :
    ∃ series, stored = some series ∧ bulkWriteSeries stored bar [] = .ok (0, series) := by
  cases stored with
  | none => cases found
  | some series =>
      have agrees : Agrees (storedBars (some series)) [bar] :=
        agrees_single fun current other => Option.some.inj (found.symm.trans other) ▸ same
      refine ⟨series, rfl, bulkWriteSeries_known equality agrees (List.forall_mem_singleton.mpr ?_)⟩
      rw [show barAt series.bars bar.time = some existing from found]
      rfl

omit [Sha256] in
/-- `_bulk_write_closed` of a batch of one bar. -/
theorem bulkWriteSeries_reaches (equality : FloatEquality F) (admissible : bar.Admissible bar.key)
    (reached : BulkReaches stored bar) :
    Reaches (Prod.snd <$> bulkWriteSeries stored bar []) (expectedBars stored bar) := by
  unfold expectedBars
  cases found : barAt (storedBars stored) bar.time with
  | none =>
      obtain ⟨after, returned, same⟩ := bulkWriteSeries_new admissible reached found
      exact ⟨after, by rw [returned]; rfl, same⟩
  | some existing =>
      dsimp only
      split_ifs with same
      · obtain ⟨series, rfl, returned⟩ := bulkWriteSeries_duplicate equality found same
        exact ⟨series, by rw [returned]; rfl, samePayloads_of_eq fun _ => rfl⟩
      · have disagrees : ¬ Agrees (storedBars stored) [bar] := fun agrees =>
          same (agrees.stored bar List.mem_cons_self existing found)
        obtain ⟨error, refused⟩ := bulkWriteSeries_conflict equality disagrees
        exact ⟨error, by rw [refused]; rfl⟩

omit [Sha256] in
/-- `append_strictly_newer` at the tail. -/
theorem appendSeries_reaches (equality : FloatEquality F)
    (csv : ∀ series, stored = some series → series.format = .csv) (admissible : bar.Admissible bar.key)
    (tail : AtTail stored bar) : Reaches (appendSeries stored [bar] bar.key) (expectedBars stored bar) := by
  obtain ⟨normal, named⟩ := key_of_admissible admissible
  have alone : ∀ other ∈ [bar], other.Admissible bar.key := List.forall_mem_singleton.mpr admissible
  cases stored with
  | none =>
      have accepted := validatedAppendBars_of_admissible named alone (List.pairwise_singleton _ _)
      obtain ⟨after, replaced, -, bars⟩ := @replaceSeries_of_valid _ F _ .csv _ _ _
        (List.pairwise_singleton _ bar) (List.forall_mem_singleton.mpr admissible.formed)
        (List.forall_mem_singleton.mpr admissible.digested) named
      refine ⟨after, by rw [appendSeries_first accepted]; exact replaced, samePayloads_of_eq fun time => ?_⟩
      rw [bars]
      rfl
  | some series =>
      obtain ⟨endTime, ends, early⟩ := tail series rfl
      rcases early.lt_or_eq with later | same
      · have free : barAt (storedBars (some series)) bar.time = none := by
          rw [barAt_eq_none_iff]
          intro old member equal
          have bound := time_le_endTime ends member
          omega
        obtain ⟨after, returned, -, bars⟩ := appendSeries_of_newer (csv series rfl) ends named alone
          (List.pairwise_singleton _ _) later
        unfold expectedBars
        rw [free]
        refine ⟨after, returned, samePayloads_of_lookup free fun time => ?_⟩
        rw [bars, barAt_append]
        rfl
      · obtain ⟨last, found, rfl⟩ := endTime_eq_some_iff.mp ends
        have held : barAt (storedBars (some series)) bar.time = some last :=
          (barAt_eq_some_iff series.sorted).mpr ⟨List.mem_of_getLast? found, same⟩
        have outcome := appendSeries_tail series (csv series rfl) admissible found same.symm
        unfold expectedBars
        rw [held]
        dsimp only
        split_ifs with equal
        · refine ⟨series, ?_, samePayloads_of_eq fun _ => rfl⟩
          rw [outcome, if_pos (sameCanonicalCandle_symm equality equal)]
        · refine ⟨conflict "Conflicting tail candle" bar.time, ?_⟩
          rw [outcome, if_neg fun again => equal (sameCanonicalCandle_symm equality again)]

/-- Only a stored time is a duplicate of the commit. -/
theorem commitSeries_status {status : CommitStatus} {after : ClosedSeries F}
    (returned : commitSeries stored bar = .ok (status, after)) :
    status = .duplicate ↔ (barAt (storedBars stored) bar.time).isSome = true := by
  have added {outcome : Except PyError (ClosedSeries F)}
      (mapped : (CommitStatus.committed, ·) <$> outcome = .ok (status, after)) : status = .committed := by
    obtain ⟨_, -, same⟩ := map_eq_ok.mp mapped
    exact (Prod.mk.inj same).1.symm
  cases stored with
  | none =>
      obtain rfl := added returned
      simp [storedBars, barAt, Keyed.find]
  | some series =>
      unfold commitSeries at returned
      dsimp only at returned
      split_ifs at returned with tail
      · obtain rfl := added returned
        obtain ⟨endTime, ends, after⟩ : ∃ endTime, series.endTime = some endTime ∧ endTime < bar.time := by
          simpa [Option.any_eq_true] using tail.2
        have free : barAt (storedBars (some series)) bar.time = none := by
          rw [barAt_eq_none_iff]
          intro old member equal
          have early := time_le_endTime ends member
          omega
        simp [free]
      · rw [show (barAt (storedBars (some series)) bar.time) = series.find bar.time from rfl]
        cases found : series.find bar.time with
        | none =>
            rw [found] at returned
            obtain rfl := added returned
            simp
        | some existing =>
            rw [found] at returned
            obtain ⟨compared, same, pair⟩ := map_eq_ok.mp returned
            obtain ⟨rfl, rfl⟩ := Prod.mk.inj pair
            simp only [compareClosed, bind_eq_ok] at same
            obtain ⟨_, -, _, -, same⟩ := same
            split at same
            · cases same
              simp
            · cases same

omit [Sha256] in
/-- The bulk path counts a bar exactly when its time is free. -/
theorem bulkWriteSeries_counts (equality : FloatEquality F) (admissible : bar.Admissible bar.key)
    {count : Nat} {after : ClosedSeries F} (returned : bulkWriteSeries stored bar [] = .ok (count, after)) :
    count = if (barAt (storedBars stored) bar.time).isSome then 0 else 1 := by
  cases found : barAt (storedBars stored) bar.time with
  | some existing =>
      by_cases same : sameCanonicalCandle existing bar = true
      · obtain ⟨series, -, known⟩ := bulkWriteSeries_duplicate equality found same
        exact (Prod.mk.inj (Except.ok.inj (returned.symm.trans known))).1
      · have disagrees : ¬ Agrees (storedBars stored) [bar] := fun agrees =>
          same (agrees.stored bar List.mem_cons_self existing found)
        obtain ⟨error, refused⟩ := bulkWriteSeries_conflict equality disagrees
        cases returned.symm.trans refused
  | none =>
      by_cases reached : BulkReaches stored bar
      · obtain ⟨_, known, -⟩ := bulkWriteSeries_new admissible reached found
        exact (Prod.mk.inj (Except.ok.inj (returned.symm.trans known))).1
      · unfold BulkReaches at reached
        push Not at reached
        obtain ⟨series, rfl, -, endTime, ends, past⟩ := reached
        rw [bulkWriteSeries_past ends past] at returned
        obtain ⟨_, -, pair⟩ := map_eq_ok.mp returned
        exact (Prod.mk.inj pair).1.symm

omit [Sha256] in
/-- Parquet segments take no append, so the bulk path stops at their tail. -/
theorem parquet_refuses {series : ClosedSeries F} (parquet : series.format = .parquet)
    (admissible : bar.Admissible bar.key) :
    appendSeries (some series) [bar] bar.key = .error (.mdUnsupportedFeature
        "Bounded incremental append is supported only for CSV segments") ∧
      ∀ endTime, series.endTime = some endTime → endTime < bar.time →
        bulkWriteSeries (some series) bar [] = .error (.mdUnsupportedFeature
          "Bounded incremental append is supported only for CSV segments") := by
  obtain ⟨normal, named⟩ := key_of_admissible admissible
  have refused := appendSeries_parquet parquet (validatedAppendBars_of_admissible named
    (List.forall_mem_singleton.mpr admissible) (List.pairwise_singleton _ bar))
  refine ⟨refused, ?_⟩
  intro endTime ends past
  rw [bulkWriteSeries_past ends past, refused]
  rfl

/-- What the four paths do with one closed bar. -/
structure ClosedPaths (stored : Option (ClosedSeries F)) (bar : MarketBar F) : Prop where
  commit : Reaches (Prod.snd <$> commitSeries stored bar) (expectedBars stored bar)
  upsert : Reaches (upsertSeries stored bar) (expectedBars stored bar)
  bulk : BulkReaches stored bar →
    Reaches (Prod.snd <$> bulkWriteSeries stored bar []) (expectedBars stored bar)
  append : (∀ series, stored = some series → series.format = .csv) → AtTail stored bar →
    Reaches (appendSeries stored [bar] bar.key) (expectedBars stored bar)
  status : ∀ status after, commitSeries stored bar = .ok (status, after) →
    (status = .duplicate ↔ (barAt (storedBars stored) bar.time).isSome = true)
  counted : ∀ count after, bulkWriteSeries stored bar [] = .ok (count, after) →
    count = if (barAt (storedBars stored) bar.time).isSome then 0 else 1
  parquet : ∀ series, stored = some series → series.format = .parquet →
    appendSeries stored [bar] bar.key = .error (.mdUnsupportedFeature
        "Bounded incremental append is supported only for CSV segments") ∧
      ∀ endTime, series.endTime = some endTime → endTime < bar.time →
        bulkWriteSeries stored bar [] = .error (.mdUnsupportedFeature
          "Bounded incremental append is supported only for CSV segments")

/-- The closed-write paths agree on what is new, what is a duplicate and what is a conflict. -/
theorem closed_write_paths_agree (equality : FloatEquality F) (admissible : bar.Admissible bar.key)
    (agree : ComparatorsAgree stored bar) : ClosedPaths stored bar where
  commit := commitSeries_reaches admissible agree
  upsert := upsertSeries_reaches admissible agree
  bulk := bulkWriteSeries_reaches equality admissible
  append := fun csv tail => appendSeries_reaches equality csv admissible tail
  status := fun _ _ => commitSeries_status
  counted := fun _ _ => bulkWriteSeries_counts equality admissible
  parquet := by
    rintro series rfl format
    exact parquet_refuses format admissible

end Paths

open Reference

open scoped Reference

theorem candle_admissible : (candle 60000).Admissible (candle 60000).key where
  semantics := eq_ok_of_toOption (by decide +kernel)
  named := rfl
  formed := candle_formed 60000
  digested := eq_ok_of_toBool (by decide +kernel)

/-- The candle of a Parquet segment. -/
def parquetCandle : ClosedSeries Whole := { middleCandle with format := .parquet }

end MarketdataProvider
