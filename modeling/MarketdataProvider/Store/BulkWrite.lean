import Mathlib.Data.Finset.Card
import MarketdataProvider.Store.SameCandle
import MarketdataProvider.Store.SeriesWrites

namespace MarketdataProvider

open Foundation

section Agree

variable {F : Type} [PyFloat F] {existing incoming bars : List (MarketBar F)} {time : Int}

/-- No bar disagrees with a stored bar or with another incoming bar of its time. -/
structure Agrees (existing incoming : List (MarketBar F)) : Prop where
  stored : ∀ bar ∈ incoming, ∀ current, barAt existing bar.time = some current →
    sameCanonicalCandle current bar = true
  batch : incoming.Pairwise fun left right => left.time = right.time → sameCanonicalCandle left right = true

/-- The outcome of taking in the bars of a list, each time once. -/
structure TakesIn (existing incoming result : List (MarketBar F)) : Prop where
  added : ∃ fresh, result = existing ++ fresh ∧ fresh.Sublist incoming
  distinct : (existing.map (·.time)).Nodup → (result.map (·.time)).Nodup
  lookup : ∀ time, barAt result time = (barAt existing time).or (barAt incoming time)

omit [PyFloat F] in
theorem barAt_cons {bar : MarketBar F} :
    barAt (bar :: bars) time = if bar.time = time then some bar else barAt bars time := by
  rw [barAt, Keyed.find, List.find?_cons]
  by_cases own : bar.time = time
  · simp [own]
  · simp [own, barAt, Keyed.find]

/-- A bar at a free time joins the kept ones. -/
theorem agrees_free {bar : MarketBar F} (free : barAt existing bar.time = none) :
    Agrees existing (bar :: incoming) ↔ Agrees (existing ++ [bar]) incoming := by
  have lookup (time : Int) : barAt (existing ++ [bar]) time =
      (barAt existing time).or (if bar.time = time then some bar else none) := by
    rw [barAt_append, barAt_cons]
    rfl
  constructor
  · rintro ⟨stored, batch⟩
    rw [List.pairwise_cons] at batch
    refine ⟨?_, batch.2⟩
    intro other member current found
    rw [lookup] at found
    cases old : barAt existing other.time with
    | some kept =>
        rw [old, Option.some_or] at found
        obtain rfl := Option.some.inj found
        exact stored other (List.mem_cons_of_mem _ member) kept old
    | none =>
        rw [old, Option.none_or] at found
        split at found
        · rename_i own
          obtain rfl := Option.some.inj found
          exact batch.1 other member own
        · cases found
  · rintro ⟨stored, batch⟩
    refine ⟨?_, List.pairwise_cons.mpr ⟨?_, batch⟩⟩
    · intro other member current found
      rcases List.mem_cons.mp member with rfl | later
      · rw [free] at found
        cases found
      · apply stored other later
        rw [lookup, found, Option.some_or]
    · intro other member own
      apply stored other member
      rw [lookup, ← own, free, Option.none_or, if_pos rfl]

/-- A bar with the payload of the kept one changes nothing. -/
theorem agrees_taken (equality : FloatEquality F) {bar current : MarketBar F}
    (taken : barAt existing bar.time = some current) (same : sameCanonicalCandle current bar = true) :
    Agrees existing (bar :: incoming) ↔ Agrees existing incoming := by
  constructor
  · rintro ⟨stored, batch⟩
    exact ⟨fun other member => stored other (List.mem_cons_of_mem _ member), (List.pairwise_cons.mp batch).2⟩
  · rintro ⟨stored, batch⟩
    refine ⟨?_, List.pairwise_cons.mpr ⟨?_, batch⟩⟩
    · intro other member kept found
      rcases List.mem_cons.mp member with rfl | later
      · rw [taken] at found
        exact Option.some.inj found ▸ same
      · exact stored other later kept found
    · intro other member own
      have behind := stored other member current (own ▸ taken)
      exact sameCanonicalCandle_trans equality (sameCanonicalCandle_symm equality same) behind

/-- Taking in bars fails exactly at a disagreement. -/
theorem addMissing_spec (equality : FloatEquality F) :
    (Agrees existing incoming → ∃ result, addMissing existing incoming = .ok result ∧
      TakesIn existing incoming result) ∧
    (¬ Agrees existing incoming → ∃ error, addMissing existing incoming = .error error) := by
  induction incoming generalizing existing with
  | nil =>
      refine ⟨?_, ?_⟩
      · intro _
        refine ⟨existing, rfl, ⟨[], by simp⟩, fun distinct => distinct, ?_⟩
        intro time
        exact Option.or_none.symm
      · intro disagrees
        exact absurd ⟨by simp, List.Pairwise.nil⟩ disagrees
  | cons bar incoming ih =>
      have unfolded : addMissing existing (bar :: incoming) =
          (keepFirst existing bar >>= fun kept => addMissing kept incoming) := List.foldlM_cons ..
      cases found : barAt existing bar.time with
      | none =>
          have step : keepFirst existing bar = .ok (existing ++ [bar]) := by
            rw [keepFirst, found]
          rw [agrees_free found, unfolded, step, ok_bind]
          obtain ⟨returns, fails⟩ := @ih (existing ++ [bar])
          refine ⟨?_, fails⟩
          intro agrees
          obtain ⟨result, made, taken⟩ := returns agrees
          refine ⟨result, made, ?_, ?_, ?_⟩
          · obtain ⟨fresh, same, sublist⟩ := taken.added
            exact ⟨bar :: fresh, by rw [same, List.append_assoc]; rfl, sublist.cons_cons bar⟩
          · intro distinct
            apply taken.distinct
            rw [List.map_append, List.nodup_append]
            refine ⟨distinct, List.nodup_singleton _, ?_⟩
            intro left inside right own same
            obtain ⟨other, member, rfl⟩ := List.mem_map.mp inside
            obtain rfl := List.mem_singleton.mp own
            exact barAt_eq_none_iff.mp found other member same
          · intro time
            rw [taken.lookup, barAt_append, @barAt_cons _ incoming, Option.or_assoc, barAt_cons]
            split <;> rfl
      | some current =>
          by_cases same : sameCanonicalCandle current bar = true
          · have step : keepFirst existing bar = .ok existing := by
              rw [keepFirst, found]
              exact if_pos same
            rw [agrees_taken equality found same, unfolded, step, ok_bind]
            obtain ⟨returns, fails⟩ := @ih existing
            refine ⟨?_, fails⟩
            intro agrees
            obtain ⟨result, made, taken⟩ := returns agrees
            refine ⟨result, made, ?_, taken.distinct, ?_⟩
            · obtain ⟨fresh, equal, sublist⟩ := taken.added
              exact ⟨fresh, equal, sublist.cons bar⟩
            · intro time
              rw [taken.lookup, barAt_cons]
              split
              · rename_i own
                rw [← own, found, Option.some_or, Option.some_or]
              · rfl
          · refine ⟨?_, ?_⟩
            · intro agrees
              exact absurd (agrees.stored bar List.mem_cons_self current found) same
            · intro _
              refine ⟨conflictingClosed bar.time, ?_⟩
              rw [unfolded, keepFirst, found]
              dsimp only
              rw [if_neg same]
              rfl

omit [PyFloat F] in
/-- The order of bars at one time is that of the batch. -/
theorem filter_sortByTime (time : Int) : (sortByTime bars).filter (fun bar => bar.time = time) =
    bars.filter fun bar => bar.time = time := by
  have own : (bars.filter fun bar => bar.time = time).Pairwise (·.time ≤ ·.time) := by
    apply List.pairwise_of_forall_mem_list
    intro left first right second
    have early := (List.mem_filter.mp first).2
    have late := (List.mem_filter.mp second).2
    rw [of_decide_eq_true early, of_decide_eq_true late]
  have kept := (List.sublist_insertionSort own List.filter_sublist).filter fun bar => bar.time = time
  rw [List.filter_filter] at kept
  simp only [Bool.and_self] at kept
  have size : ((sortByTime bars).filter fun bar => bar.time = time).length =
      (bars.filter fun bar => bar.time = time).length :=
    ((List.perm_insertionSort _ bars).filter _).length_eq
  exact (kept.eq_of_length size.symm).symm

omit [PyFloat F] in
theorem barAt_sortByTime (time : Int) : barAt (sortByTime bars) time = barAt bars time := by
  rw [barAt, Keyed.find, ← List.head?_filter, filter_sortByTime, List.head?_filter]
  rfl

/-- Sorting a batch brings no disagreement and takes none away. -/
theorem agrees_sortByTime (equality : FloatEquality F) :
    Agrees existing (sortByTime bars) ↔ Agrees existing bars := by
  have perm : (sortByTime bars).Perm bars := List.perm_insertionSort _ bars
  have symmetric {left right : MarketBar F}
      (same : left.time = right.time → sameCanonicalCandle left right = true) (own : right.time = left.time) :
      sameCanonicalCandle right left = true := sameCanonicalCandle_symm equality (same own.symm)
  constructor
  · rintro ⟨stored, batch⟩
    exact ⟨fun bar member => stored bar (perm.mem_iff.mpr member),
      (perm.pairwise_iff symmetric).mp batch⟩
  · rintro ⟨stored, batch⟩
    exact ⟨fun bar member => stored bar (perm.mem_iff.mp member),
      (perm.pairwise_iff symmetric).mpr batch⟩

/-- The first bar of each time, in time order. -/
structure FirstBars (bars kept : List (MarketBar F)) : Prop where
  sorted : kept.Pairwise (·.time < ·.time)
  lookup : ∀ time, barAt kept time = barAt bars time

omit [PyFloat F] in
theorem FirstBars.mem {kept : List (MarketBar F)} (first : FirstBars bars kept) :
    ∀ bar ∈ kept, bar ∈ bars := by
  intro bar member
  have found := (barAt_eq_some_iff first.sorted).mpr ⟨member, rfl⟩
  rw [first.lookup] at found
  exact mem_of_barAt found

/-- A batch without a disagreement of its own has one bar for each time. -/
theorem normalizeClosedBatch_spec (equality : FloatEquality F) :
    (Agrees [] bars → ∃ kept, normalizeClosedBatch bars = .ok kept ∧ FirstBars bars kept) ∧
    (¬ Agrees [] bars → ∃ error, normalizeClosedBatch bars = .error error) := by
  have spec := @addMissing_spec F _ [] (sortByTime bars) equality
  rw [agrees_sortByTime equality] at spec
  refine ⟨?_, spec.2⟩
  intro agrees
  obtain ⟨kept, made, taken⟩ := spec.1 agrees
  obtain ⟨fresh, same, sublist⟩ := taken.added
  rw [List.nil_append] at same
  have ordered : (sortByTime bars).Pairwise (·.time ≤ ·.time) := List.pairwise_insertionSort _ _
  have distinct := List.pairwise_map.mp (taken.distinct List.nodup_nil)
  refine ⟨kept, made, ?_, ?_⟩
  · exact ((ordered.sublist (same ▸ sublist)).and distinct).imp fun both => lt_of_le_of_ne both.1 both.2
  · intro time
    rw [taken.lookup, barAt_sortByTime]
    exact Option.none_or

/-- The stored bars agree with a batch when they agree with its first bars. -/
theorem agrees_iff_kept (equality : FloatEquality F) {kept : List (MarketBar F)}
    (batch : Agrees [] bars) (first : FirstBars bars kept) : Agrees existing bars ↔
      ∀ bar ∈ kept, ∀ current, barAt existing bar.time = some current →
        sameCanonicalCandle current bar = true := by
  constructor
  · intro agrees bar member
    exact agrees.stored bar (first.mem bar member)
  · intro stored
    refine ⟨?_, batch.batch⟩
    intro bar member current found
    obtain ⟨head, kind⟩ : ∃ head, barAt bars bar.time = some head := by
      apply Option.isSome_iff_exists.mp
      rw [barAt_isSome_iff]
      exact List.mem_map_of_mem member
    have headTime := time_of_barAt kind
    have headKept : barAt kept bar.time = some head := (first.lookup _).trans kind
    have own := stored head (mem_of_barAt headKept) current (headTime ▸ found)
    rw [barAt, Keyed.find, ← List.head?_filter, List.head?_eq_some_iff] at kind
    obtain ⟨later, rows⟩ := kind
    have inside : bar ∈ head :: later := by
      rw [← rows]
      exact List.mem_filter.mpr ⟨member, decide_eq_true rfl⟩
    rcases List.mem_cons.mp inside with rfl | behind
    · exact own
    · have pairs := batch.batch.filter fun other => decide (other.time = bar.time)
      rw [rows] at pairs
      exact sameCanonicalCandle_trans equality own (List.rel_of_pairwise_cons pairs behind headTime)

/-- One step of the check of the overlap. -/
def checkOverlap (existing : List (MarketBar F)) (missing : Bool) (bar : MarketBar F) : Except PyError Bool :=
  match barAt existing bar.time with
  | none => .ok true
  | some current =>
      if sameCanonicalCandle current bar then .ok missing else .error (conflictingClosed bar.time)

theorem checkOverlap_spec {overlap : List (MarketBar F)} (missing : Bool) :
    ((∀ bar ∈ overlap, ∀ current, barAt existing bar.time = some current →
        sameCanonicalCandle current bar = true) → overlap.foldlM (checkOverlap existing) missing =
      .ok (missing || overlap.any fun bar => (barAt existing bar.time).isNone)) ∧
    ((¬ ∀ bar ∈ overlap, ∀ current, barAt existing bar.time = some current →
        sameCanonicalCandle current bar = true) →
      ∃ error, overlap.foldlM (checkOverlap existing) missing = .error error) := by
  induction overlap generalizing missing with
  | nil => simp [pure, Except.pure]
  | cons bar overlap ih =>
      rw [List.foldlM_cons, List.forall_mem_cons, List.any_cons, checkOverlap]
      cases found : barAt existing bar.time with
      | none =>
          simpa [ok_bind] using ih true
      | some current =>
          by_cases same : sameCanonicalCandle current bar = true
          · simpa [same, ok_bind] using ih missing
          · refine ⟨?_, ?_⟩
            · rintro ⟨own, -⟩
              exact absurd (own current rfl) same
            · intro _
              refine ⟨conflictingClosed bar.time, ?_⟩
              dsimp only
              rw [if_neg same]
              rfl

/-- The check of the overlap fails exactly at a disagreement, and else it finds a missing time. -/
theorem requiresBackfill_spec {overlap : List (MarketBar F)} :
    ((∀ bar ∈ overlap, ∀ current, barAt existing bar.time = some current →
        sameCanonicalCandle current bar = true) →
      requiresBackfill existing overlap =
        .ok (overlap.any fun bar => (barAt existing bar.time).isNone)) ∧
    ((¬ ∀ bar ∈ overlap, ∀ current, barAt existing bar.time = some current →
        sameCanonicalCandle current bar = true) →
      ∃ error, requiresBackfill existing overlap = .error error) :=
  checkOverlap_spec false

end Agree

section Write

variable [PyText] {F : Type} [PyFloat F] {stored : Option (ClosedSeries F)} {series : ClosedSeries F}
  {first : MarketBar F} {rest batch kept fresh : List (MarketBar F)} {time : Int}

/-- The times of a batch that are not stored. -/
def newTimes (stored : Option (ClosedSeries F)) (batch : List (MarketBar F)) : Finset Int :=
  (batch.map (·.time)).toFinset \ ((storedBars stored).map (·.time)).toFinset

theorem length_eq_newTimes (distinct : (fresh.map (·.time)).Nodup)
    (same : ∀ time, time ∈ fresh.map (·.time) ↔
      time ∈ batch.map (·.time) ∧ time ∉ (storedBars stored).map (·.time)) :
    fresh.length = (newTimes stored batch).card := by
  have times : (fresh.map (·.time)).toFinset = newTimes stored batch := by
    ext time
    rw [List.mem_toFinset, same, newTimes, Finset.mem_sdiff, List.mem_toFinset, List.mem_toFinset]
  rw [← times, List.toFinset_card_of_nodup distinct, List.length_map]

omit [PyText] [PyFloat F] in
theorem FirstBars.times (one : FirstBars batch kept) :
    time ∈ kept.map (·.time) ↔ time ∈ batch.map (·.time) := by
  rw [← barAt_isSome_iff, one.lookup, barAt_isSome_iff]

/-- What a bulk write stores: every time once, and the stored bars as they were. -/
structure Merged (stored : Option (ClosedSeries F)) (batch : List (MarketBar F)) (count : Nat)
    (after : ClosedSeries F) : Prop where
  csv : after.format = .csv
  union : ∀ time, barAt after.bars time = (barAt (storedBars stored) time).or (barAt batch time)
  counted : count = (newTimes stored batch).card

/-- A digested bar has a key. -/
theorem normalizedKey_of_digested {bar : MarketBar F} {row : List UInt8}
    (digested : updateChecksum .v4 bar = .ok row) : ∃ normal, normalizedKey bar.key = .ok normal := by
  simp only [updateChecksum, updateChecksumV4, updateChecksumIdentity, bind_eq_ok] at digested
  obtain ⟨_, ⟨_, -, _, -, _, -, _, -, _, -, timeframe, accepted, -⟩, -⟩ := digested
  refine ⟨⟨PyText.lower bar.exchange, PyText.lower bar.market, PyText.upper bar.symbol, timeframe,
    bar.sourceKind⟩, ?_⟩
  rw [normalizedKey, show canonicalTimeframe bar.key.timeframe = .ok timeframe from accepted, ok_bind]
  rfl

omit [PyText] [PyFloat F] in
theorem FirstBars.find (one : FirstBars batch kept) {bar : MarketBar F} (member : bar ∈ kept) :
    barAt batch bar.time = some bar := by
  rw [← one.lookup]
  exact (barAt_eq_some_iff one.sorted).mpr ⟨member, rfl⟩

/-- The bounded read of the overlap: from its first bar through its last one. -/
def storedOverlap (series : ClosedSeries F) (overlap : List (MarketBar F)) : List (MarketBar F) :=
  match overlap.head?.bind fun head => overlap.getLast?.map fun last => (head.time, last.time + 1) with
  | none => []
  | some (start, stop) => series.range (some start) (some stop)

/-- The bounded read of the overlap finds what the series holds. -/
theorem barAt_storedOverlap {overlap : List (MarketBar F)} (sorted : overlap.Pairwise (·.time < ·.time))
    {bar : MarketBar F} (member : bar ∈ overlap) :
    barAt (storedOverlap series overlap) bar.time = barAt series.bars bar.time := by
  obtain ⟨head, others, rfl⟩ := List.exists_cons_of_ne_nil (List.ne_nil_of_mem member)
  have ends := List.getLast?_eq_some_getLast (List.cons_ne_nil head others)
  generalize (head :: others).getLast _ = last at ends
  have low : head.time ≤ bar.time := by
    rcases List.mem_cons.mp member with rfl | later
    · exact le_refl _
    · exact (List.rel_of_pairwise_cons sorted later).le
  have high : bar.time ≤ last.time := time_le_getLast sorted ends member
  rw [storedOverlap, List.head?_cons, Option.bind_some, ends, Option.map_some]
  simp only [ClosedSeries.range, barAt, Keyed.find]
  rw [List.find?_filter]
  congr 1
  funext other
  by_cases own : other.time = bar.time
  · have inside : inRange (some head.time) (some (last.time + 1)) other = true := by
      simp only [inRange, Option.all_some, Bool.and_eq_true, decide_eq_true_eq]
      omega
    simp [own, inside]
  · simp [own]

/-- The bars of a batch fit together with the stored ones. -/
structure Fits (series : ClosedSeries F) (batch kept : List (MarketBar F)) (endTime : Int) : Prop where
  ends : series.endTime = some endTime
  first : FirstBars batch kept
  present : ∀ bar ∈ kept, bar.time ≤ endTime → (barAt series.bars bar.time).isSome = true

/-- Without a missing bar in the overlap only the tail is new. -/
theorem Fits.tail {endTime : Int} (fits : Fits series batch kept endTime) (time : Int) :
    barAt (kept.filter fun bar => endTime < bar.time) time =
      if (barAt series.bars time).isSome then none else barAt batch time := by
  have sorted := fits.first.sorted.filter fun bar => decide (endTime < bar.time)
  split
  · rename_i there
    obtain ⟨old, found⟩ := Option.isSome_iff_exists.mp there
    have early := time_le_endTime fits.ends (mem_of_barAt found)
    rw [time_of_barAt found] at early
    rw [barAt_eq_none_iff]
    intro bar member same
    have late := of_decide_eq_true (List.mem_filter.mp member).2
    omega
  · rename_i missing
    rw [← fits.first.lookup]
    cases found : barAt kept time with
    | none =>
        rw [barAt_eq_none_iff] at found ⊢
        intro bar member
        exact found bar (List.mem_filter.mp member).1
    | some bar =>
        have member := mem_of_barAt found
        have own := time_of_barAt found
        have late : endTime < bar.time := by
          by_contra early
          have there := fits.present bar member (not_lt.mp early)
          rw [own] at there
          exact missing there
        exact (barAt_eq_some_iff sorted).mpr ⟨List.mem_filter.mpr ⟨member, decide_eq_true late⟩, own⟩

theorem Fits.counted {endTime : Int} (fits : Fits series batch kept endTime) :
    (kept.filter fun bar => endTime < bar.time).length = (newTimes (some series) batch).card := by
  apply length_eq_newTimes
  · exact Keyed.nodup_of_sorted (fits.first.sorted.filter _)
  · intro time
    rw [← barAt_isSome_iff, fits.tail, ← barAt_isSome_iff, ← barAt_isSome_iff]
    change _ ↔ _ ∧ ¬ (barAt series.bars time).isSome = true
    split
    · rename_i there
      simp [there]
    · rename_i missing
      simp [missing]

/-- The tail completes the union. -/
theorem Fits.union {endTime : Int} (fits : Fits series batch kept endTime) (time : Int) :
    (barAt series.bars time).or (barAt (kept.filter fun bar => endTime < bar.time) time) =
      (barAt series.bars time).or (barAt batch time) := by
  rw [fits.tail]
  cases barAt series.bars time with
  | none => rfl
  | some bar => rfl

theorem barAt_storedBars_none (empty : storedBars stored = []) (time : Int) :
    barAt (storedBars stored) time = none := by
  rw [empty]
  rfl

/-- Where nothing is stored, a batch agrees when it agrees with itself. -/
theorem agrees_of_empty (empty : storedBars stored = []) (batchAgrees : Agrees [] batch) :
    Agrees (storedBars stored) batch := by
  rw [empty]
  exact batchAgrees

/-- Without a stored bar the batch is the series. -/
theorem Merged.whole {after : ClosedSeries F} (empty : storedBars stored = [])
    (one : FirstBars batch kept) (csv : after.format = .csv) (same : after.bars = kept) :
    Merged stored batch kept.length after where
  csv := csv
  union := by
    intro time
    rw [same, one.lookup, barAt_storedBars_none empty, Option.none_or]
  counted := by
    apply length_eq_newTimes (Keyed.nodup_of_sorted one.sorted)
    intro time
    rw [one.times, empty]
    simp

/-- The missing bars of a batch between and behind the stored ones. -/
theorem Merged.backfilled {after : ClosedSeries F} {result : List (MarketBar F)}
    (one : FirstBars batch kept) (taken : TakesIn (storedBars stored) kept result)
    (csv : after.format = .csv) (same : after.bars = sortByTime result) :
    Merged stored batch (result.length - (storedBars stored).length) after where
  csv := csv
  union := by
    intro time
    rw [same, barAt_sortByTime, taken.lookup, one.lookup]
  counted := by
    obtain ⟨fresh, joined, sublist⟩ := taken.added
    have distinct := taken.distinct (distinct_storedBars stored)
    rw [joined, List.map_append, List.nodup_append] at distinct
    obtain ⟨-, freshOnce, apart⟩ := distinct
    rw [joined, List.length_append, Nat.add_sub_cancel_left]
    apply length_eq_newTimes freshOnce
    intro time
    rw [← one.times]
    constructor
    · intro member
      refine ⟨(sublist.map _).subset member, ?_⟩
      intro old
      exact apart time old time member rfl
    · rintro ⟨offered, missing⟩
      have there : (barAt result time).isSome = true := by
        rw [taken.lookup, Option.isSome_or, barAt_isSome_iff.mpr offered, Bool.or_true]
      rw [barAt_isSome_iff, joined, List.map_append, List.mem_append] at there
      exact there.resolve_left missing

/-- Nothing is missing in the overlap: the tail is all that is added. -/
theorem Merged.appended {after : ClosedSeries F} {endTime : Int} (fits : Fits series batch kept endTime)
    (csv : after.format = .csv)
    (same : after.bars = series.bars ++ kept.filter fun bar => endTime < bar.time) :
    Merged (some series) batch (kept.filter fun bar => endTime < bar.time).length after where
  csv := csv
  union := by
    intro time
    rw [same, barAt_append]
    exact fits.union time
  counted := fits.counted

theorem storedBars_of_noEnd
    (noEnd : (stored.bind fun series => series.endTime.map fun endTime => (series, endTime)) = none) :
    storedBars stored = [] := by
  cases stored with
  | none => rfl
  | some series =>
      rw [Option.bind_some, Option.map_eq_none_iff, ClosedSeries.endTime, Option.map_eq_none_iff] at noEnd
      exact List.getLast?_eq_none_iff.mp noEnd

/-- The overlap agrees with what the bounded read finds when the batch agrees with the series. -/
theorem overlap_agrees_iff {endTime : Int} (ends : series.endTime = some endTime)
    (sorted : kept.Pairwise (·.time < ·.time)) :
    (∀ bar ∈ kept.filter (fun bar => bar.time ≤ endTime), ∀ current,
      barAt (storedOverlap series (kept.filter fun bar => bar.time ≤ endTime)) bar.time = some current →
        sameCanonicalCandle current bar = true) ↔
      ∀ bar ∈ kept, ∀ current, barAt series.bars bar.time = some current →
        sameCanonicalCandle current bar = true := by
  have inOrder := sorted.filter fun bar => decide (bar.time ≤ endTime)
  constructor
  · intro overlap bar member current found
    have early : bar.time ≤ endTime := by
      have known := time_le_endTime ends (mem_of_barAt found)
      rwa [time_of_barAt found] at known
    have inside : bar ∈ kept.filter fun bar => bar.time ≤ endTime :=
      List.mem_filter.mpr ⟨member, decide_eq_true early⟩
    apply overlap bar inside
    rw [barAt_storedOverlap inOrder inside, found]
  · intro whole bar inside current found
    rw [barAt_storedOverlap inOrder inside] at found
    exact whole bar (List.mem_filter.mp inside).1 current found

/-- Without a gap in the overlap the batch fits behind the series. -/
theorem fits_of_noGap {endTime : Int} (ends : series.endTime = some endTime) (one : FirstBars batch kept)
    (noGap : (kept.filter fun bar => bar.time ≤ endTime).any (fun bar =>
      (barAt (storedOverlap series (kept.filter fun bar => bar.time ≤ endTime)) bar.time).isNone) = false) :
    Fits series batch kept endTime where
  ends := ends
  first := one
  present := by
    intro bar member early
    have inside : bar ∈ kept.filter fun bar => bar.time ≤ endTime :=
      List.mem_filter.mpr ⟨member, decide_eq_true early⟩
    have known := List.any_eq_false.mp noGap bar inside
    rw [barAt_storedOverlap (one.sorted.filter _) inside] at known
    rwa [Option.isNone_iff_eq_none, ← ne_eq, Option.ne_none_iff_isSome] at known

/-- A batch that disagrees is refused before anything is written. -/
theorem bulkWriteSeries_conflict (equality : FloatEquality F)
    (disagrees : ¬ Agrees (storedBars stored) (first :: rest)) :
    ∃ error, bulkWriteSeries stored first rest = .error error := by
  by_cases batchAgrees : Agrees [] (first :: rest)
  · obtain ⟨kept, made, one⟩ := (normalizeClosedBatch_spec equality).1 batchAgrees
    rw [bulkWriteSeries, made, ok_bind]
    cases held : stored.bind fun series => series.endTime.map fun endTime => (series, endTime) with
    | none => exact absurd (agrees_of_empty (storedBars_of_noEnd held) batchAgrees) disagrees
    | some pair =>
        obtain ⟨series, rfl, endTime, ends, rfl⟩ : ∃ series, stored = some series ∧
            ∃ endTime, series.endTime = some endTime ∧ (series, endTime) = pair := by
          simpa [Option.bind_eq_some_iff] using held
        change ¬ Agrees series.bars _ at disagrees
        rw [agrees_iff_kept equality batchAgrees one, ← overlap_agrees_iff ends one.sorted] at disagrees
        obtain ⟨error, refused⟩ := requiresBackfill_spec.2 disagrees
        refine ⟨error, ?_⟩
        change (requiresBackfill (storedOverlap series _) _ >>= _) = _
        rw [refused]
        rfl
  · obtain ⟨error, refused⟩ := (normalizeClosedBatch_spec equality).2 batchAgrees
    refine ⟨error, ?_⟩
    rw [bulkWriteSeries, refused]
    rfl

/-- A batch that agrees is merged on each of the three ways. -/
theorem bulkWriteSeries_merges (equality : FloatEquality F)
    (csv : ∀ series, stored = some series → series.format = .csv)
    (admissible : ∀ bar ∈ first :: rest, bar.Admissible first.key)
    (agrees : Agrees (storedBars stored) (first :: rest)) :
    ∃ count after, bulkWriteSeries stored first rest = .ok (count, after) ∧
      Merged stored (first :: rest) count after := by
  have batchAgrees : Agrees [] (first :: rest) := ⟨by simp [barAt, Keyed.find], agrees.batch⟩
  obtain ⟨kept, made, one⟩ := (normalizeClosedBatch_spec equality).1 batchAgrees
  have own : first.Admissible first.key := admissible first List.mem_cons_self
  obtain ⟨row, firstDigested⟩ := own.digested
  obtain ⟨normal, named⟩ := normalizedKey_of_digested firstDigested
  have keptAdmissible : ∀ bar ∈ kept, bar.Admissible first.key :=
    fun bar member => admissible bar (one.mem bar member)
  rw [bulkWriteSeries, made, ok_bind]
  cases held : stored.bind fun series => series.endTime.map fun endTime => (series, endTime) with
  | none =>
      obtain ⟨after, replaced, format, same⟩ := @replaceSeries_of_valid _ F _ .csv _ _ _ one.sorted
        (fun bar member => (keptAdmissible bar member).formed)
        (fun bar member => (keptAdmissible bar member).digested) named
      refine ⟨kept.length, after, ?_, Merged.whole (storedBars_of_noEnd held) one format same⟩
      dsimp only
      rw [replaced]
      rfl
  | some pair =>
      obtain ⟨series, rfl, endTime, ends, rfl⟩ : ∃ series, stored = some series ∧
          ∃ endTime, series.endTime = some endTime ∧ (series, endTime) = pair := by
        simpa [Option.bind_eq_some_iff] using held
      have stable := (agrees_iff_kept equality batchAgrees one).mp agrees
      have checked := requiresBackfill_spec.1 ((overlap_agrees_iff ends one.sorted).mpr stable)
      change ∃ count after, (requiresBackfill (storedOverlap series _) _ >>= _) = .ok (count, after) ∧ _
      rw [checked, ok_bind]
      cases gap : (kept.filter fun bar => bar.time ≤ endTime).any (fun bar =>
          (barAt (storedOverlap series (kept.filter fun bar => bar.time ≤ endTime)) bar.time).isNone) with
      | true =>
          have keptAgrees : Agrees series.bars kept := by
            refine ⟨stable, ?_⟩
            apply one.sorted.imp
            intro left right before same
            omega
          obtain ⟨result, merged, taken⟩ := (addMissing_spec equality).1 keptAgrees
          have distinct := taken.distinct (distinct_storedBars (some series))
          have known : ∀ bar ∈ result, bar ∈ series.bars ∨ bar ∈ kept := by
            obtain ⟨fresh, joined, sublist⟩ := taken.added
            intro bar member
            rw [joined, List.mem_append] at member
            exact member.imp_right fun added => sublist.subset added
          obtain ⟨after, replaced, format, same⟩ := @replaceSeries_of_distinct _ F _ .csv _ _ _ distinct
            (fun bar member => (known bar member).elim (series.formed bar)
              fun added => (keptAdmissible bar added).formed)
            (fun bar member => (known bar member).elim (series.digested bar)
              fun added => (keptAdmissible bar added).digested) named
          refine ⟨result.length - series.bars.length, after, ?_,
            @Merged.backfilled _ F _ (some series) _ _ _ _ one taken format same⟩
          rw [if_pos rfl, merged, ok_bind, replaced]
          rfl
      | false =>
          have fits := fits_of_noGap ends one gap
          have sameFormat := csv series rfl
          rw [if_neg Bool.false_ne_true]
          cases tail : kept.filter fun bar => endTime < bar.time with
          | nil =>
              refine ⟨0, series, by rw [List.isEmpty_nil, if_pos rfl], ?_⟩
              have merged := Merged.appended fits sameFormat (by rw [tail, List.append_nil])
              rwa [tail] at merged
          | cons head others =>
              have inside : ∀ bar ∈ head :: others, bar ∈ kept ∧ endTime < bar.time := by
                intro bar member
                rw [← tail, List.mem_filter, decide_eq_true_eq] at member
                exact member
              obtain ⟨after, extended, format, same⟩ := appendSeries_of_newer sameFormat ends named
                (fun bar member => keptAdmissible bar (inside bar member).1)
                (tail ▸ one.sorted.filter _) (inside head List.mem_cons_self).2
              refine ⟨(head :: others).length, after, ?_, ?_⟩
              · rw [if_neg (by simp), extended]
                rfl
              · rw [← tail] at same ⊢
                exact Merged.appended fits format same

/-- A batch of known bars reads back what it offers, and leaves nothing to write. -/
theorem checks_of_known (equality : FloatEquality F) (agrees : Agrees series.bars (first :: rest))
    (known : ∀ bar ∈ first :: rest, (barAt series.bars bar.time).isSome = true) :
    ∃ kept endTime, normalizeClosedBatch (first :: rest) = .ok kept ∧ FirstBars (first :: rest) kept ∧
      series.endTime = some endTime ∧ (∀ bar ∈ first :: rest, bar.time ≤ endTime) ∧
      requiresBackfill (storedOverlap series (kept.filter fun bar => bar.time ≤ endTime))
        (kept.filter fun bar => bar.time ≤ endTime) = .ok false ∧
      kept.filter (fun bar => endTime < bar.time) = [] := by
  have batchAgrees : Agrees [] (first :: rest) := ⟨by simp [barAt, Keyed.find], agrees.batch⟩
  obtain ⟨kept, made, one⟩ := (normalizeClosedBatch_spec equality).1 batchAgrees
  obtain ⟨last, found⟩ : ∃ last, series.bars.getLast? = some last := by
    obtain ⟨old, stored⟩ := Option.isSome_iff_exists.mp (known first List.mem_cons_self)
    exact ⟨_, List.getLast?_eq_some_getLast (List.ne_nil_of_mem (mem_of_barAt stored))⟩
  have ends : series.endTime = some last.time := endTime_eq_some_iff.mpr ⟨last, found, rfl⟩
  have early : ∀ bar ∈ first :: rest, bar.time ≤ last.time := by
    intro bar member
    obtain ⟨old, stored⟩ := Option.isSome_iff_exists.mp (known bar member)
    exact time_of_barAt stored ▸ time_le_endTime ends (mem_of_barAt stored)
  have stable := (agrees_iff_kept equality batchAgrees one).mp agrees
  have checked := requiresBackfill_spec.1 ((overlap_agrees_iff ends one.sorted).mpr stable)
  have noGap : (kept.filter fun bar => bar.time ≤ last.time).any (fun bar =>
      (barAt (storedOverlap series (kept.filter fun bar => bar.time ≤ last.time)) bar.time).isNone) =
        false := by
    rw [List.any_eq_false]
    intro bar inside
    rw [barAt_storedOverlap (one.sorted.filter _) inside, Option.isNone_iff_eq_none, ← ne_eq,
      Option.ne_none_iff_isSome]
    exact known bar (one.mem bar (List.mem_filter.mp inside).1)
  refine ⟨kept, last.time, made, one, ends, early, by rw [checked, noGap], ?_⟩
  rw [List.filter_eq_nil_iff]
  intro bar member late
  have := early bar (one.mem bar member)
  have := of_decide_eq_true late
  omega

/-- A batch of stored times that agrees leaves the series, in either format. -/
theorem bulkWriteSeries_known (equality : FloatEquality F) (agrees : Agrees series.bars (first :: rest))
    (known : ∀ bar ∈ first :: rest, (barAt series.bars bar.time).isSome = true) :
    bulkWriteSeries (some series) first rest = .ok (0, series) := by
  obtain ⟨kept, endTime, made, -, ends, -, checked, noTail⟩ := checks_of_known equality agrees known
  rw [bulkWriteSeries, made, ok_bind, Option.bind_some, ends, Option.map_some]
  change (requiresBackfill (storedOverlap series _) _ >>= _) = _
  rw [checked, ok_bind, if_neg Bool.false_ne_true, noTail, List.isEmpty_nil, if_pos rfl]

end Write

end MarketdataProvider

namespace MarketdataProvider

open Foundation Reference

open scoped Reference

theorem candle_formed (time : Int) : (candle time).WellFormed where
  high := rfl
  low := rfl
  timeClose := by
    rintro _ ⟨⟩
    change time ≤ time + 59999
    omega

/-- A series of one candle in the middle of a batch. -/
def middleCandle : ClosedSeries Whole where
  format := .csv
  bars := [candle 60000]
  sorted := List.pairwise_singleton _ _
  formed := by
    intro bar member
    rw [List.mem_singleton.mp member]
    exact candle_formed 60000
  digested := by
    intro bar member
    rw [List.mem_singleton.mp member]
    exact eq_ok_of_toBool (by decide +kernel)

end MarketdataProvider
