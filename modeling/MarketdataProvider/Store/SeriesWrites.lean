import MarketdataProvider.Store.ClosedSeries

namespace MarketdataProvider

open Foundation

variable [PyText] {F : Type} [PyFloat F]

/-- A bar that every writing path of the series accepts on its own. -/
structure MarketBar.Admissible (bar : MarketBar F) (key : SeriesKey) : Prop where
  semantics : validatePersistedBarSemantics bar = .ok ()
  named : normalizedKey bar.key = normalizedKey key
  formed : bar.WellFormed
  digested : ∃ row, updateChecksum .v4 bar = .ok row

variable {format : SegmentFormat} {key normal : SeriesKey} {series after : ClosedSeries F}
  {stored : Option (ClosedSeries F)} {bars incoming : List (MarketBar F)} {bar : MarketBar F}
  {time : Int}

section Replace

theorem replaceSeries_ok (returned : replaceSeries format bars key = .ok after) :
    after.format = format ∧ after.bars = sortByTime bars := by
  unfold replaceSeries at returned
  split at returned
  · cases returned
  · split at returned
    · cases returned
    · split at returned
      · cases returned
      · cases returned
        exact ⟨rfl, rfl⟩

/-- Bars of distinct times that pass the checks replace the series, in time order. -/
theorem replaceSeries_of_distinct (distinct : (bars.map (·.time)).Nodup)
    (formed : ∀ bar ∈ bars, bar.WellFormed)
    (digested : ∀ bar ∈ bars, ∃ row, updateChecksum .v4 bar = .ok row)
    (named : normalizedKey key = .ok normal) :
    ∃ after, replaceSeries format bars key = .ok after ∧ after.format = format ∧
      after.bars = sortByTime bars := by
  obtain ⟨rows, mapped⟩ := mapM_ok fun bar member => digested bar (mem_sortByTime.mp member)
  have valid : validateMarketBars (sortByTime bars) = .ok () := validateMarketBars_ok_iff.mpr
    ⟨Keyed.sorted_insertionSort distinct, fun bar member => formed bar (mem_sortByTime.mp member)⟩
  have made : ∃ after, replaceSeries format bars key = .ok after := by
    unfold replaceSeries
    split
    · rename_i error invalid
      rw [valid] at invalid
      cases invalid
    · rw [named]
      dsimp only
      split
      · rename_i error invalid
        rw [mapped] at invalid
        cases invalid
      · exact ⟨_, rfl⟩
  obtain ⟨after, returned⟩ := made
  exact ⟨after, returned, replaceSeries_ok returned⟩

/-- Bars in time order that pass the checks replace the series as they are. -/
theorem replaceSeries_of_valid (sorted : bars.Pairwise (·.time < ·.time))
    (formed : ∀ bar ∈ bars, bar.WellFormed)
    (digested : ∀ bar ∈ bars, ∃ row, updateChecksum .v4 bar = .ok row)
    (named : normalizedKey key = .ok normal) :
    ∃ after, replaceSeries format bars key = .ok after ∧ after.format = format ∧ after.bars = bars := by
  have distinct : (bars.map fun bar : MarketBar F => bar.time).Nodup := Keyed.nodup_of_sorted sorted
  have replaced := @replaceSeries_of_distinct _ F _ format _ _ _ distinct formed digested named
  rw [sortByTime_eq_self sorted] at replaced
  exact replaced

end Replace

section Append

theorem endTime_eq_some_iff : series.endTime = some time ↔
    ∃ last, series.bars.getLast? = some last ∧ last.time = time := by
  rw [ClosedSeries.endTime, Option.map_eq_some_iff]

/-- Every stored bar opens at the stored tail or before it. -/
theorem time_le_endTime (ends : series.endTime = some time) (member : bar ∈ series.bars) :
    bar.time ≤ time := by
  obtain ⟨last, found, rfl⟩ := endTime_eq_some_iff.mp ends
  exact time_le_getLast series.sorted found member

/-- The bars of a batch that are newer than the stored tail. -/
def newerThan (series : ClosedSeries F) (incoming : List (MarketBar F)) : List (MarketBar F) :=
  incoming.filter fun bar => series.endTime.any (· < bar.time)

theorem extendSeries_ok {endTime : Int} {first : MarketBar F} {rest : List (MarketBar F)}
    {ends : series.endTime = some endTime} {ascends : (first :: rest).Pairwise (·.time < ·.time)}
    {later : endTime < first.time} {formed : ∀ bar ∈ first :: rest, bar.WellFormed}
    (returned : extendSeries series endTime first rest ends ascends later formed = .ok after) :
    after.format = series.format ∧ after.bars = series.bars ++ (first :: rest) := by
  unfold extendSeries at returned
  split at returned
  · cases returned
  · cases returned
    exact ⟨rfl, rfl⟩

/-- An ascending batch that starts after the tail is newer than the series as a whole. -/
theorem newerThan_eq_self {endTime : Int} {first : MarketBar F} {rest : List (MarketBar F)}
    (ends : series.endTime = some endTime) (ascends : (first :: rest).Pairwise (·.time < ·.time))
    (later : endTime < first.time) : newerThan series (first :: rest) = first :: rest := by
  rw [newerThan, List.filter_eq_self]
  intro bar member
  rw [ends, Option.any_some, decide_eq_true_eq]
  rcases List.mem_cons.mp member with rfl | inRest
  · exact later
  · have := List.rel_of_pairwise_cons ascends inRest
    omega

/-- An append that returns adds the newer bars; at the tail itself it accepts an equal candle only. -/
theorem appendIncoming_ok {ascends : incoming.Pairwise (·.time < ·.time)}
    {formed : ∀ bar ∈ incoming, bar.WellFormed}
    (returned : appendIncoming series incoming ascends formed = .ok after) :
    series.format = .csv ∧ after.format = series.format ∧
      after.bars = series.bars ++ newerThan series incoming ∧
      ∀ bar ∈ incoming, ∃ last, series.bars.getLast? = some last ∧
        (last.time < bar.time ∨ bar.time = last.time ∧ sameCanonicalCandle bar last = true) := by
  unfold appendIncoming at returned
  split at returned
  · cases returned
  · rename_i csv
    rw [not_not] at csv
    split at returned
    · cases returned
      exact ⟨csv, rfl, by simp [newerThan], by simp⟩
    · rename_i first rest ascends formed
      split at returned
      · cases returned
      · rename_i last found
        have ends : series.endTime = some last.time := endTime_eq_some_iff.mpr ⟨last, found, rfl⟩
        split at returned
        · cases returned
        · rename_i notBefore
          split at returned
          · rename_i same
            split at returned
            · rename_i equal
              have older : newerThan series [first] = [] := by
                simp [newerThan, ends, same]
              split at returned
              · cases returned
                refine ⟨csv, rfl, by rw [older, List.append_nil], ?_⟩
                intro bar member
                rw [List.mem_singleton.mp member]
                exact ⟨last, found, .inr ⟨same, equal⟩⟩
              · rename_i second others ascends formed
                have next : last.time < second.time :=
                  same ▸ List.rel_of_pairwise_cons ascends List.mem_cons_self
                obtain ⟨sameFormat, sameBars⟩ := extendSeries_ok returned
                have tail := (List.pairwise_cons.mp ascends).2
                have split : newerThan series (first :: second :: others) = second :: others := by
                  have parts : newerThan series (first :: second :: others) =
                      newerThan series [first] ++ newerThan series (second :: others) := by
                    rw [newerThan, newerThan, newerThan, ← List.filter_append]
                    rfl
                  rw [parts, older, newerThan_eq_self ends tail next, List.nil_append]
                refine ⟨csv, sameFormat, by rw [sameBars, split], ?_⟩
                intro bar member
                rcases List.mem_cons.mp member with rfl | later
                · exact ⟨last, found, .inr ⟨same, equal⟩⟩
                · have := newer_of_head series.sorted ends tail next last
                    (List.mem_of_getLast? found) bar later
                  exact ⟨last, found, .inl this⟩
            · cases returned
          · rename_i different
            have next : last.time < first.time := lt_of_le_of_ne (not_lt.mp notBefore) (Ne.symm different)
            obtain ⟨sameFormat, sameBars⟩ := extendSeries_ok returned
            refine ⟨csv, sameFormat, by rw [sameBars, newerThan_eq_self ends ascends next], ?_⟩
            intro bar member
            have := newer_of_head series.sorted ends ascends next last (List.mem_of_getLast? found)
              bar member
            exact ⟨last, found, .inl this⟩

/-- Admissible bars in time order pass the checks of the append as they are. -/
theorem acceptAppendBars_of_admissible (named : normalizedKey key = .ok normal)
    (admissible : ∀ bar ∈ bars, bar.Admissible key) (sorted : bars.Pairwise (·.time < ·.time))
    (last : Option (MarketBar F)) (newer : ∀ previous, last = some previous → ∀ bar ∈ bars,
      previous.time < bar.time) : acceptAppendBars normal last bars = .ok bars := by
  induction bars generalizing last with
  | nil => rfl
  | cons bar rest ih =>
      have own := admissible bar List.mem_cons_self
      have valid : validateBars [bar.toBar] = .ok () :=
        (validateBars_ok_iff _).mpr ⟨List.pairwise_singleton _ _, by simpa using own.formed⟩
      obtain ⟨before, ordered⟩ := List.pairwise_cons.mp sorted
      have later := ih (fun other member => admissible other (List.mem_cons_of_mem _ member)) ordered
        (some bar) (by rintro _ ⟨⟩; exact before)
      cases last with
      | none =>
          unfold acceptAppendBars
          rw [own.semantics, ok_bind, own.named, named, ok_bind, if_neg (by simp), valid, ok_bind]
          dsimp only
          rw [later]
          rfl
      | some previous =>
          have advanced := newer previous rfl bar List.mem_cons_self
          unfold acceptAppendBars
          rw [own.semantics, ok_bind, own.named, named, ok_bind, if_neg (by simp), valid, ok_bind]
          dsimp only
          rw [if_neg (by omega), if_neg (by omega), later]
          rfl

theorem validatedAppendBars_of_admissible (named : normalizedKey key = .ok normal)
    (admissible : ∀ bar ∈ bars, bar.Admissible key) (sorted : bars.Pairwise (·.time < ·.time)) :
    validatedAppendBars bars key = .ok bars := by
  rw [validatedAppendBars, named, ok_bind]
  exact acceptAppendBars_of_admissible named admissible sorted none (by simp)

theorem extendSeries_of_digested {endTime : Int} {first : MarketBar F} {rest : List (MarketBar F)}
    (ends : series.endTime = some endTime) (ascends : (first :: rest).Pairwise (·.time < ·.time))
    (later : endTime < first.time) (formed : ∀ bar ∈ first :: rest, bar.WellFormed)
    (digested : ∀ bar ∈ first :: rest, ∃ row, updateChecksum .v4 bar = .ok row) :
    ∃ after, extendSeries series endTime first rest ends ascends later formed = .ok after := by
  obtain ⟨rows, mapped⟩ := mapM_ok digested
  unfold extendSeries
  split
  · rename_i error invalid
    rw [mapped] at invalid
    cases invalid
  · exact ⟨_, rfl⟩

/-- An append that passes the checks of its bars. -/
theorem appendSeries_of_validated (accepted : validatedAppendBars bars key = .ok incoming) :
    appendSeries (some series) bars key = appendIncoming series incoming
      (validatedAppendBars_sorted accepted) (validatedAppendBars_formed accepted) := by
  unfold appendSeries
  split
  · rename_i error rejected
    rw [accepted] at rejected
    cases rejected
  · rename_i other same
    obtain rfl : incoming = other := Except.ok.inj (accepted.symm.trans same)
    rfl

theorem appendSeries_of_refused {error : PyError} (refused : validatedAppendBars bars key = .error error) :
    appendSeries stored bars key = .error error := by
  unfold appendSeries
  split
  · rename_i first invalid
    rw [← Except.error.inj (refused.symm.trans invalid)]
  · rename_i incoming valid
    cases refused.symm.trans valid

theorem appendSeries_first (accepted : validatedAppendBars bars key = .ok incoming) :
    appendSeries none bars key = replaceSeries .csv incoming key := by
  unfold appendSeries
  split
  · rename_i error rejected
    rw [accepted] at rejected
    cases rejected
  · rename_i other same
    obtain rfl : incoming = other := Except.ok.inj (accepted.symm.trans same)
    rfl

/-- Newer admissible bars extend a CSV series. -/
theorem appendSeries_of_newer {endTime : Int} {first : MarketBar F} {rest : List (MarketBar F)}
    (csv : series.format = .csv) (ends : series.endTime = some endTime)
    (named : normalizedKey key = .ok normal) (admissible : ∀ bar ∈ first :: rest, bar.Admissible key)
    (sorted : (first :: rest).Pairwise (·.time < ·.time)) (later : endTime < first.time) :
    ∃ after, appendSeries (some series) (first :: rest) key = .ok after ∧ after.format = .csv ∧
      after.bars = series.bars ++ first :: rest := by
  have accepted := validatedAppendBars_of_admissible named admissible sorted
  obtain ⟨last, found, rfl⟩ := endTime_eq_some_iff.mp ends
  obtain ⟨after, extended⟩ := extendSeries_of_digested ends sorted later
    (fun bar member => (admissible bar member).formed) fun bar member => (admissible bar member).digested
  obtain ⟨sameFormat, sameBars⟩ := extendSeries_ok extended
  refine ⟨after, ?_, sameFormat.trans csv, sameBars⟩
  rw [appendSeries_of_validated accepted]
  unfold appendIncoming
  rw [if_neg (by simp [csv])]
  dsimp only
  split
  · rename_i absent
    rw [found] at absent
    cases absent
  · rename_i stored present
    obtain rfl : last = stored := Option.some.inj (found.symm.trans present)
    rw [dif_neg (by omega), dif_neg (by omega)]
    exact extended

/-- Only CSV series take an append. -/
theorem appendSeries_parquet (parquet : series.format = .parquet)
    (accepted : validatedAppendBars bars key = .ok incoming) :
    appendSeries (some series) bars key = .error (.mdUnsupportedFeature
      "Bounded incremental append is supported only for CSV segments") := by
  rw [appendSeries_of_validated accepted]
  unfold appendIncoming
  rw [if_pos (by simp [parquet])]

end Append

section Merge

theorem sorted_storedBars (stored : Option (ClosedSeries F)) :
    (storedBars stored).Pairwise (·.time < ·.time) := by
  cases stored with
  | none => exact List.Pairwise.nil
  | some series => exact series.sorted

theorem distinct_storedBars (stored : Option (ClosedSeries F)) :
    ((storedBars stored).map (·.time)).Nodup := Keyed.nodup_of_sorted (sorted_storedBars stored)

/-- Stored and incoming bars that pass the checks are merged by time. -/
theorem mergeSeries_of_valid (named : normalizedKey key = .ok normal)
    (formed : ∀ bar ∈ incoming, bar.WellFormed)
    (digested : ∀ bar ∈ incoming, ∃ row, updateChecksum .v4 bar = .ok row) :
    ∃ after, mergeSeries stored incoming key = .ok after ∧ after.format = .csv ∧
      after.bars = mergeByTime (storedBars stored) incoming := by
  apply replaceSeries_of_valid (mergeByTime_sorted (distinct_storedBars stored)) ?_ ?_ named
  · intro bar member
    rcases mem_mergeByTime member with fresh | old
    · exact formed bar fresh
    · cases stored with
      | none => cases old
      | some series => exact series.formed bar old
  · intro bar member
    rcases mem_mergeByTime member with fresh | old
    · exact digested bar fresh
    · cases stored with
      | none => cases old
      | some series => exact series.digested bar old

theorem mergeSeries_ok (returned : mergeSeries stored incoming key = .ok after) :
    after.format = .csv ∧ after.bars = mergeByTime (storedBars stored) incoming := by
  obtain ⟨sameFormat, sameBars⟩ := replaceSeries_ok returned
  exact ⟨sameFormat, sameBars.trans
    (sortByTime_eq_self (mergeByTime_sorted (distinct_storedBars stored)))⟩

end Merge

section Commit

theorem validatedAppendBars_singleton (accepted : validatedAppendBars [bar] key = .ok incoming) :
    incoming = [bar] := by
  obtain ⟨expected, -, returned⟩ := bind_eq_ok.mp accepted
  simp only [acceptAppendBars, bind_eq_ok] at returned
  obtain ⟨_, -, actual, -, returned⟩ := returned
  split at returned
  · cases returned
  · simp only [bind_eq_ok, map_eq_ok] at returned
    obtain ⟨_, -, _, ⟨⟩, rfl⟩ := returned
    rfl

variable [Sha256]

theorem barAt_upsertSeries (returned : upsertSeries stored bar = .ok after) (time : Int) :
    barAt after.bars time = if time = bar.time then some bar else barAt (storedBars stored) time := by
  obtain ⟨⟨⟩, -, replaced⟩ := bind_eq_ok.mp returned
  have distinct : ((insertByTime (storedBars stored) bar).map (·.time)).Nodup :=
    Keyed.nodup_upsert (distinct_storedBars stored)
  rw [(replaceSeries_ok replaced).2, barAt, sortByTime,
    Keyed.find_perm distinct (List.perm_insertionSort _ _)]
  exact Keyed.find_upsert

/-- A committed candle is stored when its time is free; every other candle stays as it was. -/
theorem barAt_commitSeries {status : CommitStatus}
    (returned : commitSeries stored bar = .ok (status, after)) (time : Int) :
    barAt after.bars time =
      (barAt (storedBars stored) time).or (if time = bar.time then some bar else none) := by
  have added (upserted : upsertSeries stored bar = .ok after)
      (free : barAt (storedBars stored) bar.time = none) : barAt after.bars time =
        (barAt (storedBars stored) time).or (if time = bar.time then some bar else none) := by
    rw [barAt_upsertSeries upserted]
    split
    · rename_i own
      rw [own, free, Option.none_or]
    · rw [Option.or_none]
  unfold commitSeries at returned
  cases stored with
  | none =>
      obtain ⟨_, upserted, same⟩ := map_eq_ok.mp returned
      obtain ⟨-, rfl⟩ := Prod.mk.inj same
      exact added upserted rfl
  | some series =>
      dsimp only at returned
      split at returned
      · rename_i tail
        obtain ⟨_, appended, same⟩ := map_eq_ok.mp returned
        obtain ⟨-, rfl⟩ := Prod.mk.inj same
        unfold appendSeries at appended
        split at appended
        · cases appended
        · rename_i incoming accepted
          obtain rfl : incoming = [bar] := validatedAppendBars_singleton accepted
          obtain ⟨last, found, later⟩ : ∃ last, series.endTime = some last ∧ last < bar.time := by
            simpa [Option.any_eq_true] using tail.2
          have newer : newerThan series [bar] = [bar] := by simp [newerThan, found, later]
          have free : bar.time ≠ time → barAt [bar] time = none := by
            intro other
            simpa [barAt_eq_none_iff] using other
          rw [(appendIncoming_ok appended).2.2.1, newer, barAt_append]
          congr 1
          split
          · rename_i own
            rw [barAt_eq_some_iff (List.pairwise_singleton _ _)]
            exact ⟨List.mem_singleton_self _, own.symm⟩
          · rename_i other
            exact free (Ne.symm other)
      · cases found : series.find bar.time with
        | some existing =>
            rw [found] at returned
            obtain ⟨_, -, same⟩ := map_eq_ok.mp returned
            obtain ⟨-, rfl⟩ := Prod.mk.inj same
            split
            · rename_i own
              rw [own, show barAt (storedBars (some series)) bar.time = some existing from found]
              exact found
            · exact Option.or_none.symm
        | none =>
            rw [found] at returned
            obtain ⟨_, upserted, same⟩ := map_eq_ok.mp returned
            obtain ⟨-, rfl⟩ := Prod.mk.inj same
            exact added upserted found

end Commit

end MarketdataProvider
