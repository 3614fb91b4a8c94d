import MarketdataProvider.Store.PlainRows
import MarketdataProvider.Store.ReadersWriters
import MarketdataProvider.Store.RepairConvergence

namespace MarketdataProvider

open Foundation Foundation.Crash

variable [PyText] {F : Type} [PyFloat F] [Sha256] [Parquet]

section Program

/-- `audit_against_source` of a store. -/
def auditStored (pending : Nat → Bool) (store : SegmentStore) (source : List (MarketBar F)) (strict : Bool) :
    StoreProg AuditReport := do
  let existing ← readRange F pending store none none
  return auditAgainstSource existing source strict

/-- What a repair does once it has read the series for the audit and for itself. -/
def applyRepair (store : SegmentStore) (source : List (MarketBar F)) (key : SeriesKey) (policy : RepairPolicy)
    (audited existing : List (MarketBar F)) : StoreProg RepairLog := do
  let report := auditAgainstSource audited source (policy = .strict)
  let (bars, changed) := repairedBars existing source policy
  if changed ≠ 0 then
    let _ ← replaceAllLocked store bars key none
    Prog.ofExcept (repairLog key policy report changed)
  else Prog.ofExcept (repairLog key policy report changed)

/-- `repair_from_source` with the writer lock around it. -/
def repairFromSource (pending : Nat → Bool) (store : SegmentStore) (source : List (MarketBar F)) (key : SeriesKey)
    (policy : RepairPolicy) : StoreProg RepairLog := do
  recoverSeries .seriesLock
  let audited ← readRangeLocked F pending store none none
  let existing ← readRangeLocked F pending store none none
  applyRepair store source key policy audited existing

end Program

variable {store : SegmentStore} {normal key : SeriesKey} {state last : SeriesState} {pending : Nat → Bool}
  {stored : Option (ClosedSeries F)} {source existing : List (MarketBar F)} {policy : RepairPolicy}
  {agrees : MarketBar F → MarketBar F → Prop}

section Runs

omit [PyText] [Sha256] [Parquet] in
theorem onlyRead_trans {middle : SeriesState} (first : OnlyRead state middle) (second : OnlyRead middle last) :
    OnlyRead state last := by
  have same : last = { middle with generation := last.generation } := second
  rw [OnlyRead, same, first]

omit [Sha256] [Parquet] in
/-- The repair of a series of the key of its directory can be reported. -/
theorem repairLog_of_keyed (keyed : normalizedKey key = .ok normal) {report : AuditReport} {changed : Nat} :
    ∃ log, repairLog key policy report changed = .ok log := by
  obtain ⟨timeframe, accepted, -⟩ := bind_eq_ok.mp keyed
  exact repairLog_ok accepted

/-- An audit reads what is stored. -/
theorem Held.auditStored (held : Held store normal state stored) (strict : Bool) :
    ∃ final, (MarketdataProvider.auditStored pending store source strict).run state =
      (.ok (auditAgainstSource (storedBars stored) source strict), final) ∧ OnlyRead state final := by
  obtain ⟨final, ran, only⟩ := held.readAllLocked
  refine ⟨final, ?_, only⟩
  rw [MarketdataProvider.auditStored, MarketdataProvider.readRange, Prog.bind_assoc,
    Prog.run_bind_ok (held.recoverSeries .seriesLock), readRangeLocked_whole, Prog.run_bind_ok ran]
  rfl

/-- A repair works on what is stored. -/
theorem Held.run_repairFromSource (held : Held store normal state stored) :
    ∃ middle, (repairFromSource pending store source key policy).run state =
      (applyRepair store source key policy (storedBars stored) (storedBars stored)).run middle ∧
        OnlyRead state middle := by
  obtain ⟨first, ran, only⟩ := held.readAllLocked
  have again := held.onlyRead only
  obtain ⟨second, repeated, onlyAgain⟩ := again.readAllLocked
  refine ⟨second, ?_, onlyRead_trans only onlyAgain⟩
  rw [repairFromSource, Prog.run_bind_ok (held.recoverSeries .seriesLock), readRangeLocked_whole,
    Prog.run_bind_ok ran, Prog.run_bind_ok repeated]

/-- A repair makes of the files what it makes of the series. -/
theorem Held.repairFromSource (held : Held store normal state stored) (csv : store.dataFormat = .csv)
    (keyed : normalizedKey key = .ok normal)
    (lasting : ∀ bar ∈ (repairedBars (storedBars stored) source policy).1, bar.Lasting) :
    Prog.Realises (Held store normal) stored
      ((fun made => (made.1, made.2.map ClosedSeries.normalize)) <$> repairSeries .csv stored source key policy)
      (MarketdataProvider.repairFromSource pending store source key policy) state := by
  obtain ⟨middle, ran, only⟩ := @Held.run_repairFromSource _ F _ _ _ store normal key state pending stored source
    policy held
  have again := held.onlyRead only
  refine .of_run ran ?_
  rw [applyRepair, repairSeries]
  generalize auditAgainstSource (storedBars stored) source (decide (policy = .strict)) = report
  generalize repairedBars (storedBars stored) source policy = repaired at lasting ⊢
  obtain ⟨bars, changed⟩ := repaired
  obtain ⟨log, reported⟩ := @repairLog_of_keyed _ normal key policy keyed report changed
  dsimp only at lasting ⊢
  rw [reported]
  by_cases nothing : changed = 0
  · simp only [nothing, ne_eq, not_true_eq_false, if_false]
    refine ⟨middle, rfl, ?_⟩
    rw [again.normalize]
    exact again
  · simp only [ne_eq, nothing, not_false_eq_true, if_true]
    have format : (none : Option SegmentFormat).getD store.dataFormat = .csv := csv
    have replaced := again.replaceAllLocked format keyed lasting
    cases made : replaceSeries .csv bars key with
    | error error =>
        rw [made] at replaced
        obtain ⟨final, raised, kept⟩ := replaced
        exact .raised raised kept
    | ok series =>
        rw [made] at replaced
        obtain ⟨value, final, returned, reached⟩ := replaced
        exact ⟨final, (Prog.run_bind_ok returned).trans rfl, reached⟩

/-- A repair that has nothing to change only reads. -/
theorem Held.repairFromSource_unchanged (held : Held store normal state stored)
    (keyed : normalizedKey key = .ok normal)
    (unchanged : (repairedBars (storedBars stored) source policy).2 = 0) :
    ∃ log final, (MarketdataProvider.repairFromSource pending store source key policy).run state =
      (.ok log, final) ∧ log.changed = 0 ∧ log.applied = false ∧ OnlyRead state final := by
  obtain ⟨middle, ran, only⟩ := @Held.run_repairFromSource _ F _ _ _ store normal key state pending stored source
    policy held
  obtain ⟨log, reported⟩ := @repairLog_of_keyed _ normal key policy keyed
    (auditAgainstSource (storedBars stored) source (policy = .strict)) 0
  obtain ⟨counted, applied⟩ := repairLog_fields reported
  refine ⟨log, middle, ?_, counted, applied, only⟩
  rw [ran, applyRepair]
  cases repaired : repairedBars (storedBars stored) source policy with
  | mk bars changed =>
      rw [repaired] at unchanged
      obtain rfl : changed = 0 := unchanged
      simp only [ne_eq, not_true_eq_false, if_false, reported]
      rfl

/-- A repair reports how many bars it changed. -/
theorem Held.changed_of_repairFromSource (held : Held store normal state stored) {log : RepairLog}
    (returned : ((MarketdataProvider.repairFromSource pending store source key policy).run state).1 = .ok log) :
    log.changed = (repairedBars (storedBars stored) source policy).2 := by
  obtain ⟨middle, ran, -⟩ := @Held.run_repairFromSource _ F _ _ _ store normal key state pending stored source
    policy held
  rw [ran, applyRepair] at returned
  dsimp only at returned
  split at returned
  · obtain ⟨_, _, -, reported⟩ := Prog.run_bind_eq_ok.mp returned
    rw [Prog.run_ofExcept] at reported
    exact (repairLog_fields reported).1
  · rw [Prog.run_ofExcept] at returned
    exact (repairLog_fields returned).1

end Runs

section Converge

/-- What a repair leaves behind, as the reads of the store show it. -/
structure Repaired (agrees : MarketBar F → MarketBar F → Prop) (pending : Nat → Bool) (store : SegmentStore)
    (before source : List (MarketBar F)) (key : SeriesKey) (policy : RepairPolicy) (last : SeriesState) : Prop where
  stored : ∃ bars, ((readRange F pending store none none).run last).1 = .ok bars ∧
    (∀ time latest, barAt source.reverse time = some latest → ∃ bar, barAt bars time = some bar ∧ agrees bar latest) ∧
    ∀ time, barAt source.reverse time = none →
      barAt bars time = if policy = .strict then none else barAt before time
  audited : ∃ report, ((auditStored pending store source (policy = .strict)).run last).1 = .ok report ∧
    report.ok = true
  settled : ∃ log final, (repairFromSource pending store source key policy).run last = (.ok log, final) ∧
    log.changed = 0 ∧ log.applied = false ∧ OnlyRead last final

/-- A repair of the files returns, and a second one finds nothing to do. -/
def RepairSettles (agrees : MarketBar F → MarketBar F → Prop) (pending : Nat → Bool) (store : SegmentStore)
    (state : SeriesState) (before source : List (MarketBar F)) (key : SeriesKey) (policy : RepairPolicy) : Prop :=
  ∃ log last, (repairFromSource pending store source key policy).run state = (.ok log, last) ∧
    Repaired agrees pending store before source key policy last

theorem Held.readRange_whole (held : Held store normal state stored) :
    ((MarketdataProvider.readRange F pending store none none).run state).1 = .ok (storedBars stored) := by
  obtain ⟨last, ran, -⟩ := held.readAllLocked
  rw [MarketdataProvider.readRange, Prog.run_bind_ok (held.recoverSeries .seriesLock), readRangeLocked_whole, ran]

omit [PyText] [Sha256] [Parquet] in
theorem mem_repairFold {state : List (MarketBar F) × Nat} {bar : MarketBar F}
    (member : bar ∈ (source.foldl repairBar state).1) : bar ∈ state.1 ∨ bar ∈ source := by
  induction source generalizing state with
  | nil => exact .inl member
  | cons src rest ih =>
      rcases ih member with inside | later
      · have settled : bar ∈ Keyed.upsert (fun bar : MarketBar F => bar.time) state.1 src ∨ bar ∈ state.1 := by
          unfold repairBar at inside
          split at inside
          · exact .inl inside
          · split at inside
            · exact .inr inside
            · exact .inl inside
        rcases settled with upserted | old
        · rcases Keyed.mem_upsert upserted with rfl | old
          · exact .inr List.mem_cons_self
          · exact .inl old
        · exact .inl old
      · exact .inr (List.mem_cons_of_mem _ later)

omit [PyText] [Sha256] [Parquet] in
/-- A repair writes stored bars and source bars only. -/
theorem mem_repairedBars {bar : MarketBar F} (member : bar ∈ (repairedBars existing source policy).1) :
    bar ∈ existing ∨ bar ∈ source := by
  cases policy with
  | nonStrict => exact mem_repairFold member
  | strict => exact mem_repairFold (List.mem_filter.mp member).1

/-- What a repair makes of a series is spelled as its files give it back. -/
theorem Held.normalize_repaired (held : Held store normal state stored) (normals : ∀ src ∈ source, src.Normal)
    {format : SegmentFormat} {log : RepairLog} {after : Option (ClosedSeries F)}
    (made : repairSeries format stored source key policy = .ok (log, after)) :
    after.map ClosedSeries.normalize = after := by
  obtain ⟨outcome, -⟩ := repairSeries_ok_iff.mp made
  split at outcome
  · obtain ⟨series, replaced, rfl⟩ := outcome
    refine congrArg some (ClosedSeries.normalize_of_normal fun bar member => ?_)
    rw [(replaceSeries_ok replaced).2, mem_sortByTime] at member
    exact (mem_repairedBars member).elim (held.normalBars bar) (normals bar)
  · rw [outcome, held.normalize]

/-- Rows that last make the repair of the files that of the series. -/
theorem Held.repairSettles_iff (held : Held store normal state stored) (csv : store.dataFormat = .csv)
    (keyed : normalizedKey key = .ok normal) (normals : ∀ src ∈ source, src.Normal)
    (lasting : ∀ bar ∈ (repairedBars (storedBars stored) source policy).1, bar.Lasting) :
    RepairSettles agrees pending store state (storedBars stored) source key policy ↔
      RepairConverges agrees .csv stored source key policy := by
  have realised := @Held.repairFromSource _ F _ _ _ store normal key state pending stored source policy held csv
    keyed lasting
  constructor
  · rintro ⟨log, last, ran, repaired⟩
    cases made : repairSeries .csv stored source key policy with
    | error error =>
        rw [made] at realised
        obtain ⟨_, raised, -⟩ := realised
        cases raised.symm.trans ran
    | ok pair =>
        obtain ⟨reported, after⟩ := pair
        rw [made] at realised
        obtain ⟨final, returned, reached⟩ := realised
        obtain ⟨same, rfl⟩ := Prod.mk.inj (returned.symm.trans ran)
        obtain rfl := Except.ok.inj same
        change Held store normal final (after.map ClosedSeries.normalize) at reached
        rw [held.normalize_repaired normals made] at reached
        refine ⟨reported, after, made, ?_⟩
        obtain ⟨bars, read, sourced, others⟩ := repaired.stored
        obtain rfl := Except.ok.inj (reached.readRange_whole.symm.trans read)
        refine ⟨sourced, others, ?_, ?_⟩
        · obtain ⟨report, audited, ok⟩ := repaired.audited
          obtain ⟨_, found, -⟩ := reached.auditStored (policy = .strict)
          rw [found] at audited
          rwa [Except.ok.inj audited]
        · obtain ⟨again, _, settled, counted, applied, -⟩ := repaired.settled
          have unchanged := reached.changed_of_repairFromSource (congrArg Prod.fst settled)
          rw [counted] at unchanged
          obtain ⟨second, report⟩ := @repairLog_of_keyed _ normal key policy keyed
            (auditAgainstSource (storedBars after) source (policy = .strict)) 0
          refine ⟨second, repairSeries_ok_iff.mpr ⟨?_, ?_⟩, repairLog_fields report⟩
          · rw [if_neg (not_not.mpr unchanged.symm)]
          · rw [← unchanged]
            exact report
  · rintro ⟨log, after, made, converged⟩
    rw [made] at realised
    obtain ⟨final, returned, reached⟩ := realised
    change Held store normal final (after.map ClosedSeries.normalize) at reached
    rw [held.normalize_repaired normals made] at reached
    obtain ⟨again, second, counted, -⟩ := converged.settled
    have unchanged : (repairedBars (storedBars after) source policy).2 = 0 := by
      rw [← counted]
      exact (repairLog_fields (repairSeries_ok_iff.mp second).2).1.symm
    obtain ⟨_, audited, -⟩ := reached.auditStored (policy = .strict)
    exact ⟨log, final, returned, ⟨_, reached.readRange_whole, converged.sourced, converged.others⟩,
      ⟨_, congrArg Prod.fst audited, converged.audited⟩, reached.repairFromSource_unchanged keyed unchanged⟩

/-- The rows that a repair has to write survive the row codec. -/
def Lasts (existing source : List (MarketBar F)) : Prop :=
  ∀ time first, barAt source time = some first →
    (∃ current, barAt existing time = some current ∧ sameCanonicalCandle current first = true) ∨ first.Lasting

/-- With one payload for each time a repair writes stored bars and first source bars. -/
theorem Lasts.repairedBars (held : Held store normal state stored) (equality : FloatEquality F)
    (one : OnePayload source) (lasts : Lasts (storedBars stored) source) :
    ∀ bar ∈ (repairedBars (storedBars stored) source policy).1, bar.Lasting := by
  intro bar member
  have found : barAt (MarketdataProvider.repairedBars (storedBars stored) source policy).1 bar.time = some bar :=
    (Keyed.find_eq_some_iff repairedBars_distinct).mpr ⟨member, rfl⟩
  rw [barAt_repairedBars equality one] at found
  cases first : barAt source bar.time with
  | none =>
      rw [first] at found
      dsimp only at found
      split at found
      · cases found
      · exact held.lasting bar (mem_of_barAt found)
  | some src =>
      rw [first] at found
      have same : settle (barAt (storedBars stored) bar.time) src = bar := Option.some.inj found
      rw [← same]
      cases old : barAt (storedBars stored) bar.time with
      | none =>
          rcases lasts _ src first with ⟨_, other, -⟩ | lasting
          · cases old.symm.trans other
          · exact lasting
      | some current =>
          rw [settle]
          split
          · exact held.lasting current (mem_of_barAt old)
          · rename_i different
            rcases lasts _ src first with ⟨_, other, same⟩ | lasting
            · obtain rfl := Option.some.inj (old.symm.trans other)
              exact absurd same different
            · exact lasting

omit [PyFloat F] [Sha256] [Parquet] in
theorem normal_marketBarFromBar {parsed bar : MarketBar F} {transport : String}
    (made : marketBarFromBar parsed key transport = .ok bar) : bar.Normal := by
  unfold marketBarFromBar at made
  dsimp only at made
  split_ifs at made
  obtain ⟨timeframe, accepted, same⟩ := bind_eq_ok.mp made
  rw [pure_eq_ok] at same
  have again : canonicalTimeframe bar.timeframe = .ok timeframe := by
    rw [← same]
    exact canonicalTimeframe_idempotent accepted
  rw [MarketBar.Normal, normalForm_of_timeframe again, ← same]
  simp only [MarketBar.persisted, PyText.lower_lower, PyText.upper_upper]

omit [Sha256] [Parquet] in
/-- Source bars are spelled as a read gives them back. -/
theorem normal_of_loaded {finality : String → Bool} {suffix transport : String} {rows : List CsvRow}
    (loaded : loadRepairSource finality suffix rows key transport = .ok source) : ∀ src ∈ source, src.Normal := by
  rw [loadRepairSource] at loaded
  split at loaded
  · cases loaded
  · obtain ⟨bars, mapped, sorted⟩ := bind_eq_ok.mp loaded
    intro bar member
    rw [← Except.ok.inj sorted, List.mem_insertionSort] at member
    obtain ⟨row, -, made⟩ := of_mem_mapM mapped bar member
    obtain ⟨parsed, -, converted⟩ := bind_eq_ok.mp made
    exact normal_marketBarFromBar converted

section Settles

variable (held : Held store normal state stored) (csv : store.dataFormat = .csv)
  (keyed : normalizedKey key = .ok normal) (equality : FloatEquality F)
  {finality : String → Bool} {suffix transport : String} {rows : List CsvRow}
  (loaded : loadRepairSource finality suffix rows key transport = .ok source) (given : source ≠ [])
  (formed : ∀ bar ∈ source, bar.WellFormed)
include held csv keyed equality loaded given formed

/-- A repair of the files settles when the source bars of each time have one payload, and the rows to be written
can be digested and survive the row codec; of source bars that survive it, only then. It keeps the last source
bar itself when the bar that has this payload first, in the store or in the source, is the last one. -/
theorem repair_settles_iff :
    (OnePayload source → Writable (storedBars stored) source → Lasts (storedBars stored) source →
      RepairSettles (fun bar last => sameCanonicalCandle bar last = true) pending store state (storedBars stored)
          source key policy ∧
        (RepairSettles (fun bar last => bar = last) pending store state (storedBars stored) source key policy ↔
          KeepsLast (storedBars stored) source)) ∧
    ((∀ src ∈ source, src.Lasting) →
      (RepairSettles (fun bar last => sameCanonicalCandle bar last = true) pending store state (storedBars stored)
          source key policy ↔ OnePayload source ∧ Writable (storedBars stored) source) ∧
        (RepairSettles (fun bar last => bar = last) pending store state (storedBars stored) source key policy ↔
          OnePayload source ∧ Writable (storedBars stored) source ∧ KeepsLast (storedBars stored) source)) := by
  obtain ⟨timeframe, accepted⟩ := accepted_of_loaded loaded given
  have normals := normal_of_loaded loaded
  constructor
  · intro one writable lasts
    have lasting : ∀ bar ∈ (repairedBars (storedBars stored) source policy).1, bar.Lasting :=
      lasts.repairedBars held equality one
    rw [held.repairSettles_iff csv keyed normals lasting, held.repairSettles_iff csv keyed normals lasting,
      repairConverges_payload_iff equality accepted formed, repairConverges_bar_iff equality accepted formed]
    exact ⟨⟨one, writable⟩, fun all => all.2.2, fun last => ⟨one, writable, last⟩⟩
  · intro all
    have lasting : ∀ bar ∈ (repairedBars (storedBars stored) source policy).1, bar.Lasting :=
      fun bar member => (mem_repairedBars member).elim (held.lasting bar) (all bar)
    rw [held.repairSettles_iff csv keyed normals lasting, held.repairSettles_iff csv keyed normals lasting]
    exact ⟨repairConverges_payload_iff equality accepted formed, repairConverges_bar_iff equality accepted formed⟩

end Settles

end Converge

end MarketdataProvider

namespace MarketdataProvider

open Foundation Foundation.Crash Reference

open scoped Reference

namespace Reference

theorem revisions_rows : ∀ bar ∈ [firstRevision, secondRevision],
    (validatePersistedBarSemantics bar).toOption = some () ∧
      (rowToBar (writtenRow bar)).toOption = some (bar.persisted "1m") ∧ (updateChecksum .v4 bar).toBool = true ∧
      bar.Fits ∧ (bar.persisted "1m").Fits := by
  unfold MarketBar.Fits
  decide +kernel

theorem revisions_lasting : ∀ bar ∈ [firstRevision, secondRevision], bar.Lasting := by
  intro bar member
  obtain ⟨semantics, codec, -, fits, again⟩ := revisions_rows bar member
  have spelled : bar.timeframe = "1m" := by
    rcases List.mem_cons.mp member with rfl | later
    · rfl
    · rw [List.mem_singleton.mp later]
      rfl
  exact minuteRow_lasting spelled semantics codec fits again

theorem revisions_formed : ∀ bar ∈ [firstRevision, secondRevision], bar.WellFormed := by
  intro bar member
  rcases List.mem_cons.mp member with rfl | member
  · exact revision_formed (.inl rfl)
  · rw [List.mem_singleton.mp member]
    exact revision_formed (.inr rfl)

/-- A directory without files. -/
theorem empty_held : ∃ state, Held (F := Whole) ⟨.csv, true, false⟩ series state none := by
  obtain ⟨directory, placed⟩ := series_directory
  refine ⟨SeriesState.empty directory, ⟨none, ⟨rfl, rfl⟩, fun _ _ => rfl, fun _ => ⟨fun _ => rfl, rfl⟩, ?_⟩,
    placed, rfl⟩
  intro raw named
  cases named

theorem minutes_keyed : normalizedKey btcusdtMinutes = .ok series := eq_ok_of_toOption (by decide +kernel)

end Reference

/-- A source candle with exact texts takes the place of the stored one, and the later candle stays. -/
theorem repair_settles_gapped : ∃ state, Held ⟨.csv, true, false⟩ series state (some gappedSeries) ∧
    RepairSettles (fun bar last => sameCanonicalCandle bar last = true) (fun _ => false) ⟨.csv, true, false⟩ state
      gapped [firstRevision] btcusdtMinutes .nonStrict := by
  obtain ⟨state, -, held⟩ := gapped_held
  refine ⟨state, held, ((repair_settles_iff held rfl minutes_keyed wholeEquality loaded_first
    (List.cons_ne_nil _ _) ?_).2 ?_).1.mpr ⟨?_, ?_⟩⟩
  · exact fun bar member => revisions_formed bar (by simp_all)
  · exact fun bar member => revisions_lasting bar (by simp_all)
  · unfold OnePayload
    decide +kernel
  · intro time first found
    right
    obtain rfl := List.mem_singleton.mp (mem_of_barAt found)
    exact eq_ok_of_toBool (revisions_rows _ List.mem_cons_self).2.2.1

/-- A corrected candle behind the original one: the audit of the repaired series finds the original. -/
theorem corrected_candle_never_settles : ∃ source, loadRepairSource (F := Whole) (fun text => text = "OPEN") ".csv"
      [repairCsvRow "2" "CORRECTED" "1", repairCsvRow "1" "ORIGINAL" "0"] btcusdtMinutes "rest" = .ok source ∧
    source ≠ [] ∧ (∀ bar ∈ source, bar.WellFormed) ∧
    ∃ state, Held ⟨.csv, true, false⟩ series state (none : Option (ClosedSeries Whole)) ∧
      ¬ RepairSettles (fun bar last => sameCanonicalCandle bar last = true) (fun _ => false) ⟨.csv, true, false⟩
        state [] source btcusdtMinutes .nonStrict := by
  obtain ⟨state, held⟩ := empty_held
  refine ⟨_, loaded_revisions, List.cons_ne_nil _ _, revisions_formed, state, held, fun settles => ?_⟩
  have lasting : ∀ bar ∈ (repairedBars (storedBars none) [firstRevision, secondRevision] .nonStrict).1,
      bar.Lasting := fun bar member => (mem_repairedBars member).elim (held.lasting bar) (revisions_lasting bar)
  have converges := (held.repairSettles_iff rfl minutes_keyed (normal_of_loaded loaded_revisions) lasting).mp settles
  have accepted : canonicalTimeframe btcusdtMinutes.timeframe = .ok "1m" :=
    eq_ok_of_toOption (by decide +kernel)
  obtain ⟨one, -⟩ := (repairConverges_payload_iff wholeEquality accepted revisions_formed).mp converges
  have same := one firstRevision List.mem_cons_self secondRevision
    (List.mem_cons_of_mem _ (List.mem_singleton_self _)) rfl
  exact absurd same (by decide +kernel)

end MarketdataProvider
