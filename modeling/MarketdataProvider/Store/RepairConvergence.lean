import MarketdataProvider.Store.Repair
import MarketdataProvider.Store.SameCandle
import MarketdataProvider.Store.SeriesWrites

namespace MarketdataProvider

open Foundation

section Fold

variable {F : Type} [PyFloat F] {existing source rows : List (MarketBar F)} {src : MarketBar F} {time : Int}
  {state : List (MarketBar F) × Nat} {policy : RepairPolicy}

/-- What a time holds behind a source bar. -/
def settle (current : Option (MarketBar F)) (src : MarketBar F) : MarketBar F :=
  match current with
  | none => src
  | some current => if sameCanonicalCandle current src then current else src

/-- Every source bar has the payload of the stored bar of its time. -/
def Matches (existing source : List (MarketBar F)) : Prop :=
  ∀ src ∈ source, ∃ current, barAt existing src.time = some current ∧ sameCanonicalCandle current src = true

/-- The source bars of one time have one payload. -/
def OnePayload (source : List (MarketBar F)) : Prop :=
  ∀ left ∈ source, ∀ right ∈ source, left.time = right.time → sameCanonicalCandle left right = true

theorem barAt_repairBar : barAt (repairBar state src).1 time =
    if time = src.time then some (settle (barAt state.1 src.time) src) else barAt state.1 time := by
  have upserted : barAt (Keyed.upsert (fun bar : MarketBar F => bar.time) state.1 src) time =
      if time = src.time then some src else barAt state.1 time := Keyed.find_upsert
  unfold repairBar settle
  cases found : barAt state.1 src.time with
  | none => exact upserted
  | some current =>
      dsimp only
      split
      · split
        · rename_i own
          rw [own, found]
        · rfl
      · exact upserted

theorem barAt_repairFold : barAt (source.foldl repairBar state).1 time =
    (source.filter fun src => src.time = time).foldl (fun current src => some (settle current src))
      (barAt state.1 time) := by
  induction source generalizing state with
  | nil => rfl
  | cons src source ih =>
      rw [List.foldl_cons, ih, barAt_repairBar, List.filter_cons]
      by_cases own : time = src.time
      · rw [if_pos own, if_pos (decide_eq_true own.symm), List.foldl_cons, own]
      · rw [if_neg own, if_neg (by simpa using Ne.symm own)]

theorem repairBar_distinct (distinct : (state.1.map (·.time)).Nodup) :
    ((repairBar state src).1.map (·.time)).Nodup := by
  have upserted : ((Keyed.upsert (fun bar : MarketBar F => bar.time) state.1 src).map (·.time)).Nodup :=
    Keyed.nodup_upsert distinct
  unfold repairBar
  cases barAt state.1 src.time with
  | none => exact upserted
  | some current =>
      dsimp only
      split
      · exact distinct
      · exact upserted

theorem repairFold_distinct (distinct : (state.1.map (·.time)).Nodup) :
    ((source.foldl repairBar state).1.map (·.time)).Nodup := by
  induction source generalizing state with
  | nil => exact distinct
  | cons src source ih => exact ih (repairBar_distinct distinct)

theorem repairBar_count : state.2 ≤ (repairBar state src).2 := by
  unfold repairBar
  cases barAt state.1 src.time with
  | none => exact Nat.le_succ _
  | some current =>
      dsimp only
      split
      · exact le_refl _
      · exact Nat.le_succ _

theorem repairFold_count : state.2 ≤ (source.foldl repairBar state).2 := by
  induction source generalizing state with
  | nil => exact le_refl _
  | cons src source ih => exact repairBar_count.trans ih

/-- Nothing is counted exactly when each source bar is there, and then nothing changes. -/
theorem repairFold_unchanged : (source.foldl repairBar state).2 = state.2 ↔ Matches state.1 source := by
  induction source generalizing state with
  | nil => simp [Matches]
  | cons src source ih =>
      have kept (current : MarketBar F) (found : barAt state.1 src.time = some current)
          (same : sameCanonicalCandle current src = true) : repairBar state src = state := by
        rw [repairBar, found]
        exact if_pos same
      constructor
      · intro counted
        have first : (repairBar state src).2 = state.2 :=
          le_antisymm (counted ▸ @repairFold_count F _ source _) repairBar_count
        have there : ∃ current, barAt state.1 src.time = some current ∧
            sameCanonicalCandle current src = true := by
          rw [repairBar] at first
          cases found : barAt state.1 src.time with
          | none =>
              rw [found] at first
              dsimp only at first
              omega
          | some current =>
              rw [found] at first
              dsimp only at first
              split at first
              · rename_i same
                exact ⟨current, rfl, same⟩
              · dsimp only at first
                omega
        obtain ⟨current, found, same⟩ := there
        rw [List.foldl_cons, kept current found same] at counted
        intro other member
        rcases List.mem_cons.mp member with rfl | later
        · exact ⟨current, found, same⟩
        · exact ih.mp counted other later
      · intro all
        obtain ⟨current, found, same⟩ := all src List.mem_cons_self
        rw [List.foldl_cons, kept current found same]
        exact ih.mpr fun other member => all other (List.mem_cons_of_mem _ member)

theorem repairFold_eq_self (there : Matches state.1 source) : source.foldl repairBar state = state := by
  induction source generalizing state with
  | nil => rfl
  | cons src source ih =>
      obtain ⟨current, found, same⟩ := there src List.mem_cons_self
      have kept : repairBar state src = state := by
        rw [repairBar, found]
        exact if_pos same
      rw [List.foldl_cons, kept]
      exact ih fun other member => there other (List.mem_cons_of_mem _ member)

/-- Source bars of one payload settle with the first of them. -/
theorem settle_rows (equality : FloatEquality F) {first : MarketBar F} {current : Option (MarketBar F)}
    (one : OnePayload (first :: rows)) (times : ∀ row ∈ rows, row.time = first.time) :
    (first :: rows).foldl (fun current src => some (settle current src)) current =
      some (settle current first) := by
  have payload (row : MarketBar F) (member : row ∈ first :: rows) :
      sameCanonicalCandle (settle current first) row = true := by
    have own : first.time = row.time := by
      rcases List.mem_cons.mp member with rfl | later
      · rfl
      · exact (times row later).symm
    have same := one first List.mem_cons_self row member own
    unfold settle
    cases current with
    | none => exact same
    | some current =>
        dsimp only
        split
        · rename_i stored
          exact sameCanonicalCandle_trans equality stored same
        · exact same
  rw [List.foldl_cons]
  generalize settle current first = settled at payload ⊢
  clear one times
  induction rows with
  | nil => rfl
  | cons row rows ih =>
      have kept : settle (some settled) row = settled :=
        if_pos (payload row (List.mem_cons_of_mem _ List.mem_cons_self))
      rw [List.foldl_cons, kept]
      apply ih
      intro other member
      rcases List.mem_cons.mp member with rfl | later
      · exact payload other List.mem_cons_self
      · exact payload other (List.mem_cons_of_mem _ (List.mem_cons_of_mem _ later))

omit [PyFloat F] in
theorem barAt_eq_head? : barAt source time = (source.filter fun src => src.time = time).head? :=
  List.head?_filter.symm

/-- Every time of the source settles on the stored bar or on its first source bar. -/
theorem barAt_repairFold_of_one (equality : FloatEquality F) (one : OnePayload source) :
    barAt (source.foldl repairBar state).1 time = match barAt source time with
      | none => barAt state.1 time
      | some first => some (settle (barAt state.1 time) first) := by
  rw [barAt_repairFold, @barAt_eq_head? F source]
  cases found : source.filter fun src => src.time = time with
  | nil => rfl
  | cons first rows =>
      have inside (row : MarketBar F) (member : row ∈ first :: rows) : row ∈ source ∧ row.time = time := by
        rw [← found] at member
        simpa using List.mem_filter.mp member
      apply settle_rows equality
      · intro left leftMember right rightMember
        exact one left (inside left leftMember).1 right (inside right rightMember).1
      · intro row member
        rw [(inside row (List.mem_cons_of_mem _ member)).2, (inside first List.mem_cons_self).2]

omit [PyFloat F] in
theorem barAt_filter_times (times : List Int) : barAt (existing.filter fun bar => bar.time ∈ times) time =
    if time ∈ times then barAt existing time else none := by
  rw [barAt, Keyed.find, List.find?_filter]
  split
  · rename_i member
    rw [barAt, Keyed.find]
    congr 1
    funext bar
    by_cases own : bar.time = time
    · simp [own, member]
    · simp [own]
  · rename_i other
    rw [List.find?_eq_none]
    intro bar _ both
    simp only [decide_eq_true_eq] at both
    exact other (both.2 ▸ both.1)

omit [PyFloat F] in
theorem extraBars_eq_nil_iff : extraBars existing source = [] ↔
    ∀ bar ∈ existing, bar.time ∈ source.map (·.time) := by
  rw [List.eq_nil_iff_forall_not_mem]
  simp only [extraBars, mem_sortByTime, List.mem_filter, decide_eq_true_eq, not_and, not_not]

theorem auditBar_eq_nil_iff : auditBar existing src = [] ↔
    ∃ current, barAt existing src.time = some current ∧ sameCanonicalCandle current src = true := by
  unfold auditBar
  cases barAt existing src.time with
  | none => simp
  | some current =>
      dsimp only
      split
      · rename_i same
        exact iff_of_true rfl ⟨current, rfl, same⟩
      · rename_i different
        apply iff_of_false (List.cons_ne_nil _ _)
        rintro ⟨_, ⟨⟩, same⟩
        exact different same

/-- An audit is passed by the payloads of all source bars, and a strict one by no other bars. -/
theorem audit_ok_iff {strict : Bool} : (auditAgainstSource existing source strict).ok = true ↔
    Matches existing source ∧ (strict = true → extraBars existing source = []) := by
  rw [auditAgainstSource, List.isEmpty_iff, List.append_eq_nil_iff, List.flatMap_eq_nil_iff]
  simp only [auditBar_eq_nil_iff]
  apply and_congr_right
  intro _
  cases strict with
  | false => simp
  | true => simp

/-- A repair counts nothing exactly when an audit of its policy finds nothing. -/
theorem repairedBars_unchanged_iff : (repairedBars existing source policy).2 = 0 ↔
    Matches existing source ∧ (policy = .strict → extraBars existing source = []) := by
  have counted : (source.foldl repairBar (existing, 0)).2 = 0 ↔ Matches existing source :=
    repairFold_unchanged
  cases policy with
  | nonStrict => simpa [repairedBars] using counted
  | strict =>
      simp only [repairedBars, Nat.add_eq_zero_iff, counted, List.length_eq_zero_iff, forall_const]
      apply and_congr_right
      intro there
      rw [@repairFold_eq_self F _ _ (existing, 0) there]

/-- The bars of an unchanged series are those of the loops. -/
theorem repairedBars_eq_self (unchanged : (repairedBars existing source policy).2 = 0) :
    (repairedBars existing source policy).1 = existing := by
  obtain ⟨there, extras⟩ := repairedBars_unchanged_iff.mp unchanged
  cases policy with
  | nonStrict => rw [repairedBars, @repairFold_eq_self F _ _ (existing, 0) there]
  | strict =>
      simp only [repairedBars, @repairFold_eq_self F _ _ (existing, 0) there]
      rw [List.filter_eq_self]
      intro bar member
      exact decide_eq_true (extraBars_eq_nil_iff.mp (extras rfl) bar member)

end Fold

section Converge

variable [PyText] {F : Type} [PyFloat F]

/-- What a repair of a series leaves behind, with `agrees` between a bar and the last source bar. -/
structure Converged (agrees : MarketBar F → MarketBar F → Prop) (format : SegmentFormat)
    (stored : Option (ClosedSeries F)) (source : List (MarketBar F)) (key : SeriesKey)
    (policy : RepairPolicy) (after : Option (ClosedSeries F)) : Prop where
  sourced : ∀ time last, barAt source.reverse time = some last →
    ∃ bar, barAt (storedBars after) time = some bar ∧ agrees bar last
  others : ∀ time, barAt source.reverse time = none → barAt (storedBars after) time =
    if policy = .strict then none else barAt (storedBars stored) time
  audited : (auditAgainstSource (storedBars after) source (policy = .strict)).ok = true
  settled : ∃ log, repairSeries format after source key policy = .ok (log, after) ∧
    log.changed = 0 ∧ log.applied = false

/-- A repair returns, and a second one finds nothing to do. -/
def RepairConverges (agrees : MarketBar F → MarketBar F → Prop) (format : SegmentFormat)
    (stored : Option (ClosedSeries F)) (source : List (MarketBar F)) (key : SeriesKey)
    (policy : RepairPolicy) : Prop :=
  ∃ log after, repairSeries format stored source key policy = .ok (log, after) ∧
    Converged agrees format stored source key policy after

/-- The rows that a repair has to write can be digested. -/
def Writable (existing source : List (MarketBar F)) : Prop :=
  ∀ time first, barAt source time = some first →
    (∃ current, barAt existing time = some current ∧ sameCanonicalCandle current first = true) ∨
      ∃ row, updateChecksum .v4 first = .ok row

omit [PyText] in
/-- The stored bar with the payload of the source bars, or else the first of them, is the last one. -/
def KeepsLast (existing source : List (MarketBar F)) : Prop :=
  ∀ time first last, barAt source time = some first → barAt source.reverse time = some last →
    match barAt existing time with
    | none => first = last
    | some current => if sameCanonicalCandle current first then current = last else first = last

variable {format : SegmentFormat} {stored after : Option (ClosedSeries F)} {source : List (MarketBar F)}
  {key normal : SeriesKey} {policy : RepairPolicy} {log : RepairLog} {timeframe : String} {time : Int}

theorem repairSeries_ok_iff : repairSeries format stored source key policy = .ok (log, after) ↔
    (if (repairedBars (storedBars stored) source policy).2 ≠ 0 then
      ∃ series, replaceSeries format (repairedBars (storedBars stored) source policy).1 key = .ok series ∧
        after = some series
    else after = stored) ∧
    repairLog key policy (auditAgainstSource (storedBars stored) source (policy = .strict))
      (repairedBars (storedBars stored) source policy).2 = .ok log := by
  simp only [repairSeries]
  split
  · simp only [bind_eq_ok, map_eq_ok]
    constructor
    · rintro ⟨_, ⟨series, replaced, rfl⟩, made, reported, same⟩
      obtain ⟨rfl, rfl⟩ := Prod.mk.inj (Except.ok.inj same)
      exact ⟨⟨series, replaced, rfl⟩, reported⟩
    · rintro ⟨⟨series, replaced, rfl⟩, reported⟩
      exact ⟨_, ⟨series, replaced, rfl⟩, log, reported, rfl⟩
  · rw [pure_bind, bind_eq_ok]
    constructor
    · rintro ⟨made, reported, same⟩
      obtain ⟨rfl, rfl⟩ := Prod.mk.inj (Except.ok.inj same)
      exact ⟨rfl, reported⟩
    · rintro ⟨rfl, reported⟩
      exact ⟨log, reported, rfl⟩

/-- A repair with a timeframe reports what it changed. -/
theorem repairLog_ok {report : AuditReport} {changed : Nat}
    (accepted : canonicalTimeframe key.timeframe = .ok timeframe) :
    ∃ log, repairLog key policy report changed = .ok log := by
  rw [repairLog, accepted]
  exact ⟨_, rfl⟩

theorem repairLog_fields {report : AuditReport} {changed : Nat}
    (reported : repairLog key policy report changed = .ok log) :
    log.changed = changed ∧ log.applied = decide (changed ≠ 0) := by
  obtain ⟨timeframe, -, same⟩ := bind_eq_ok.mp reported
  cases same
  exact ⟨rfl, rfl⟩

theorem repairedBars_distinct : ((repairedBars (storedBars stored) source policy).1.map (·.time)).Nodup := by
  have folded : ((source.foldl repairBar (storedBars stored, 0)).1.map (·.time)).Nodup :=
    repairFold_distinct (distinct_storedBars stored)
  cases policy with
  | nonStrict => exact folded
  | strict => exact folded.sublist (List.filter_sublist.map _)

/-- A repair stores the bars of its loops. -/
theorem barAt_repaired (returned : repairSeries format stored source key policy = .ok (log, after)) (time : Int) :
    barAt (storedBars after) time = barAt (repairedBars (storedBars stored) source policy).1 time := by
  obtain ⟨outcome, -⟩ := repairSeries_ok_iff.mp returned
  split at outcome
  · obtain ⟨series, replaced, rfl⟩ := outcome
    change barAt series.bars time = _
    rw [(replaceSeries_ok replaced).2, barAt, sortByTime,
      Keyed.find_perm repairedBars_distinct (List.perm_insertionSort _ _)]
    rfl
  · rename_i unchanged
    rw [outcome, repairedBars_eq_self (not_not.mp unchanged)]

/-- With one payload for each time a repair settles each time of the source. -/
theorem barAt_repairedBars (equality : FloatEquality F) (one : OnePayload source) (time : Int) :
    barAt (repairedBars (storedBars stored) source policy).1 time = match barAt source time with
      | none => if policy = .strict then none else barAt (storedBars stored) time
      | some first => some (settle (barAt (storedBars stored) time) first) := by
  have folded : barAt (source.foldl repairBar (storedBars stored, 0)).1 time = _ :=
    barAt_repairFold_of_one equality one
  cases policy with
  | nonStrict => exact folded
  | strict =>
      simp only [repairedBars]
      rw [barAt_filter_times, folded]
      cases found : barAt source time with
      | none =>
          have absent := barAt_eq_none_iff.mp found
          rw [if_neg]
          · rfl
          intro member
          obtain ⟨bar, inside, same⟩ := List.mem_map.mp member
          exact absent bar inside same
      | some first =>
          rw [if_pos (List.mem_map.mpr ⟨first, mem_of_barAt found, time_of_barAt found⟩)]

omit [PyText] in
theorem matches_iff_onePayload (equality : FloatEquality F) {existing : List (MarketBar F)}
    (there : Matches existing source) : OnePayload source := by
  intro left leftMember right rightMember same
  obtain ⟨current, found, first⟩ := there left leftMember
  obtain ⟨other, again, second⟩ := there right rightMember
  rw [← same, found] at again
  obtain rfl := Option.some.inj again
  exact sameCanonicalCandle_trans equality (sameCanonicalCandle_symm equality first) second

omit [PyText] in
/-- What settles agrees with every source bar of its time. -/
theorem settle_same (equality : FloatEquality F) (one : OnePayload source) {first bar : MarketBar F}
    {current : Option (MarketBar F)} (found : barAt source time = some first) (member : bar ∈ source)
    (own : bar.time = time) : sameCanonicalCandle (settle current first) bar = true := by
  have same := one first (mem_of_barAt found) bar member ((time_of_barAt found).trans own.symm)
  unfold settle
  cases current with
  | none => exact same
  | some current =>
      dsimp only
      split
      · rename_i stored
        exact sameCanonicalCandle_trans equality stored same
      · exact same

omit [PyText] [PyFloat F] in
theorem exists_first {last : MarketBar F} (found : barAt source.reverse time = some last) :
    ∃ first, barAt source time = some first := by
  have occurs : (barAt source time).isSome = true := by
    rw [barAt_isSome_iff]
    exact List.mem_map.mpr ⟨last, List.mem_reverse.mp (mem_of_barAt found), time_of_barAt found⟩
  exact Option.isSome_iff_exists.mp occurs

omit [PyText] [PyFloat F] in
theorem barAt_reverse_eq_none_iff : barAt source.reverse time = none ↔ barAt source time = none := by
  simp only [barAt_eq_none_iff, List.mem_reverse]

/-- A repair returns when the rows that it has to write can be digested. -/
theorem repairSeries_returns (equality : FloatEquality F)
    (accepted : canonicalTimeframe key.timeframe = .ok timeframe)
    (formed : ∀ bar ∈ source, bar.WellFormed) (one : OnePayload source)
    (writable : Writable (storedBars stored) source) :
    ∃ log after, repairSeries format stored source key policy = .ok (log, after) := by
  have known (bar : MarketBar F) (member : bar ∈ storedBars stored) :
      bar.WellFormed ∧ ∃ row, updateChecksum .v4 bar = .ok row := by
    cases stored with
    | none => cases member
    | some series => exact ⟨series.formed bar member, series.digested bar member⟩
  have valid (bar : MarketBar F) (member : bar ∈ (repairedBars (storedBars stored) source policy).1) :
      bar.WellFormed ∧ ∃ row, updateChecksum .v4 bar = .ok row := by
    have found : barAt (repairedBars (storedBars stored) source policy).1 bar.time = some bar :=
      (Keyed.find_eq_some_iff repairedBars_distinct).mpr ⟨member, rfl⟩
    rw [barAt_repairedBars equality one] at found
    cases first : barAt source bar.time with
    | none =>
        rw [first] at found
        dsimp only at found
        split at found
        · cases found
        · exact known bar (mem_of_barAt found)
    | some src =>
        rw [first] at found
        have same : settle (barAt (storedBars stored) bar.time) src = bar := Option.some.inj found
        have fresh (absent : ¬ ∃ current, barAt (storedBars stored) bar.time = some current ∧
            sameCanonicalCandle current src = true) (own : src = bar) :
            bar.WellFormed ∧ ∃ row, updateChecksum .v4 bar = .ok row := by
          rw [← own]
          exact ⟨formed src (mem_of_barAt first), (writable _ src first).resolve_left absent⟩
        unfold settle at same
        cases old : barAt (storedBars stored) bar.time with
        | none =>
            rw [old] at same fresh
            exact fresh (by rintro ⟨_, ⟨⟩, -⟩) same
        | some current =>
            rw [old] at same fresh
            dsimp only at same
            split at same
            · rw [← same]
              exact known current (mem_of_barAt old)
            · rename_i different
              exact fresh (by rintro ⟨_, ⟨⟩, equal⟩; exact different equal) same
  obtain ⟨normal, named⟩ : ∃ normal, normalizedKey key = .ok normal := by
    rw [normalizedKey, accepted, ok_bind]
    exact ⟨_, rfl⟩
  obtain ⟨series, replaced, -⟩ := @replaceSeries_of_distinct _ F _ format _ _ _
    (@repairedBars_distinct _ F _ stored source policy)
    (fun bar member => (valid bar member).1) (fun bar member => (valid bar member).2) named
  obtain ⟨log, reported⟩ := @repairLog_ok _ key policy timeframe
    (auditAgainstSource (storedBars stored) source (policy = .strict))
    (repairedBars (storedBars stored) source policy).2 accepted
  by_cases changed : (repairedBars (storedBars stored) source policy).2 ≠ 0
  · exact ⟨log, some series, repairSeries_ok_iff.mpr
      ⟨by rw [if_pos changed]; exact ⟨series, replaced, rfl⟩, reported⟩⟩
  · exact ⟨log, stored, repairSeries_ok_iff.mpr ⟨by rw [if_neg changed], reported⟩⟩

/-- A repair converges when the bar that settles each time agrees with the last source bar. -/
theorem repairConverges_iff (equality : FloatEquality F)
    (accepted : canonicalTimeframe key.timeframe = .ok timeframe)
    (formed : ∀ bar ∈ source, bar.WellFormed) {agrees : MarketBar F → MarketBar F → Prop} :
    RepairConverges agrees format stored source key policy ↔
      OnePayload source ∧ Writable (storedBars stored) source ∧ ∀ time first last,
        barAt source time = some first → barAt source.reverse time = some last →
          agrees (settle (barAt (storedBars stored) time) first) last := by
  constructor
  · rintro ⟨log, after, returned, converged⟩
    have one : OnePayload source := by
      obtain ⟨again, second, unchanged, -⟩ := converged.settled
      obtain ⟨-, reported⟩ := repairSeries_ok_iff.mp second
      rw [(repairLog_fields reported).1] at unchanged
      exact matches_iff_onePayload equality (repairedBars_unchanged_iff.mp unchanged).1
    have holds (time : Int) (first : MarketBar F) (found : barAt source time = some first) :
        barAt (storedBars after) time = some (settle (barAt (storedBars stored) time) first) := by
      rw [barAt_repaired returned, barAt_repairedBars equality one, found]
    refine ⟨one, ?_, ?_⟩
    · intro time first found
      by_cases there : ∃ current, barAt (storedBars stored) time = some current ∧
          sameCanonicalCandle current first = true
      · exact .inl there
      · right
        have own : settle (barAt (storedBars stored) time) first = first := by
          cases old : barAt (storedBars stored) time with
          | none => rfl
          | some current =>
              apply if_neg
              exact fun same => there ⟨current, old, same⟩
        have stays := holds time first found
        rw [own] at stays
        cases after with
        | none => cases stays
        | some series => exact series.digested first (mem_of_barAt stays)
    · intro time first last found ends
      obtain ⟨bar, stays, agreed⟩ := converged.sourced time last ends
      rw [holds time first found] at stays
      rw [Option.some.inj stays]
      exact agreed
  · rintro ⟨one, writable, agreed⟩
    obtain ⟨log, after, returned⟩ :=
      @repairSeries_returns _ F _ format _ _ _ policy _ equality accepted formed one writable
    have holds (time : Int) : barAt (storedBars after) time = _ :=
      (barAt_repaired returned time).trans (barAt_repairedBars equality one time)
    have there : Matches (storedBars after) source := by
      intro src member
      obtain ⟨first, found⟩ : ∃ first, barAt source src.time = some first := by
        apply Option.isSome_iff_exists.mp
        rw [barAt_isSome_iff]
        exact List.mem_map_of_mem member
      refine ⟨_, (holds src.time).trans (by rw [found]), ?_⟩
      exact settle_same equality one found member rfl
    have extras : policy = .strict → extraBars (storedBars after) source = [] := by
      intro strict
      rw [extraBars_eq_nil_iff]
      intro bar member
      by_contra absent
      have unknown : barAt source bar.time = none := by
        rw [barAt_eq_none_iff]
        intro src inside same
        exact absent (List.mem_map.mpr ⟨src, inside, same⟩)
      have gone := holds bar.time
      rw [unknown] at gone
      dsimp only at gone
      rw [if_pos strict, barAt_eq_none_iff] at gone
      exact gone bar member rfl
    have unchanged := repairedBars_unchanged_iff.mpr ⟨there, extras⟩
    refine ⟨log, after, returned, ?_, ?_, ?_, ?_⟩
    · intro time last ends
      obtain ⟨first, found⟩ := exists_first ends
      exact ⟨_, (holds time).trans (by rw [found]), agreed time first last found ends⟩
    · intro time absent
      rw [holds, barAt_reverse_eq_none_iff.mp absent]
    · rw [audit_ok_iff]
      refine ⟨there, ?_⟩
      intro strict
      exact extras (of_decide_eq_true strict)
    · obtain ⟨again, reported⟩ := @repairLog_ok _ key policy timeframe
        (auditAgainstSource (storedBars after) source (policy = .strict)) 0 accepted
      obtain ⟨counted, applied⟩ := repairLog_fields reported
      refine ⟨again, repairSeries_ok_iff.mpr ⟨?_, ?_⟩, counted, applied⟩
      · rw [if_neg (not_not.mpr unchanged)]
      · rw [unchanged]
        exact reported

/-- A source that could be loaded has a timeframe. -/
theorem accepted_of_loaded {finality : String → Bool} {suffix transport : String} {rows : List CsvRow}
    (loaded : loadRepairSource finality suffix rows key transport = .ok source) (given : source ≠ []) :
    ∃ timeframe, canonicalTimeframe key.timeframe = .ok timeframe := by
  rw [loadRepairSource] at loaded
  split at loaded
  · cases loaded
  · obtain ⟨bars, mapped, sorted⟩ := bind_eq_ok.mp loaded
    obtain ⟨bar, member⟩ := List.exists_mem_of_ne_nil _ given
    rw [← Except.ok.inj sorted, List.mem_insertionSort] at member
    obtain ⟨row, -, made⟩ := of_mem_mapM mapped bar member
    obtain ⟨parsed, -, converted⟩ := bind_eq_ok.mp made
    rw [marketBarFromBar] at converted
    split_ifs at converted
    obtain ⟨timeframe, accepted, -⟩ := bind_eq_ok.mp converted
    exact ⟨timeframe, accepted⟩

/-- The canonical payload converges when the source bars of each time have one payload, and can be digested. -/
theorem repairConverges_payload_iff (equality : FloatEquality F)
    (accepted : canonicalTimeframe key.timeframe = .ok timeframe) (formed : ∀ bar ∈ source, bar.WellFormed) :
    RepairConverges (fun bar last => sameCanonicalCandle bar last = true) format stored source key policy ↔
      OnePayload source ∧ Writable (storedBars stored) source := by
  rw [repairConverges_iff equality accepted formed]
  apply and_congr_right
  intro one
  apply and_iff_left_of_imp
  intro _ time first last found ends
  exact settle_same equality one found (List.mem_reverse.mp (mem_of_barAt ends)) (time_of_barAt ends)

/-- The bars themselves converge when the one that has the payload first is the last one. -/
theorem repairConverges_bar_iff (equality : FloatEquality F)
    (accepted : canonicalTimeframe key.timeframe = .ok timeframe) (formed : ∀ bar ∈ source, bar.WellFormed) :
    RepairConverges (fun bar last => bar = last) format stored source key policy ↔
      OnePayload source ∧ Writable (storedBars stored) source ∧ KeepsLast (storedBars stored) source := by
  rw [repairConverges_iff equality accepted formed]
  apply and_congr_right
  intro _
  apply and_congr_right
  intro _
  apply forall_congr'
  intro time
  apply forall₄_congr
  intro first last found ends
  unfold settle
  cases barAt (storedBars stored) time with
  | none => exact Iff.rfl
  | some current =>
      dsimp only
      split
      · exact Iff.rfl
      · exact Iff.rfl

end Converge

end MarketdataProvider

namespace MarketdataProvider

open Foundation Reference
open scoped Reference

namespace Reference

/-- A row of a repair source for the first minute. -/
def repairCsvRow (close state revision : String) : CsvRow :=
  [("time", some "0"), ("open", some "1"), ("high", some "2"), ("low", some "1"), ("close", some close),
    ("volume", some "1"), ("time_close", some "59999"), ("finality", some "FINAL"),
    ("provider", some "binance"), ("provider_revision", some "r"), ("revision_state", some state),
    ("revision", some revision)]

def btcusdtMinutes : SeriesKey := ⟨"binance", "spot", "BTCUSDT", "1m", "trade_kline"⟩

/-- The bar of such a row. -/
def repairCandle (close : Int) (closeText : String) (revision : Int) (state : RevisionState)
    (lineage : state.Admits revision) : MarketBar Whole :=
  { candle 0 with
    high := ⟨2⟩
    close := ⟨close⟩
    openText := some "1"
    highText := some "2"
    lowText := some "1"
    closeText := some closeText
    volumeText := some "1"
    revision
    revisionState := state
    lineage }

def firstRevision : MarketBar Whole := repairCandle 1 "1" 0 .original rfl

def secondRevision : MarketBar Whole := repairCandle 2 "2" 1 .corrected (by decide)

theorem loaded_first : loadRepairSource (F := Whole) (fun text => text = "OPEN") ".csv"
    [repairCsvRow "1" "ORIGINAL" "0"] btcusdtMinutes "rest" = .ok [firstRevision] :=
  eq_ok_of_toOption (by decide +kernel)

theorem loaded_revisions : loadRepairSource (F := Whole) (fun text => text = "OPEN") ".csv"
    [repairCsvRow "2" "CORRECTED" "1", repairCsvRow "1" "ORIGINAL" "0"] btcusdtMinutes "rest" =
      .ok [firstRevision, secondRevision] :=
  eq_ok_of_toOption (by decide +kernel)

theorem revision_formed {close : Int} {closeText : String} {revision : Int} {state : RevisionState}
    {lineage : state.Admits revision} (between : close = 1 ∨ close = 2) :
    (repairCandle close closeText revision state lineage).WellFormed := by
  refine ⟨?_, ?_, ?_⟩
  · rcases between with rfl | rfl <;> rfl
  · rcases between with rfl | rfl <;> rfl
  · rintro _ ⟨⟩
    change (0 : Int) ≤ 0 + 59999
    decide

end Reference

end MarketdataProvider
