import MarketdataProvider.Service.CandleAdapter
import MarketdataProvider.Service.OneCall

namespace MarketdataProvider

open Foundation Foundation.Crash

section Bars

variable {F : Type} [PyFloat F] {first second third before middle after bars : List (MarketBar F)}

/-- A bar of the payload of another one. -/
def SamePayload (old new : MarketBar F) : Prop := old = new ∨ sameCanonicalCandle old new = true

theorem SamePayload.trans (equality : FloatEquality F) {old middle new : MarketBar F}
    (left : SamePayload old middle) (right : SamePayload middle new) : SamePayload old new := by
  rcases left with rfl | left
  · exact right
  · rcases right with rfl | right
    · exact .inr left
    · exact .inr (sameCanonicalCandle_trans equality left right)

/-- Every bar is still there with its payload. -/
def KeepsBars (before after : List (MarketBar F)) : Prop :=
  ∀ time old, barAt before time = some old →
    ∃ new, barAt after time = some new ∧ SamePayload old new

theorem KeepsBars.refl (bars : List (MarketBar F)) : KeepsBars bars bars :=
  fun _ old found => ⟨old, found, .inl rfl⟩

theorem KeepsBars.trans (equality : FloatEquality F) (left : KeepsBars before middle)
    (right : KeepsBars middle after) : KeepsBars before after := by
  intro time old found
  obtain ⟨between, stays, same⟩ := left time old found
  obtain ⟨new, kept, again⟩ := right time between stays
  exact ⟨new, kept, same.trans equality again⟩

theorem KeepsBars.of_or {other : Int → Option (MarketBar F)}
    (lookup : ∀ time, barAt after time = (barAt before time).or (other time)) : KeepsBars before after := by
  intro time old found
  refine ⟨old, ?_, .inl rfl⟩
  rw [lookup, found, Option.some_or]

/-- The bars offered for stored times have the payload of the stored bars. -/
def AgreesStored (stored bars : List (MarketBar F)) : Prop :=
  ∀ bar ∈ bars, ∀ current, barAt stored bar.time = some current → sameCanonicalCandle current bar = true

theorem KeepsBars.of_empty (empty : before = []) : KeepsBars before after := by
  intro time old found
  rw [empty] at found
  cases found

theorem AgreesStored.of_empty (empty : before = []) : AgreesStored before bars := by
  intro bar _ current found
  rw [empty] at found
  cases found

theorem KeepsBars.of_replaced {incoming : Int → Option (MarketBar F)}
    (lookup : ∀ time, barAt after time = (incoming time).or (barAt before time))
    (agrees : ∀ time new old, incoming time = some new → barAt before time = some old →
      sameCanonicalCandle old new = true) : KeepsBars before after := by
  intro time old found
  cases offered : incoming time with
  | none => exact ⟨old, by rw [lookup, offered, Option.none_or, found], .inl rfl⟩
  | some new =>
      refine ⟨new, by rw [lookup, offered, Option.some_or], .inr ?_⟩
      exact agrees time new old offered found

end Bars

section Writes

variable [PyText] {F : Type} [PyFloat F] {stored : Option (ClosedSeries F)} {after : ClosedSeries F}
  {bars : List (MarketBar F)} {key : SeriesKey} {bar : MarketBar F}

/-- A dropped bar of a batch repeats an accepted one. -/
theorem accepted_of_mem {expected : SeriesKey} {last : Option (MarketBar F)} {accepted : List (MarketBar F)}
    (returned : acceptAppendBars expected last bars = .ok accepted) (member : bar ∈ bars) :
    ∃ kept ∈ last.toList ++ accepted, bar.time = kept.time ∧
      (bar = kept ∨ sameCanonicalCandle bar kept = true) := by
  induction bars generalizing last accepted with
  | nil => cases member
  | cons head rest ih =>
      simp only [acceptAppendBars, bind_eq_ok] at returned
      obtain ⟨_, _, actual, _, returned⟩ := returned
      split at returned
      · cases returned
      · simp only [bind_eq_ok] at returned
        obtain ⟨⟨⟩, -, returned⟩ := returned
        have grown {tail : List (MarketBar F)}
            (later : acceptAppendBars expected (some head) rest = .ok tail) :
            ∃ kept ∈ last.toList ++ head :: tail, bar.time = kept.time ∧
              (bar = kept ∨ sameCanonicalCandle bar kept = true) := by
          rcases List.mem_cons.mp member with rfl | inRest
          · exact ⟨bar, by simp, rfl, .inl rfl⟩
          · obtain ⟨kept, inside, same⟩ := ih later inRest
            exact ⟨kept, by simpa using Or.inr (by simpa using inside), same⟩
        split at returned
        · obtain ⟨tail, later, rfl⟩ := map_eq_ok.mp returned
          exact grown later
        · rename_i previous
          split at returned
          · cases returned
          · split at returned
            · rename_i sameTime
              split at returned
              · rename_i same
                rcases List.mem_cons.mp member with rfl | inRest
                · exact ⟨previous, by simp, sameTime, .inr same⟩
                · exact ih returned inRest
              · cases returned
            · obtain ⟨tail, later, rfl⟩ := map_eq_ok.mp returned
              exact grown later

/-- An append that returns adds bars behind the stored ones, and what it was offered agrees with them. -/
theorem appendSeries_keeps (equality : FloatEquality F)
    (returned : appendSeries stored bars key = .ok after) :
    KeepsBars (storedBars stored) after.bars ∧ AgreesStored (storedBars stored) bars := by
  unfold appendSeries at returned
  split at returned
  · cases returned
  · rename_i incoming accepted
    cases stored with
    | none => exact ⟨KeepsBars.of_empty rfl, AgreesStored.of_empty rfl⟩
    | some series =>
        obtain ⟨-, -, grown, newer⟩ := appendIncoming_ok returned
        obtain ⟨expected, -, batch⟩ := bind_eq_ok.mp accepted
        refine ⟨.of_or fun time => by rw [grown]; exact barAt_append _ _, ?_⟩
        intro bar member current found
        obtain ⟨kept, inside, sameTime, same⟩ := accepted_of_mem batch member
        obtain ⟨last, ends, later⟩ := newer kept (by simpa using inside)
        have early := time_le_getLast series.sorted ends (mem_of_barAt found)
        have own := time_of_barAt found
        rcases later with later | ⟨tail, equal⟩
        · omega
        · obtain rfl : last = current := Option.some.inj (((barAt_eq_some_iff series.sorted).mpr
            ⟨List.mem_of_getLast? ends, by omega⟩).symm.trans found)
          apply sameCanonicalCandle_symm equality
          rcases same with rfl | same
          · exact equal
          · exact sameCanonicalCandle_trans equality same equal

/-- A merge keeps the payloads that the merged bars agree with. -/
theorem mergeSeries_keeps (agrees : AgreesStored (storedBars stored) bars)
    (returned : mergeSeries stored bars key = .ok after) : KeepsBars (storedBars stored) after.bars := by
  have lookup (time : Int) : barAt after.bars time =
      (barAt bars.reverse time).or (barAt (storedBars stored) time) := by
    rw [(mergeSeries_ok returned).2]
    exact barAt_mergeByTime (distinct_storedBars stored)
  apply KeepsBars.of_replaced lookup
  intro time new old offered found
  obtain rfl := time_of_barAt offered
  exact agrees new (List.mem_reverse.mp (mem_of_barAt offered)) old found

omit [PyText] in
theorem addMissing_ok (equality : FloatEquality F) {existing incoming result : List (MarketBar F)}
    (returned : addMissing existing incoming = .ok result) : TakesIn existing incoming result := by
  by_cases agrees : Agrees existing incoming
  · obtain ⟨kept, made, taken⟩ := (addMissing_spec equality).1 agrees
    obtain rfl := Except.ok.inj (made.symm.trans returned)
    exact taken
  · obtain ⟨error, refused⟩ := (addMissing_spec equality).2 agrees
    cases returned.symm.trans refused

theorem bulkWriteSeries_keeps (equality : FloatEquality F) {first : MarketBar F}
    {rest : List (MarketBar F)} {count : Nat}
    (returned : bulkWriteSeries stored first rest = .ok (count, after)) :
    KeepsBars (storedBars stored) after.bars ∧ AgreesStored (storedBars stored) (first :: rest) := by
  have agrees : Agrees (storedBars stored) (first :: rest) := by
    by_contra disagrees
    obtain ⟨error, refused⟩ := bulkWriteSeries_conflict equality disagrees
    cases returned.symm.trans refused
  refine ⟨?_, agrees.stored⟩
  obtain ⟨incoming, -, written⟩ := bind_eq_ok.mp returned
  cases held : stored.bind fun series => series.endTime.map fun endTime => (series, endTime) with
  | none => exact .of_empty (storedBars_of_noEnd held)
  | some pair =>
      obtain ⟨series, rfl, endTime, ends, rfl⟩ : ∃ series, stored = some series ∧
          ∃ endTime, series.endTime = some endTime ∧ (series, endTime) = pair := by
        simpa [Option.bind_eq_some_iff] using held
      rw [held] at written
      obtain ⟨missing, -, written⟩ := bind_eq_ok.mp written
      cases missing with
      | true =>
          obtain ⟨merged, added, written⟩ := bind_eq_ok.mp written
          obtain ⟨_, replaced, counted⟩ := map_eq_ok.mp written
          obtain ⟨-, rfl⟩ := Prod.mk.inj counted
          apply KeepsBars.of_or
          intro time
          rw [(replaceSeries_ok replaced).2, barAt_sortByTime]
          exact (addMissing_ok equality added).lookup time
      | false =>
          rw [if_neg Bool.false_ne_true] at written
          split at written
          · cases written
            exact .refl _
          · obtain ⟨_, appended, counted⟩ := map_eq_ok.mp written
            obtain ⟨-, rfl⟩ := Prod.mk.inj counted
            exact (appendSeries_keeps equality appended).1

variable [Sha256]

theorem upsertSeries_keeps (agrees : AgreesStored (storedBars stored) [bar])
    (returned : upsertSeries stored bar = .ok after) : KeepsBars (storedBars stored) after.bars := by
  have lookup (time : Int) : barAt after.bars time =
      (if time = bar.time then some bar else none).or (barAt (storedBars stored) time) := by
    rw [barAt_upsertSeries returned]
    split <;> simp
  apply KeepsBars.of_replaced lookup
  intro time new old offered found
  split at offered
  · rename_i own
    obtain rfl := Option.some.inj offered
    exact agrees bar List.mem_cons_self old (own ▸ found)
  · cases offered

theorem commitSeries_keeps {status : CommitStatus} (returned : commitSeries stored bar = .ok (status, after)) :
    KeepsBars (storedBars stored) after.bars := .of_or (barAt_commitSeries returned)

/-- A closed bar of a stored time has the checksum of the stored bar. -/
def SameRow (stored : List (MarketBar F)) (bar : MarketBar F) : Prop :=
  ∀ current, barAt stored bar.time = some current →
    ∃ checksum, marketBarChecksum current = .ok checksum ∧ marketBarChecksum bar = .ok checksum

theorem compareClosed_ok {existing : MarketBar F} {status : CommitStatus}
    (returned : compareClosed existing bar = .ok status) :
    ∃ checksum, marketBarChecksum existing = .ok checksum ∧ marketBarChecksum bar = .ok checksum := by
  obtain ⟨old, stored, returned⟩ := bind_eq_ok.mp returned
  obtain ⟨new, incoming, returned⟩ := bind_eq_ok.mp returned
  split at returned
  · rename_i same
    exact ⟨old, stored, same ▸ incoming⟩
  · cases returned

/-- A commit that returns was offered the stored row again, or a bar of a free time. -/
theorem commitSeries_sameRow {status : CommitStatus} (returned : commitSeries stored bar = .ok (status, after)) :
    SameRow (storedBars stored) bar := by
  intro current found
  cases stored with
  | none => cases found
  | some series =>
      unfold commitSeries at returned
      dsimp only at returned
      split at returned
      · rename_i past
        cases ends : series.endTime with
        | none =>
            rw [ends] at past
            cases past.2
        | some endTime =>
            rw [ends, Option.any_some, decide_eq_true_eq] at past
            have early := time_le_endTime ends (mem_of_barAt found)
            have own := time_of_barAt found
            omega
      · rw [show series.find bar.time = some current from found] at returned
        obtain ⟨_, compared, -⟩ := map_eq_ok.mp returned
        exact compareClosed_ok compared

end Writes

section Steps

variable [PyText] {F : Type} [PyFloat F]

/-- Every candle that one of the series holds stays with its payload. -/
def World.Keeps (before after : World F) : Prop :=
  ∀ directory, KeepsBars (storedBars (before.series directory)) (storedBars (after.series directory))

theorem World.Keeps.refl (world : World F) : world.Keeps world := fun _ => .refl _

/-- The bars agree with what their series holds. -/
def World.Agrees (world : World F) (key : SeriesKey) (bars : List (MarketBar F)) : Prop :=
  ∀ stored, world.seriesOf key = .ok stored → AgreesStored (storedBars stored) bars

/-- A merge writes bars at stored times only when they have the stored payloads.
No call of the service or of the candle store upserts a closed bar outside of `commit_closed`. -/
def Harmless : StoreCall F → World F → Prop
  | .mergeClosed key bars, world => world.Agrees key bars
  | .upsertClosed bar, world => world.Agrees bar.key [bar]
  | _, _ => True

/-- What a call offers to a series agrees with what is stored: `commit_closed` compares the whole row. -/
def StoreCall.Agrees [Sha256] : StoreCall F → World F → Prop
  | .appendStrictlyNewer key bars, world => world.Agrees key bars
  | .mergeClosed key bars, world => world.Agrees key bars
  | .bulkWriteClosed first rest, world => world.Agrees first.key (first :: rest)
  | .upsertClosed bar, world => world.Agrees bar.key [bar]
  | .commitClosed bar, world => ∀ stored, world.seriesOf bar.key = .ok stored → SameRow (storedBars stored) bar
  | _, _ => True

variable {environment : Environment F} {world after : World F} {key : SeriesKey}

theorem keeps_writes {Value : Type} {change : Option (ClosedSeries F) → Except PyError (Value × ClosedSeries F)}
    (kept : ∀ stored value series, world.seriesOf key = .ok stored → change stored = .ok (value, series) →
      KeepsBars (storedBars stored) series.bars) : world.Keeps (writes world key change).2 := by
  unfold writes
  split
  · exact .refl world
  · rename_i directory placed
    split
    · exact .refl world
    · rename_i value series changed
      intro other
      by_cases same : other = directory
      · subst same
        rw [World.series_setSeries_self]
        exact kept _ value series (World.seriesOf_eq_ok_iff.mpr ⟨other, placed, rfl⟩) changed
      · rw [World.series_setSeries_of_ne world series same]
        exact .refl _

theorem ok_of_writes {Value : Type} {change : Option (ClosedSeries F) → Except PyError (Value × ClosedSeries F)}
    {value : Value} (returned : writes world key change = (.ok value, after)) :
    ∃ stored series, world.seriesOf key = .ok stored ∧ change stored = .ok (value, series) := by
  unfold writes at returned
  split at returned
  · cases returned
  · rename_i directory placed
    split at returned
    · cases returned
    · rename_i series changed
      cases returned
      exact ⟨_, series, World.seriesOf_eq_ok_iff.mpr ⟨directory, placed, rfl⟩, changed⟩

theorem keeps_changesRows (rows : Except PyError (List (CurrentRow F))) :
    world.Keeps (changesRows world rows).2 := by
  cases rows with
  | error error => exact .refl world
  | ok rows => exact fun _ => .refl _

variable [Sha256]

/-- No call takes a stored candle away, when a merge agrees with the stored payloads. -/
theorem keeps_handle (equality : FloatEquality F) (op : StoreCall F) (harmless : Harmless op world) :
    world.Keeps (handle environment op world).2 := by
  cases op with
  | readAll key start stop => exact .refl world
  | manifestFor key => exact .refl world
  | appendStrictlyNewer key bars =>
      apply keeps_writes
      intro stored value series _ changed
      obtain ⟨_, appended, pair⟩ := map_eq_ok.mp changed
      obtain ⟨-, rfl⟩ := Prod.mk.inj pair
      exact (appendSeries_keeps equality appended).1
  | mergeClosed key bars =>
      apply keeps_writes
      intro stored value series located changed
      obtain ⟨_, merged, pair⟩ := map_eq_ok.mp changed
      obtain ⟨-, rfl⟩ := Prod.mk.inj pair
      exact mergeSeries_keeps (harmless stored located) merged
  | commitClosed bar =>
      apply keeps_writes
      intro stored value series _ changed
      exact commitSeries_keeps changed
  | upsertClosed bar =>
      apply keeps_writes
      intro stored value series located changed
      obtain ⟨_, upserted, pair⟩ := map_eq_ok.mp changed
      obtain ⟨-, rfl⟩ := Prod.mk.inj pair
      exact upsertSeries_keeps (harmless stored located) upserted
  | bulkWriteClosed first rest =>
      apply keeps_writes
      intro stored value series _ changed
      exact (bulkWriteSeries_keeps equality changed).1
  | upsertCurrent bar => exact keeps_changesRows _
  | deleteCurrent bar => exact keeps_changesRows _
  | getCurrent key => exact .refl world
  | fetch query => exact fun _ => .refl _

/-- What is offered and disagrees with a stored candle makes an append, a bulk write and a commit fail. -/
theorem agrees_of_handle (equality : FloatEquality F) {op : StoreCall F} (harmless : Harmless op world)
    {reply : op.Reply} (returned : (handle environment op world).1 = .ok reply) : op.Agrees world := by
  cases op with
  | appendStrictlyNewer key bars =>
      intro stored located
      obtain ⟨current, series, found, changed⟩ := ok_of_writes (Prod.ext returned rfl)
      obtain rfl := Except.ok.inj (found.symm.trans located)
      obtain ⟨_, appended, -⟩ := map_eq_ok.mp changed
      exact (appendSeries_keeps equality appended).2
  | mergeClosed key bars => exact harmless
  | commitClosed bar =>
      intro stored located
      obtain ⟨current, series, found, changed⟩ := ok_of_writes (Prod.ext returned rfl)
      obtain rfl := Except.ok.inj (found.symm.trans located)
      exact commitSeries_sameRow changed
  | upsertClosed bar => exact harmless
  | bulkWriteClosed first rest =>
      intro stored located
      obtain ⟨current, series, found, changed⟩ := ok_of_writes (Prod.ext returned rfl)
      obtain rfl := Except.ok.inj (found.symm.trans located)
      exact (bulkWriteSeries_keeps equality changed).2
  | readAll key start stop => exact trivial
  | manifestFor key => exact trivial
  | upsertCurrent bar => exact trivial
  | deleteCurrent bar => exact trivial
  | getCurrent key => exact trivial
  | fetch query => exact trivial

/-- Only a merge and an upsert could write over a stored candle. -/
theorem harmless_of_agrees {op : StoreCall F} (agrees : op.Agrees world) : Harmless op world := by
  cases op with
  | mergeClosed key bars => exact agrees
  | upsertClosed bar => exact agrees
  | _ => trivial

end Steps

section OnFiles

variable [PyText] {F : Type} [PyFloat F] {before after middle : List (MarketBar F)}

/-- What a read gives back of kept bars is kept, since the old bars were read themselves. -/
theorem KeepsBars.normalForm (keeps : KeepsBars before after) (normal : ∀ bar ∈ before, bar.Normal) :
    KeepsBars before (after.map MarketBar.normalForm) := by
  intro time old found
  obtain ⟨new, kept, same⟩ := keeps time old found
  have own : old.normalForm = old := normal old (mem_of_barAt found)
  refine ⟨new.normalForm, by rw [barAt_map_normalForm, kept, Option.map_some], ?_⟩
  rcases same with rfl | same
  · exact .inl own.symm
  · have again := sameCanonicalCandle_normalForm same
    rw [own] at again
    exact .inr again

theorem storedBars_normalize (stored : Option (ClosedSeries F)) :
    storedBars (stored.map ClosedSeries.normalize) = (storedBars stored).map MarketBar.normalForm := by
  cases stored <;> rfl

variable [Sha256] [Parquet] {store : SegmentStore} {owner : List String → SeriesKey} {pending : Nat → Bool}
  {environment : Environment F} {disk last : FileWorld F} {world next : World F}

/-- Every candle that a series directory holds can be read after the step, with its payload. -/
def FileWorld.Keeps (store : SegmentStore) (before after : FileWorld F) : Prop :=
  ∀ key directory bars, seriesDirectory key = .ok directory →
    ((readAllLocked F store).run (before.files directory)).1 = .ok bars →
      ∃ kept, ((readAllLocked F store).run (after.files directory)).1 = .ok kept ∧ KeepsBars bars kept

/-- Every candle of a placed series stays. -/
def KeepsPlaced (world next : World F) : Prop :=
  ∀ key directory, seriesDirectory key = .ok directory →
    KeepsBars (storedBars (world.series directory)) (storedBars (next.series directory))

theorem Models.readAll (models : Models store owner disk world) {key : SeriesKey} {directory : List String}
    (placed : seriesDirectory key = .ok directory) :
    ((readAllLocked F store).run (disk.files directory)).1 = .ok (storedBars (world.series directory)) := by
  obtain ⟨_, ran, -⟩ := (models.series key directory placed).readAllLocked
  exact congrArg Prod.fst ran

theorem Models.keeps (models : Models store owner disk world) (later : Models store owner last next)
    (keeps : KeepsPlaced world next) : disk.Keeps store last := by
  intro key directory bars placed read
  obtain rfl := Except.ok.inj ((models.readAll placed).symm.trans read)
  exact ⟨_, later.readAll placed, keeps key directory placed⟩

/-- A writer finds what is stored; what a read finds is of no account here. -/
def StoreCall.WritesFit (owner : List String → SeriesKey) (pending : Nat → Bool) (disk : FileWorld F)
    (world : World F) (op : StoreCall F) : Prop :=
  (∀ key start stop, op ≠ .readAll key start stop) → op.Fits owner pending disk world

/-- A read leaves what the files hold, whatever it finds. -/
theorem Models.readRange (models : Models store owner disk world) (key : SeriesKey) (start stop : Option Int) :
    Models store owner (onFiles disk key (readRange F pending store start stop)).2 world := by
  unfold onFiles
  cases placed : seriesDirectory key with
  | error error => exact models
  | ok directory =>
      refine models.onlyRead placed ?_
      have held := models.series key directory placed
      rw [MarketdataProvider.readRange, Prog.run_bind_ok (held.recoverSeries .seriesLock)]
      exact (readRangeLocked_onlyRead pending store _ start stop).1 _ (Prog.final_mem_visits _ _)

/-- A step that merges only what agrees leaves files that hold every stored candle. -/
theorem Models.step (models : Models store owner disk world) (csv : store.dataFormat = .csv)
    (equality : FloatEquality F) (rounding : IntRounding F) {op : StoreCall F} (harmless : Harmless op world)
    (fits : op.WritesFit owner pending disk world) :
    ∃ next, Models store owner (handleFiles environment pending store op disk).2 next ∧ KeepsPlaced world next := by
  have stays : KeepsPlaced world world := fun _ _ _ => .refl _
  by_cases reads : ∃ key start stop, op = .readAll key start stop
  · obtain ⟨key, start, stop, rfl⟩ := reads
    exact ⟨world, models.readRange key start stop, stays⟩
  · have whole : op.Fits owner pending disk world := fits fun key start stop same => reads ⟨key, start, stop, same⟩
    obtain ⟨-, later⟩ := @Models.handle _ F _ _ _ store owner disk world environment pending models csv equality
      rounding op whole
    refine ⟨_, later, fun key directory placed => ?_⟩
    have kept := @keeps_handle _ F _ environment world _ equality op harmless directory
    have normal := (models.series key directory placed).normalBars
    change KeepsBars _ (storedBars (Option.map ClosedSeries.normalize _))
    rw [storedBars_normalize]
    exact kept.normalForm normal

/-- What an accepted call offered agrees with what the files hold. -/
theorem Models.agrees (models : Models store owner disk world) (csv : store.dataFormat = .csv)
    (equality : FloatEquality F) (rounding : IntRounding F) {op : StoreCall F} (harmless : Harmless op world)
    (fits : op.WritesFit owner pending disk world) {reply : op.Reply}
    (returned : (handleFiles environment pending store op disk).1 = .ok reply) : op.Agrees world := by
  by_cases reads : ∃ key start stop, op = .readAll key start stop
  · obtain ⟨key, start, stop, rfl⟩ := reads
    exact trivial
  · have whole : op.Fits owner pending disk world := fits fun key start stop same => reads ⟨key, start, stop, same⟩
    obtain ⟨same, -⟩ := @Models.handle _ F _ _ _ store owner disk world environment pending models csv equality
      rounding op whole
    exact agrees_of_handle equality harmless (same.symm.trans returned)

end OnFiles

section Safe

variable [PyText] {F : Type} [PyFloat F] [Sha256] [Parquet] (owner : List String → SeriesKey)
  (environment : Environment F) (pending : Nat → Bool) (store : SegmentStore)

/-- A step that merges only what agrees with the stored candles, and whose writers find what is stored. -/
def SafeStep (op : StoreCall F) (disk : FileWorld F) : Prop :=
  ∀ world, Models store owner disk world → Harmless op world ∧ op.WritesFit owner pending disk world

/-- A step of another call, made meanwhile. -/
def OtherStep (before after : FileWorld F) : Prop :=
  ∃ op, SafeStep owner pending store op before ∧ (handleFiles environment pending store op before).2 = after

/-- An offer that is taken agrees with what is stored. -/
def Respects (op : StoreCall F) (disk : FileWorld F) : Prop :=
  ∀ world, Models store owner disk world → ∀ reply after,
    handleFiles environment pending store op disk = (.ok reply, after) → op.Agrees world

variable {owner environment pending store}

/-- Files that still hold every candle that other files held. -/
def StillHolds (owner : List String → SeriesKey) (store : SegmentStore) (before after : FileWorld F) : Prop :=
  ∀ world, Models store owner before world → ∃ next, Models store owner after next ∧ KeepsPlaced world next

theorem StillHolds.refl (disk : FileWorld F) : StillHolds owner store disk disk :=
  fun world models => ⟨world, models, fun _ _ _ => .refl _⟩

theorem StillHolds.trans (equality : FloatEquality F) {before middle after : FileWorld F}
    (left : StillHolds owner store before middle) (right : StillHolds owner store middle after) :
    StillHolds owner store before after := by
  intro world models
  obtain ⟨next, held, kept⟩ := left world models
  obtain ⟨final, last, stays⟩ := right next held
  exact ⟨final, last, fun key directory placed =>
    (kept key directory placed).trans equality (stays key directory placed)⟩

theorem stillHolds_step (csv : store.dataFormat = .csv) (equality : FloatEquality F) (rounding : IntRounding F)
    {op : StoreCall F} {disk : FileWorld F} (safe : SafeStep owner pending store op disk) :
    StillHolds owner store disk (handleFiles environment pending store op disk).2 := by
  intro world models
  obtain ⟨harmless, fits⟩ := safe world models
  exact models.step csv equality rounding harmless fits

theorem stillHolds_interleaved (csv : store.dataFormat = .csv) (equality : FloatEquality F)
    (rounding : IntRounding F) {Value : Type} {program : Service F Value} {disk final : FileWorld F}
    {outcome : Except PyError Value}
    (ran : Calls.Interleaved (handleFiles environment pending store) (SafeStep owner pending store)
      (OtherStep owner environment pending store) program disk outcome final) :
    StillHolds owner store disk final := by
  apply ran.related .refl fun _ _ _ => .trans equality
  · intro op disk safe
    exact stillHolds_step csv equality rounding safe
  · rintro disk _ ⟨op, safe, rfl⟩
    exact stillHolds_step csv equality rounding safe

end Safe

section Runs

variable [PyText] {F : Type} [PyFloat F] [Sha256] [Parquet] (D : Type) [PyDecimal D] [AggregateHash] [PySum F]

/-- The calls that must leave finalized candles alone. -/
inductive FinalizedCall (F : Type) where
  | commitClosed (bar : MarketBar F)
  | upsertOpen (bar : MarketBar F)
  | appendStrictlyNewer (key : SeriesKey) (bars : List (MarketBar F))
  | bulkWriteClosed (first : MarketBar F) (rest : List (MarketBar F))
  | fetchBars (query : BarQuery)
  | precomputeBars (query : BarQuery)
  | materializeBars (query : BarQuery)

def FinalizedCall.program (config : HistoryConfig) : FinalizedCall F → Service F Unit
  | .commitClosed bar => do
      let _ ← commitClosedOrOpen bar
  | .upsertOpen bar => do
      let _ ← MarketdataProvider.upsertOpen bar
  | .appendStrictlyNewer key bars => Ask.appendStrictlyNewer key bars
  | .bulkWriteClosed first rest => do
      let _ ← Ask.bulkWriteClosed first rest
  | .fetchBars query => do
      let _ ← MarketdataProvider.fetchBars D config query
  | .precomputeBars query => do
      let _ ← MarketdataProvider.precomputeBars D config query
  | .materializeBars query => do
      let _ ← MarketdataProvider.materializeBars D config query

variable (owner : List String → SeriesKey) (environment : Environment F) (pending : Nat → Bool)
  (store : SegmentStore)

/-- A completed call, with steps of other calls in between. -/
abbrev CallRun (meets : StoreCall F → FileWorld F → Prop) (call : FinalizedCall F)
    (disk : FileWorld F) (outcome : Except PyError Unit) (final : FileWorld F) : Prop :=
  Calls.Interleaved (handleFiles environment pending store) meets (OtherStep owner environment pending store)
    (call.program D environment.config) disk outcome final

/-- Calls that are completed one after the other. -/
inductive CallRuns (disk : FileWorld F) : FileWorld F → Prop where
  | none : CallRuns disk disk
  | call {middle final : FileWorld F} {outcome : Except PyError Unit} (call : FinalizedCall F)
      (before : CallRuns disk middle)
      (ran : CallRun D owner environment pending store (SafeStep owner pending store) call middle outcome final) :
      CallRuns disk final

variable {D owner environment pending store}

theorem stillHolds_callRuns (csv : store.dataFormat = .csv) (equality : FloatEquality F)
    (rounding : IntRounding F) {disk final : FileWorld F}
    (runs : CallRuns D owner environment pending store disk final) : StillHolds owner store disk final := by
  induction runs with
  | none => exact .refl disk
  | call call _ ran ih => exact ih.trans equality (stillHolds_interleaved csv equality rounding ran)

/-- Finalized candles stay with their payloads in every run of safe steps.
Each call refuses what disagrees with a stored candle, and a merge without this condition breaks it. -/
theorem finalized_candles_stay (csv : store.dataFormat = .csv) (equality : FloatEquality F)
    (rounding : IntRounding F) :
    (∀ (disk final : FileWorld F) (world : World F), Models store owner disk world →
      CallRuns D owner environment pending store disk final → disk.Keeps store final) ∧
    (∀ (call : FinalizedCall F) (disk final : FileWorld F) (outcome : Except PyError Unit),
      CallRun D owner environment pending store (SafeStep owner pending store) call disk outcome final →
      CallRun D owner environment pending store (Respects owner environment pending store) call disk outcome
        final) ∧
    ∀ (op : StoreCall F) (disk after : FileWorld F) (world : World F) (reply : op.Reply),
      Models store owner disk world → op.WritesFit owner pending disk world →
      handleFiles environment pending store op disk = (.ok reply, after) →
        (Harmless op world ↔ disk.Keeps store after ∧ op.Agrees world) := by
  refine ⟨?_, ?_, ?_⟩
  · intro disk final world models runs
    obtain ⟨next, later, keeps⟩ := stillHolds_callRuns csv equality rounding runs world models
    exact models.keeps later keeps
  · intro call disk final outcome ran
    apply ran.mono
    intro op disk safe world models reply after returned
    obtain ⟨harmless, fits⟩ := safe world models
    exact models.agrees csv equality rounding harmless fits (congrArg Prod.fst returned)
  · intro op disk after world reply models fits returned
    constructor
    · intro harmless
      obtain ⟨next, later, keeps⟩ := @Models.step _ F _ _ _ store owner pending environment disk world models csv
        equality rounding op harmless fits
      rw [returned] at later
      exact ⟨models.keeps later keeps,
        models.agrees csv equality rounding harmless fits (congrArg Prod.fst returned)⟩
    · rintro ⟨-, agrees⟩
      exact harmless_of_agrees agrees

end Runs

open Reference

open scoped Reference

/-- An append of the next candle, as one call. -/
theorem finalized_candles_stay_append : ∃ owner disk final,
    Tracks ⟨.csv, true, false⟩ owner (fun _ _ => True) disk (oneSeries middleCandle) ∧
    (handleFiles offline (fun _ => false) ⟨.csv, true, false⟩ (.appendStrictlyNewer series [candle 120000]) disk) =
      (.ok (), final) ∧ disk.Keeps ⟨.csv, true, false⟩ final := by
  obtain ⟨owner, disk, tracks, owns⟩ := @minutes_tracks middleCandle (fun _ _ => True) rfl
    (List.forall_mem_singleton.mpr (mem_threeMinutes (.inr (.inl rfl)))) (fun _ _ => trivial)
  have faithful : (candle 120000).Faithful := fourMinutes_faithful _ (mem_threeMinutes (.inr (.inr rfl)))
  have safe : SafeStep owner (fun _ => false) ⟨.csv, true, false⟩ (.appendStrictlyNewer series [candle 120000]) disk := by
    intro world models
    refine ⟨trivial, fun _ directory placed => ⟨owns directory placed, ?_, fun _ => ?_⟩⟩
    · exact List.forall_mem_singleton.mpr faithful.lasting
    · exact (tracks.rows series directory placed).tailReads
  have returns : (handle offline (.appendStrictlyNewer series [candle 120000]) (oneSeries middleCandle)).1.toBool =
      true := by
    decide +kernel
  obtain ⟨reply, returned⟩ := eq_ok_of_toBool returns
  have same := (@Models.handle _ Whole _ _ _ ⟨.csv, true, false⟩ owner disk (oneSeries middleCandle) offline
    (fun _ => false) tracks.toModels rfl wholeEquality wholeRoundings (.appendStrictlyNewer series [candle 120000])
    ((safe _ tracks.toModels).2 fun _ _ _ other => nomatch other)).1
  have answered := same.trans returned
  refine ⟨owner, disk, _, tracks, Prod.ext answered rfl, ?_⟩
  have stays := (@finalized_candles_stay _ Whole _ _ _ Whole _ _ _ owner offline (fun _ => false)
    ⟨.csv, true, false⟩ rfl wholeEquality wholeRoundings).1
  exact stays _ _ _ tracks.toModels (.call (.appendStrictlyNewer series [candle 120000]) .none
    (.call safe (Prod.ext answered rfl) .done))

/-- The stored candle again, at another volume. -/
def correctedCandle : MarketBar Whole := { candle 60000 with volume := ⟨2⟩ }

theorem correctedRange_ordered : (0 : Int) < 120000 := by decide

def correctedRange : BarQuery := minuteQuery 0 120000 correctedRange_ordered

/-- A source that delivers a missing candle and corrects the stored one. -/
def correcting : Environment Whole :=
  ⟨⟨false, false, "1m", 0⟩, 0, fun _ => ⟨fun _ _ => .ok [], fun _ => .ok [candle 0, correctedCandle]⟩⟩

theorem correctedCandle_faithful : correctedCandle.Faithful := by
  have row : (validatePersistedBarSemantics correctedCandle).toOption = some () ∧
      (rowToBar (writtenRow correctedCandle)).toOption = some (correctedCandle.persisted "1m") ∧
      correctedCandle.Fits ∧ (correctedCandle.persisted "1m").Fits ∧ correctedCandle.Plain ∧
      rowSize correctedCandle < 1048576 ∧ correctedCandle.normalForm = correctedCandle := by
    unfold MarketBar.Fits
    decide +kernel
  obtain ⟨semantics, codec, fits, again, plain, short, normal⟩ := row
  exact ⟨minuteRow_lasting rfl semantics codec fits again, ⟨plain, short⟩, normal⟩

theorem correcting_delivers : Delivers correcting (OnQueryGrid correctedRange 60000) (AsksTail correctedRange 60000) := by
  rintro asked _ bars ⟨start, ordered, rfl, -⟩ answered directory - bar member
  change Except.ok [candle 0, correctedCandle] = Except.ok bars at answered
  obtain rfl := Except.ok.inj answered
  rcases List.mem_pair.mp member with rfl | rfl
  · exact ⟨fourMinutes_faithful _ List.mem_cons_self, fun _ => rfl⟩
  · exact ⟨correctedCandle_faithful, fun _ => rfl⟩

theorem gap_fill_replaces_candle : ∃ owner disk,
    Tracks ⟨.csv, true, false⟩ owner (OnQueryGrid correctedRange 60000) disk (oneSeries middleCandle) ∧
    ∃ series after, (fetchBars Whole correcting.config correctedRange).run
      (handleFiles correcting (fun _ => false) ⟨.csv, true, false⟩) disk = (.ok series, after) ∧
    ¬ disk.Keeps ⟨.csv, true, false⟩ after := by
  obtain ⟨owner, disk, tracks, owns⟩ := @minutes_tracks middleCandle (OnQueryGrid correctedRange 60000) rfl
    (List.forall_mem_singleton.mpr (mem_threeMinutes (.inr (.inl rfl))))
    (List.forall_mem_singleton.mpr fun _ => rfl)
  have returns : (((fetchBars Whole correcting.config correctedRange).run
      (handle correcting) (oneSeries middleCandle)).1).toBool = true := by
    decide +kernel
  have replaced : (((fetchBars Whole correcting.config correctedRange).run
      (handle correcting) (oneSeries middleCandle)).2.series minuteDirectory).map
        (fun series => series.bars) = some [candle 0, correctedCandle] := by
    decide +kernel
  obtain ⟨series, returned⟩ := eq_ok_of_toBool returns
  have stored : (fetchBars Whole correcting.config correctedRange : Service Whole _) = fetchStored correctedRange :=
    fetchBars_undivided Whole (show _ = Except.ok correctedRange from rfl) rfl
  obtain ⟨same, later⟩ := (@simulates_handleFiles _ Whole _ _ _ ⟨.csv, true, false⟩ owner correcting (fun _ => false)
    _ rfl wholeEquality wholeRoundings _ correcting_delivers).run
      (fetchStored_faithful (show _ = some 60000 from rfl) owns minuteDirectory_placed) tracks
  rw [← stored] at same later
  refine ⟨owner, disk, tracks, series, _, Prod.ext (same.trans returned) rfl, fun keeps => ?_⟩
  have after := (later series returned).toModels
  obtain ⟨kept, read, keeps⟩ := keeps _ _ _ minuteDirectory_placed
    (tracks.toModels.readAll minuteDirectory_placed)
  obtain rfl := Except.ok.inj ((after.readAll minuteDirectory_placed).symm.trans read)
  obtain ⟨new, found, same⟩ := keeps 60000 (candle 60000) (by simp [oneSeries]; rfl)
  rw [storedBars, replaced] at found
  obtain rfl : correctedCandle = new := Option.some.inj found
  rcases same with same | same
  · exact absurd same (by decide +kernel)
  · exact absurd same (by decide +kernel)

end MarketdataProvider
