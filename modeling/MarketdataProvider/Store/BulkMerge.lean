import MarketdataProvider.Store.BulkWrite
import MarketdataProvider.Store.PlainRows

namespace MarketdataProvider

open Foundation Foundation.Crash

variable [PyText] {F : Type} [PyFloat F] [Sha256] [Parquet]

section Program

/-- The bounded read of the overlap: from its first bar through its last one. -/
def readOverlap (pending : Nat → Bool) (store : SegmentStore) (overlap : List (MarketBar F)) :
    StoreProg (List (MarketBar F)) :=
  match overlap.head?.bind fun head => overlap.getLast?.map fun last => (head.time, last.time + 1) with
  | none => pure []
  | some (start, stop) => readRangeLocked F pending store (some start) (some stop)

/-- `_bulk_write_closed` of a batch of one series, with the writer lock around it. -/
def bulkWriteClosed (pending : Nat → Bool) (store : SegmentStore) (first : MarketBar F)
    (rest : List (MarketBar F)) : StoreProg Nat := do
  recoverSeries .seriesLock
  let incoming ← Prog.ofExcept (normalizeClosedBatch (first :: rest))
  let state ← Prog.read
  match state.manifest.bind fun raw => raw.toManifest.endTime with
  | none => do
      let _ ← replaceAllLocked store incoming first.key none
      return incoming.length
  | some endTime => do
      let overlap := incoming.filter fun bar => bar.time ≤ endTime
      let tail := incoming.filter fun bar => endTime < bar.time
      let existing ← readOverlap pending store overlap
      if ← Prog.ofExcept (requiresBackfill existing overlap) then do
        let existing ← readAllLocked F store
        let merged ← Prog.ofExcept (addMissing existing incoming)
        let _ ← replaceAllLocked store merged first.key none
        return merged.length - existing.length
      else if tail.isEmpty then return 0
      else do
        let _ ← appendStrictlyNewer store tail first.key
        return tail.length

end Program

variable {store : SegmentStore} {normal : SeriesKey} {state after : SeriesState}
  {stored : Option (ClosedSeries F)} {series : ClosedSeries F} {first : MarketBar F}
  {rest batch kept overlap written : List (MarketBar F)} {pending : Nat → Bool} {endTime : Int} {raw : RawManifest}
  {start stop : Option Int}

section Reads

/-- What a bulk write reads besides the whole series: the rows from the first time of the overlap, and the
last row when nothing is missing before it. -/
structure BulkReads (pending : Nat → Bool) (state : SeriesState) (series : ClosedSeries F) (endTime : Int)
    (batch : List (MarketBar F)) : Prop where
  overlap : ∀ head ∈ batch, (∀ bar ∈ batch, head.time ≤ bar.time) → head.time ≤ endTime →
    RangeReads F pending state (some head.time)
  tail : (∀ bar ∈ batch, bar.time ≤ endTime → (barAt series.bars bar.time).isSome = true) →
    (∃ bar ∈ batch, endTime < bar.time) → TailReads F state

/-- The new bars survive the file format, and the reads of the write find what is stored. -/
structure BulkSafe (pending : Nat → Bool) (state : SeriesState) (stored : Option (ClosedSeries F))
    (batch : List (MarketBar F)) : Prop where
  lasting : ∀ bar ∈ batch, barAt batch bar.time = some bar → barAt (storedBars stored) bar.time = none →
    bar.Lasting
  reads : ∀ series endTime, stored = some series → series.endTime = some endTime →
    BulkReads pending state series endTime batch

omit [PyText] [PyFloat F] [Sha256] [Parquet] in
/-- The first bar of the overlap is the first bar of the batch. -/
theorem FirstBars.head_overlap (one : FirstBars batch kept) {head : MarketBar F}
    (found : (kept.filter fun bar => bar.time ≤ endTime).head? = some head) :
    head ∈ batch ∧ (∀ bar ∈ batch, head.time ≤ bar.time) ∧ head.time ≤ endTime := by
  obtain ⟨others, rows⟩ := List.head?_eq_some_iff.mp found
  have inside : head ∈ kept.filter fun bar => bar.time ≤ endTime := by
    rw [rows]
    exact List.mem_cons_self
  obtain ⟨member, early⟩ := List.mem_filter.mp inside
  rw [decide_eq_true_eq] at early
  refine ⟨one.mem head member, ?_, early⟩
  intro bar offered
  obtain ⟨own, present, same⟩ := List.mem_map.mp (one.times.mpr (List.mem_map_of_mem offered))
  rw [← same]
  by_cases behind : own.time ≤ endTime
  · have ordered := one.sorted.filter fun bar => decide (bar.time ≤ endTime)
    have here : own ∈ head :: others := by
      rw [← rows]
      exact List.mem_filter.mpr ⟨present, decide_eq_true behind⟩
    rw [rows] at ordered
    rcases List.mem_cons.mp here with rfl | later
    · exact le_refl _
    · exact (List.rel_of_pairwise_cons ordered later).le
  · omega

theorem readOverlap_onlyRead (overlap : List (MarketBar F)) :
    Prog.Keeps (OnlyRead state) (fun _ => OnlyRead state) (readOverlap pending store overlap) state := by
  unfold readOverlap
  split
  · have begun : OnlyRead state state := rfl
    exact .done begun begun
  · exact readRangeLocked_onlyRead ..

omit [PyText] [Sha256] [Parquet] in
theorem data_onlyRead (only : OnlyRead state after) (name : DataName) : after.data name = state.data name := by
  rw [only]
  rfl

omit [PyText] [Sha256] [Parquet] in
theorem tailReads_onlyRead (only : OnlyRead state after) : TailReads F after ↔ TailReads F state := by
  unfold TailReads
  rw [data_onlyRead only]

theorem overlap_bounds {head last : MarketBar F} (heads : overlap.head? = some head)
    (lasts : overlap.getLast? = some last) :
    readOverlap pending store overlap =
        readRangeLocked F pending store (some head.time) (some (last.time + 1)) ∧
      storedOverlap series overlap = series.bars.filter (inRange (some head.time) (some (last.time + 1))) := by
  rw [readOverlap, storedOverlap, heads, lasts]
  exact ⟨rfl, rfl⟩

/-- The bounded read finds what is stored in the bounds. -/
theorem Held.readOverlap (held : Held store normal state (some series)) (rounding : IntRounding F)
    (reads : ∀ head, overlap.head? = some head → RangeReads F pending state (some head.time)) :
    ∃ last, (MarketdataProvider.readOverlap pending store overlap).run state =
      (.ok (storedOverlap series overlap), last) ∧ OnlyRead state last := by
  cases heads : overlap.head? with
  | none =>
      rw [MarketdataProvider.readOverlap, storedOverlap, heads]
      exact ⟨state, rfl, rfl⟩
  | some head =>
      obtain ⟨last, lasts⟩ := List.getLast?_isSome.mpr (List.ne_nil_of_mem (List.mem_of_head? heads)) |>
        Option.isSome_iff_exists.mp
      obtain ⟨program, found⟩ := @overlap_bounds _ F _ _ _ store series overlap pending head last heads lasts
      rw [program, found]
      exact held.readRangeLocked rounding (reads head heads)

/-- The manifest spans the series. -/
theorem Held.manifest_endTime (held : Held store normal state stored) :
    (state.manifest.bind fun raw => raw.toManifest.endTime) = stored.bind ClosedSeries.endTime := by
  cases stored with
  | none =>
      have absent : state.manifest = none := NoFiles.unnamed held
      rw [absent]
      rfl
  | some series =>
      obtain ⟨raw, written, files⟩ := held
      rw [files.named, Option.bind_some, Option.bind_some, files.endTime]

end Reads

section Refine

omit [PyText] [Sha256] [Parquet] in
/-- A batch that is normalized agrees with itself. -/
theorem firstBars_of_normalized (equality : FloatEquality F) (made : normalizeClosedBatch batch = .ok kept) :
    Agrees [] batch ∧ FirstBars batch kept := by
  obtain ⟨returns, fails⟩ := @normalizeClosedBatch_spec F _ batch equality
  by_cases agrees : Agrees [] batch
  · obtain ⟨other, again, one⟩ := returns agrees
    obtain rfl := Except.ok.inj (made.symm.trans again)
    exact ⟨agrees, one⟩
  · obtain ⟨error, refused⟩ := fails agrees
    cases made.symm.trans refused

omit [PyText] [Sha256] [Parquet] in
theorem noGap_of_checked {existing : List (MarketBar F)} {missing : Bool}
    (checked : requiresBackfill existing overlap = .ok missing) :
    (∀ bar ∈ overlap, ∀ current, barAt existing bar.time = some current →
        sameCanonicalCandle current bar = true) ∧
      missing = overlap.any fun bar => (barAt existing bar.time).isNone := by
  obtain ⟨returns, fails⟩ := @requiresBackfill_spec F _ existing overlap
  by_cases agrees : ∀ bar ∈ overlap, ∀ current, barAt existing bar.time = some current →
      sameCanonicalCandle current bar = true
  · exact ⟨agrees, Except.ok.inj (checked.symm.trans (returns agrees))⟩
  · obtain ⟨error, refused⟩ := fails agrees
    cases checked.symm.trans refused

omit [PyText] [Sha256] [Parquet] in
theorem takesIn_of_added (equality : FloatEquality F) {existing incoming result : List (MarketBar F)}
    (joined : addMissing existing incoming = .ok result) : TakesIn existing incoming result := by
  obtain ⟨returns, fails⟩ := @addMissing_spec F _ existing incoming equality
  by_cases agrees : Agrees existing incoming
  · obtain ⟨other, again, taken⟩ := returns agrees
    obtain rfl := Except.ok.inj (joined.symm.trans again)
    exact taken
  · obtain ⟨error, refused⟩ := fails agrees
    cases joined.symm.trans refused

omit [Sha256] [Parquet] in
theorem BulkSafe.lasting_kept (safe : BulkSafe pending state stored batch) (one : FirstBars batch kept)
    {bar : MarketBar F} (member : bar ∈ kept) (free : barAt (storedBars stored) bar.time = none) : bar.Lasting :=
  safe.lasting bar (one.mem bar member) (one.find member) free

/-- What is added to a series lasts as the stored bars do. -/
theorem BulkSafe.lasting_merged (safe : BulkSafe pending state (some series) batch)
    (held : Held store normal state (some series)) (one : FirstBars batch kept)
    {merged : List (MarketBar F)} (taken : TakesIn series.bars kept merged) : ∀ bar ∈ merged, bar.Lasting := by
  obtain ⟨fresh, joined, sublist⟩ := taken.added
  have distinct := taken.distinct (distinct_storedBars (some series))
  rw [joined, List.map_append, List.nodup_append] at distinct
  intro bar member
  rw [joined, List.mem_append] at member
  rcases member with old | added
  · exact held.lasting bar old
  · refine safe.lasting_kept one (sublist.subset added) (barAt_eq_none_iff.mpr ?_)
    intro other inside same
    exact distinct.2.2 _ (List.mem_map_of_mem inside) _ (List.mem_map_of_mem added) same

/-- The steps of the program are those of the write of the series. -/
theorem Held.bulkWriteClosed (held : Held store normal state stored) (csv : store.dataFormat = .csv)
    (equality : FloatEquality F) (rounding : IntRounding F) (keyed : normalizedKey first.key = .ok normal)
    (safe : BulkSafe pending state stored (first :: rest)) :
    Prog.Realises (Held store normal) stored
      ((fun made => (made.1, some made.2.normalize)) <$> bulkWriteSeries stored first rest)
      (MarketdataProvider.bulkWriteClosed pending store first rest) state := by
  refine .after (held.recoverSeries .seriesLock) ?_
  rw [bulkWriteSeries, map_bind]
  refine .check held fun kept made => .read ?_
  obtain ⟨batchAgrees, one⟩ := firstBars_of_normalized equality made
  rw [held.manifest_endTime]
  cases shown : stored.bind fun series => series.endTime.map fun endTime => (series, endTime) with
  | none =>
      have empty := storedBars_of_noEnd shown
      have noEnd : stored.bind ClosedSeries.endTime = none := by
        cases stored with
        | none => rfl
        | some series => exact Option.map_eq_none_iff.mp shown
      rw [noEnd]
      have given : ∀ bar ∈ kept, bar.Lasting := fun bar member =>
        safe.lasting_kept one member (barAt_storedBars_none empty _)
      have replaced := (@Held.replaceAllLocked _ F _ _ _ store normal _ state stored kept held none csv keyed
        given).realises kept.length
      rwa [Functor.map_map] at replaced ⊢
  | some pair =>
      obtain ⟨series, rfl, endTime, ends, rfl⟩ : ∃ series, stored = some series ∧
          ∃ endTime, series.endTime = some endTime ∧ (series, endTime) = pair := by
        simpa [Option.bind_eq_some_iff] using shown
      obtain ⟨overlapReads, tailReads⟩ := safe.reads series endTime rfl ends
      obtain ⟨middle, ran, only⟩ := @Held.readOverlap _ F _ _ _ store normal state series
        (kept.filter fun bar => bar.time ≤ endTime) pending held rounding fun head found => by
          obtain ⟨member, least, early⟩ := one.head_overlap found
          exact overlapReads head member least early
      have again := held.onlyRead only
      rw [Option.bind_some, ends]
      refine .after ran ?_
      change Prog.Realises _ _ (_ <$> (requiresBackfill (storedOverlap series _) _ >>= _)) _ _
      rw [map_bind]
      refine .check again fun missing checked => ?_
      cases missing with
      | true =>
          obtain ⟨last, read, onlyAgain⟩ := again.readAllLocked
          have whole := again.onlyRead onlyAgain
          simp only [if_true, map_bind]
          refine .after read (.check whole fun merged joined => ?_)
          have given := safe.lasting_merged held one (takesIn_of_added equality joined)
          have replaced := (@Held.replaceAllLocked _ F _ _ _ store normal _ last (some series) merged whole none csv
            keyed given).realises (merged.length - series.bars.length)
          rwa [Functor.map_map] at replaced ⊢
      | false =>
          simp only [Bool.false_eq_true, if_false]
          by_cases blank : (kept.filter fun bar => endTime < bar.time).isEmpty = true
          · rw [if_pos blank, if_pos blank]
            obtain ⟨raw, written, files⟩ := again
            refine .done ?_
            rw [files.normalize]
            exact ⟨raw, written, files⟩
          · rw [if_neg blank, if_neg blank]
            have given : ∀ bar ∈ kept.filter (fun bar => endTime < bar.time), bar.Lasting := by
              intro bar member
              obtain ⟨inside, later⟩ := List.mem_filter.mp member
              refine safe.lasting_kept one inside (barAt_eq_none_iff.mpr ?_)
              intro other old same
              have early := time_le_endTime ends old
              have late := of_decide_eq_true later
              omega
            have appended := (again.appendStrictlyNewer keyed given fun filled => ?_).realises
              (kept.filter fun bar => endTime < bar.time).length
            · rwa [Functor.map_map] at appended ⊢
            · refine (tailReads_onlyRead only).mpr (tailReads ?_ ?_)
              · intro bar offered early
                have fits := fits_of_noGap ends one (noGap_of_checked checked).2.symm
                obtain ⟨own, present, same⟩ := List.mem_map.mp (one.times.mpr (List.mem_map_of_mem offered))
                rw [← same]
                exact fits.present own present (same.trans_le early)
              · obtain ⟨bar, member⟩ := List.exists_mem_of_ne_nil _ filled
                obtain ⟨inside, later⟩ := List.mem_filter.mp member
                exact ⟨bar, one.mem bar inside, of_decide_eq_true later⟩

end Refine

section Exact

omit [Sha256] [Parquet] [PyText] in
/-- Every row is one line. -/
def OneLines (F : Type) [PyFloat F] (state : SeriesState) : Prop :=
  ∀ rows : List (MarketBar F), state.data (.bars .csv) = some (csvFile rows) → ∀ row ∈ rows, row.OneLine

omit [Sha256] [Parquet] [PyText] in
/-- Every row is one line, and short enough for the reader of the tail. -/
def ShortLines (F : Type) [PyFloat F] (state : SeriesState) : Prop :=
  ∀ rows : List (MarketBar F), state.data (.bars .csv) = some (csvFile rows) →
    ∀ row ∈ rows, row.OneLine ∧ rowSize row < 1048576

omit [Sha256] [Parquet] [PyText] in
theorem ShortLines.oneLines (lines : ShortLines F state) : OneLines F state :=
  fun rows data row member => (lines rows data row member).1

/-- A ranged read of one-line rows that returns has split no character, and is right. -/
theorem FilesOf.rangeReads (files : FilesOf store normal state raw written series) (lines : OneLines F state)
    {found : List (MarketBar F)} {time : Int}
    (returned : ((readRangeLocked F pending store (some time) stop).run state).1 = .ok found) :
    RangeReads F pending state (some time) := by
  intro other rows named same
  obtain rfl := Option.some.inj (files.named.symm.trans named)
  have csv : series.format = .csv := by
    obtain ⟨bytes, -, data⟩ := files.generation
    cases format : series.format with
    | csv => rfl
    | parquet =>
        rw [data, files.format, format] at same
        cases same
  have data := files.data_csv csv
  obtain ⟨contract, own, single, -⟩ := readAllLocked_csv files.named data files.reads
  have plain : ¬ (state.data (.bars (otherFormat .csv))).isSome = true := by
    rw [show otherFormat .csv = .parquet from rfl, single]
    simp
  rw [readRangeLocked, Prog.read_bind, Prog.run_step] at returned
  dsimp only [id] at returned
  rw [files.named] at returned
  dsimp only at returned
  rw [contract, Prog.ofExcept_ok, Prog.done_bind] at returned
  simp only [own, plain, data, Option.isSome_some, true_or, if_true] at returned
  obtain ⟨_, middle, -, returned⟩ := Prog.run_bind_eq_ok.mp returned
  obtain ⟨bars, ranged, -⟩ := Prog.run_ofExcept_bind_eq_ok.mp returned
  rw [Option.some.inj (data.symm.trans same)] at ranged
  exact (unsplit_of_iterCsvRange ranged).aligned fun row member => (lines rows same row member).unbroken

/-- An append that is not refused has read the last row. -/
theorem FilesOf.readLastCsvBar (files : FilesOf store normal state raw written series) (csv : series.format = .csv)
    {plan : AppendPlan F} {key : SeriesKey}
    (planned : MarketdataProvider.appendPlan state key (first :: rest) = .ok plan) :
    ∃ found, MarketdataProvider.readLastCsvBar F (csvFile written) = .ok found := by
  have isCsv := files.format.trans csv
  unfold MarketdataProvider.appendPlan at planned
  obtain ⟨incoming, accepted, planned⟩ := bind_eq_ok.mp planned
  rw [files.named] at planned
  dsimp only at planned
  rw [if_neg (not_not.mpr isCsv), files.data_csv csv] at planned
  dsimp only at planned
  obtain ⟨manifest, -, planned⟩ := bind_eq_ok.mp planned
  rw [validatedAppendBars_eq accepted, dropRepeats, if_neg (by simp)] at planned
  obtain ⟨found, read, -⟩ := bind_eq_ok.mp planned
  exact ⟨found, read⟩

/-- An append to short lines that is not refused has split no character at the tail. -/
theorem FilesOf.tailReads (files : FilesOf store normal state raw written series) (csv : series.format = .csv)
    (lines : ShortLines F state) {plan : AppendPlan F} {key : SeriesKey}
    (planned : MarketdataProvider.appendPlan state key (first :: rest) = .ok plan) : TailReads F state := by
  obtain ⟨found, read⟩ := files.readLastCsvBar csv planned
  intro rows same last ends
  obtain ⟨oneLine, short⟩ := lines rows same last (List.mem_of_getLast? ends)
  rw [Option.some.inj ((files.data_csv csv).symm.trans same)] at read
  rcases List.eq_nil_or_concat rows with rfl | ⟨front, other, rfl⟩
  · cases ends
  · rw [List.concat_eq_append] at *
    rw [List.getLast?_concat] at ends
    obtain rfl := Option.some.inj ends
    exact ⟨oneLine, short, unsplit_of_readLastCsvBar oneLine short read⟩

/-- A disagreement is found before the first write, whenever the bounded read is right or fails. -/
theorem Held.bulkWriteClosed_conflict (held : Held store normal state stored) (equality : FloatEquality F)
    (disagrees : ¬ Agrees (storedBars stored) (first :: rest))
    (reads : ∀ series endTime head, stored = some series → series.endTime = some endTime →
      head ∈ first :: rest → (∀ bar ∈ first :: rest, head.time ≤ bar.time) → head.time ≤ endTime →
        ∀ stop bars last, (MarketdataProvider.readRangeLocked F pending store (some head.time) stop).run state =
          (.ok bars, last) → bars = series.bars.filter (inRange (some head.time) stop)) :
    ∃ error last, (MarketdataProvider.bulkWriteClosed pending store first rest).run state = (.error error, last) ∧
      OnlyRead state last := by
  rw [MarketdataProvider.bulkWriteClosed, Prog.run_bind_ok (held.recoverSeries .seriesLock)]
  cases made : normalizeClosedBatch (first :: rest) with
  | error error => exact ⟨error, state, rfl, rfl⟩
  | ok kept =>
      obtain ⟨batchAgrees, one⟩ := firstBars_of_normalized equality made
      rw [Prog.ofExcept_ok, Prog.done_bind, Prog.read_bind, Prog.run_step]
      dsimp only [id]
      rw [held.manifest_endTime]
      cases shown : stored.bind ClosedSeries.endTime with
      | none =>
          have noEnd : (stored.bind fun series => series.endTime.map fun endTime => (series, endTime)) = none := by
            cases stored with
            | none => rfl
            | some series => exact Option.map_eq_none_iff.mpr shown
          exact absurd (agrees_of_empty (storedBars_of_noEnd noEnd) batchAgrees) disagrees
      | some endTime =>
          obtain ⟨series, rfl, ends⟩ := Option.bind_eq_some_iff.mp shown
          change ¬ Agrees series.bars _ at disagrees
          rw [agrees_iff_kept equality batchAgrees one, ← overlap_agrees_iff ends one.sorted] at disagrees
          obtain ⟨error, refused⟩ := requiresBackfill_spec.2 disagrees
          dsimp only
          have only := (@readOverlap_onlyRead _ F _ _ _ store state pending
            (kept.filter fun bar => bar.time ≤ endTime)).1 _ (Prog.final_mem_visits _ _)
          cases ran : (MarketdataProvider.readOverlap pending store
              (kept.filter fun bar => bar.time ≤ endTime)).run state with
          | mk outcome last =>
              rw [ran] at only
              cases outcome with
              | error failed => exact ⟨failed, last, Prog.run_bind_error ran, only⟩
              | ok bars =>
                  obtain rfl : bars = storedOverlap series (kept.filter fun bar => bar.time ≤ endTime) := by
                    cases heads : (kept.filter fun bar => bar.time ≤ endTime).head? with
                    | none =>
                        rw [MarketdataProvider.readOverlap, heads] at ran
                        rw [storedOverlap, heads]
                        exact (Except.ok.inj (congrArg Prod.fst ran)).symm
                    | some head =>
                        obtain ⟨member, least, early⟩ := one.head_overlap heads
                        obtain ⟨tail, lasts⟩ := Option.isSome_iff_exists.mp
                          (List.getLast?_isSome.mpr (List.ne_nil_of_mem (List.mem_of_head? heads)))
                        obtain ⟨program, found⟩ := @overlap_bounds _ F _ _ _ store series _ pending _ _ heads lasts
                        rw [program] at ran
                        rw [found]
                        exact reads series endTime head rfl ends member least early _ _ _ ran
                  refine ⟨error, last, ?_, only⟩
                  rw [Prog.run_bind_ok ran, refused]
                  rfl

/-- What a bulk write is for: the batch is refused as a whole where a payload disagrees, and is else
joined to the stored bars, which stay as they are. -/
structure MergesExactly (store : SegmentStore) (normal : SeriesKey) (pending : Nat → Bool) (state : SeriesState)
    (stored : Option (ClosedSeries F)) (first : MarketBar F) (rest : List (MarketBar F)) : Prop where
  refused : ¬ Agrees (storedBars stored) (first :: rest) → ∃ error last,
    (bulkWriteClosed pending store first rest).run state = (.error error, last) ∧ OnlyRead state last
  merged : Agrees (storedBars stored) (first :: rest) → ∃ last after,
    (bulkWriteClosed pending store first rest).run state = (.ok (newTimes stored (first :: rest)).card, last) ∧
      Held store normal last (some after) ∧ after.format = .csv ∧ ∀ time, barAt after.bars time =
        (barAt (storedBars stored) time).or ((barAt (first :: rest) time).map MarketBar.normalForm)

/-- The stored bars are spelled as a read gives them back. -/
theorem Held.map_normalForm (held : Held store normal state stored) (time : Int) :
    (barAt (storedBars stored) time).map MarketBar.normalForm = barAt (storedBars stored) time := by
  cases stored with
  | none => rfl
  | some series =>
      obtain ⟨raw, written, files⟩ := held
      rw [← barAt_map_normalForm]
      exact congrArg (barAt · time) (map_normalForm_of_normal files.normalBars)

theorem Held.mergesExactly (held : Held store normal state stored) (csvStore : store.dataFormat = .csv)
    (csv : ∀ series, stored = some series → series.format = .csv) (equality : FloatEquality F)
    (rounding : IntRounding F) (keyed : normalizedKey first.key = .ok normal)
    (admissible : ∀ bar ∈ first :: rest, bar.Admissible first.key)
    (safe : BulkSafe pending state stored (first :: rest)) :
    MergesExactly store normal pending state stored first rest where
  refused disagrees := by
    refine held.bulkWriteClosed_conflict equality disagrees ?_
    intro series endTime head shown ends member least early stop bars last ran
    subst shown
    have reads : RangeReads F pending state (some head.time) :=
      (safe.reads series endTime rfl ends).overlap head member least early
    obtain ⟨other, found, -⟩ := @Held.readRangeLocked _ F _ _ _ store normal state _ pending _ stop held rounding reads
    exact Except.ok.inj ((congrArg Prod.fst ran).symm.trans (congrArg Prod.fst found))
  merged agrees := by
    obtain ⟨count, after, made, merged⟩ := bulkWriteSeries_merges equality csv admissible agrees
    have realised := held.bulkWriteClosed csvStore equality rounding keyed safe
    rw [made] at realised
    obtain ⟨last, ran, reached⟩ := realised
    refine ⟨last, after.normalize, ?_, reached, merged.csv, ?_⟩
    · rw [← merged.counted]
      exact ran
    · intro time
      rw [ClosedSeries.bars_normalize, barAt_map_normalForm, merged.union, Option.map_or, held.map_normalForm]

omit [Sha256] [Parquet] in
/-- A bar lasts when its row fits and what is read of it lasts. -/
theorem lasting_of_normalForm {bar : MarketBar F} (fits : bar.Fits)
    (semantics : validatePersistedBarSemantics bar = .ok ()) (lasting : bar.normalForm.Lasting) : bar.Lasting where
  survives := { lasting.survives with }
  fits := fits
  semantics := semantics
  again _ accepted := normalForm_of_timeframe accepted ▸ lasting.fits

/-- A write of one-line rows that goes past its overlap has read what is stored there. -/
theorem Held.overlap_of_returned (held : Held store normal state (some series)) (lines : OneLines F state)
    (one : FirstBars batch kept) {existing : List (MarketBar F)} {last : SeriesState}
    (ran : (MarketdataProvider.readOverlap pending store (kept.filter fun bar => bar.time ≤ endTime)).run state =
      (.ok existing, last)) :
    ∀ head ∈ batch, (∀ bar ∈ batch, head.time ≤ bar.time) → head.time ≤ endTime →
      RangeReads F pending state (some head.time) := by
  intro head member least early
  obtain ⟨own, present, same⟩ := List.mem_map.mp (one.times.mpr (List.mem_map_of_mem member))
  have inside : own ∈ kept.filter fun bar => bar.time ≤ endTime :=
    List.mem_filter.mpr ⟨present, decide_eq_true (same.trans_le early)⟩
  obtain ⟨lead, others, rows⟩ := List.exists_cons_of_ne_nil (List.ne_nil_of_mem inside)
  have heads : (kept.filter fun bar => bar.time ≤ endTime).head? = some lead := by rw [rows]; rfl
  obtain ⟨offered, before, -⟩ := one.head_overlap heads
  have equal : lead.time = head.time := le_antisymm (before head member) (least lead offered)
  obtain ⟨tail, lasts⟩ := Option.isSome_iff_exists.mp (List.getLast?_isSome.mpr (List.ne_nil_of_mem inside))
  obtain ⟨program, -⟩ := @overlap_bounds _ F _ _ _ store series _ pending _ _ heads lasts
  rw [program] at ran
  obtain ⟨raw, written, files⟩ := held
  exact equal ▸ files.rangeReads lines (congrArg Prod.fst ran)

/-- A write of short lines that returns has read what is stored. -/
theorem Held.bulkReads_of_returned (held : Held store normal state (some series)) (csv : series.format = .csv)
    (lines : ShortLines F state) (equality : FloatEquality F) (rounding : IntRounding F)
    (ends : series.endTime = some endTime) {count : Nat}
    (returned : ((MarketdataProvider.bulkWriteClosed pending store first rest).run state).1 = .ok count) :
    BulkReads pending state series endTime (first :: rest) := by
  rw [MarketdataProvider.bulkWriteClosed, Prog.run_bind_ok (held.recoverSeries .seriesLock)] at returned
  obtain ⟨kept, made, returned⟩ := Prog.run_ofExcept_bind_eq_ok.mp returned
  obtain ⟨-, one⟩ := firstBars_of_normalized equality made
  rw [Prog.read_bind, Prog.run_step] at returned
  dsimp only [id] at returned
  rw [held.manifest_endTime, Option.bind_some, ends] at returned
  obtain ⟨existing, middle, ran, returned⟩ := Prog.run_bind_eq_ok.mp returned
  obtain ⟨missing, checked, returned⟩ := Prog.run_ofExcept_bind_eq_ok.mp returned
  have overlapReads := held.overlap_of_returned lines.oneLines one ran
  obtain ⟨last, found, only⟩ := held.readOverlap rounding fun head heads => by
    obtain ⟨member, least, early⟩ := one.head_overlap heads
    exact overlapReads head member least early
  obtain ⟨⟨⟩, rfl⟩ := Prod.mk.inj (ran.symm.trans found)
  obtain ⟨-, rfl⟩ := noGap_of_checked checked
  refine ⟨overlapReads, ?_⟩
  rintro known ⟨bar, offered, later⟩
  have noGap : (kept.filter fun bar => bar.time ≤ endTime).any (fun bar =>
      (barAt (storedOverlap series (kept.filter fun bar => bar.time ≤ endTime)) bar.time).isNone) = false := by
    rw [List.any_eq_false]
    intro other inside
    obtain ⟨present, early⟩ := List.mem_filter.mp inside
    rw [barAt_storedOverlap (one.sorted.filter _) inside, Option.isNone_iff_eq_none, ← ne_eq,
      Option.ne_none_iff_isSome]
    exact known other (one.mem other present) (of_decide_eq_true early)
  obtain ⟨own, present, same⟩ := List.mem_map.mp (one.times.mpr (List.mem_map_of_mem offered))
  have filled : own ∈ kept.filter fun bar => endTime < bar.time :=
    List.mem_filter.mpr ⟨present, decide_eq_true (same ▸ later)⟩
  obtain ⟨head, others, rows⟩ := List.exists_cons_of_ne_nil (List.ne_nil_of_mem filled)
  rw [noGap, if_neg Bool.false_ne_true, rows, if_neg (by simp)] at returned
  obtain ⟨_, _, appended, -⟩ := Prog.run_bind_eq_ok.mp returned
  have again := held.onlyRead only
  have appends := congrArg Prod.fst appended
  rw [MarketdataProvider.appendStrictlyNewer, Prog.run_bind_ok (again.recoverSeries .seriesLock),
    MarketdataProvider.appendStrictlyNewerLocked, Prog.read_bind, Prog.run_step] at appends
  obtain ⟨plan, planned, -⟩ := Prog.run_ofExcept_bind_eq_ok.mp appends
  obtain ⟨raw, written, files⟩ := again
  refine (tailReads_onlyRead only).mp (files.tailReads csv ?_ planned)
  unfold ShortLines
  rw [data_onlyRead only]
  exact lines

theorem MergesExactly.safe (exact : MergesExactly store normal pending state stored first rest)
    (held : Held store normal state stored) (csv : ∀ series, stored = some series → series.format = .csv)
    (lines : ShortLines F state) (fits : ∀ bar ∈ first :: rest, bar.Fits) (equality : FloatEquality F)
    (rounding : IntRounding F) (admissible : ∀ bar ∈ first :: rest, bar.Admissible first.key)
    (agrees : Agrees (storedBars stored) (first :: rest)) : BulkSafe pending state stored (first :: rest) := by
  obtain ⟨last, after, ran, reached, -, union⟩ := exact.merged agrees
  refine ⟨?_, ?_⟩
  · intro bar member own free
    have found := union bar.time
    rw [free, Option.none_or, own, Option.map_some] at found
    exact lasting_of_normalForm (fits bar member) (admissible bar member).semantics
      (reached.lasting _ (mem_of_barAt found))
  · rintro series endTime rfl ends
    exact held.bulkReads_of_returned (csv series rfl) lines equality rounding ends (congrArg Prod.fst ran)

/-- A bulk write is an exact merge when its reads find what is stored and the new bars last; where the rows
are short lines, only then. -/
theorem bulk_write_merges_exactly_iff (held : Held store normal state stored) (csvStore : store.dataFormat = .csv)
    (csv : ∀ series, stored = some series → series.format = .csv) (equality : FloatEquality F)
    (rounding : IntRounding F) (keyed : normalizedKey first.key = .ok normal)
    (admissible : ∀ bar ∈ first :: rest, bar.Admissible first.key) :
    (BulkSafe pending state stored (first :: rest) → MergesExactly store normal pending state stored first rest) ∧
      (ShortLines F state → (∀ bar ∈ first :: rest, bar.Fits) →
        (MergesExactly store normal pending state stored first rest ↔
          (Agrees (storedBars stored) (first :: rest) → BulkSafe pending state stored (first :: rest)))) := by
  have sufficient : BulkSafe pending state stored (first :: rest) →
      MergesExactly store normal pending state stored first rest :=
    held.mergesExactly csvStore csv equality rounding keyed admissible
  refine ⟨sufficient, fun lines fits => ⟨fun exact agrees => ?_, fun enough => ?_⟩⟩
  · exact exact.safe held csv lines fits equality rounding admissible agrees
  · by_cases agrees : Agrees (storedBars stored) (first :: rest)
    · exact sufficient (enough agrees)
    · refine ⟨fun disagrees => held.bulkWriteClosed_conflict equality disagrees ?_, fun other => absurd other agrees⟩
      intro series endTime head shown _ _ _ _ stop bars last ran
      subst shown
      obtain ⟨raw, written, files⟩ := held
      have reads := files.rangeReads lines.oneLines (congrArg Prod.fst ran)
      exact Except.ok.inj ((congrArg Prod.fst ran).symm.trans (files.readRange rounding reads))

end Exact

end MarketdataProvider

namespace MarketdataProvider

open Foundation Foundation.Crash

open scoped Reference

open Reference

/-- Two new minutes, between the stored ones and behind them, and one that is stored already. -/
theorem bulk_write_merges_exactly_gapped : ∃ state,
    Held ⟨.csv, true, false⟩ series state (some gappedSeries) ∧
      MergesExactly ⟨.csv, true, false⟩ series (fun _ => false) state (some gappedSeries) (candle 180000)
        [candle 60000, candle 120000] := by
  obtain ⟨state, data, held⟩ := gapped_held
  have batch : ∀ bar ∈ [candle 180000, candle 60000, candle 120000], bar ∈ fourMinutes := by decide
  refine ⟨_, held, (bulk_write_merges_exactly_iff held rfl ?_ wholeEquality wholeRoundings
    (eq_ok_of_toOption (by decide +kernel)) ?_).1 ⟨?_, ?_⟩⟩
  · rintro _ ⟨⟩
    rfl
  · exact fun bar member => fourMinutes_admissible bar (batch bar member)
  · exact fun bar member _ _ => fourMinutes_lasting bar (batch bar member)
  · exact fun _ _ _ _ => ⟨fun head _ _ _ => rangeReads_of_plain data gapped_plain (some head.time),
      fun _ _ => tailReads_of_plain data gapped_plain (by decide +kernel)⟩

namespace Reference

theorem brokenTransport_lasting : brokenTransport.Lasting := by
  have codec : (rowToBar (writtenRow brokenTransport)).toOption = some (brokenTransport.persisted "1m") := by
    decide +kernel
  have fits : brokenTransport.Fits ∧ (brokenTransport.persisted "1m").Fits := by
    unfold MarketBar.Fits
    decide +kernel
  exact minuteRow_lasting rfl (by decide +kernel) codec fits.1 fits.2

/-- A stored candle whose row ends on a second line. -/
def brokenSeries : ClosedSeries Whole where
  format := .csv
  bars := [brokenTransport]
  sorted := List.pairwise_singleton _ _
  formed := List.forall_mem_singleton.mpr (candle_formed 0)
  digested := List.forall_mem_singleton.mpr (eq_ok_of_toBool (by decide +kernel))

theorem brokenTransport_tail : ∀ found, readLastCsvBar Whole (csvFile [brokenTransport]) ≠ .ok found := by
  rw [readLastCsvBar_eq (Csv.encodeRecord persistedMarketBarFields)
    ([persistedMarketBarFields, persistedRecord brokenTransport].flatMap Csv.encodeRecord)]
  · have fails : (do
        let fieldnames ← csvLine (Csv.encodeRecord persistedMarketBarFields)
        let line := lastLine ([persistedMarketBarFields, persistedRecord brokenTransport].flatMap Csv.encodeRecord)
        if line = [] then return none
        some <$> rowToBar (F := Whole) (dictRow fieldnames (← csvLine line))).toBool = false := by decide +kernel
    intro found read
    rw [read] at fails
    cases fails
  · decide +kernel
  · decide +kernel
  · exact eq_ok_of_toOption (by decide +kernel)

end Reference

/-- A newer candle agrees with what is stored, and is refused. -/
theorem broken_row_refuses_newer : ∃ state,
    Held ⟨.csv, true, false⟩ series state (some brokenSeries) ∧
      Agrees (storedBars (some brokenSeries)) [candle 60000] ∧
      ¬ MergesExactly ⟨.csv, true, false⟩ series (fun _ => false) state (some brokenSeries) (candle 60000) [] := by
  obtain ⟨checksum, digested⟩ : ∃ checksum, rowsDigest .v4 [brokenTransport] = .ok checksum :=
    eq_ok_of_toBool (by decide +kernel)
  have files := @seriesFiles_filesOf [brokenTransport] checksum brokenSeries rfl (by decide +kernel)
    brokenSeries.sorted digested (List.forall_mem_singleton.mpr brokenTransport_lasting)
  have held : Held ⟨.csv, true, false⟩ series (seriesFiles [brokenTransport] checksum) (some brokenSeries) :=
    ⟨_, _, files⟩
  have agrees : Agrees (storedBars (some brokenSeries)) [candle 60000] := by
    refine ⟨?_, List.pairwise_singleton _ _⟩
    intro bar member current found
    rw [List.mem_singleton.mp member] at found
    cases found
  refine ⟨_, held, agrees, fun exact => ?_⟩
  obtain ⟨last, after, ran, -⟩ := exact.merged agrees
  have returned := congrArg Prod.fst ran
  rw [bulkWriteClosed, Prog.run_bind_ok (held.recoverSeries .seriesLock)] at returned
  obtain ⟨kept, made, returned⟩ := Prog.run_ofExcept_bind_eq_ok.mp returned
  obtain rfl : [candle 60000] = kept := Except.ok.inj made
  rw [Prog.read_bind, Prog.run_step] at returned
  dsimp only [id] at returned
  rw [held.manifest_endTime] at returned
  change ((appendStrictlyNewer ⟨.csv, true, false⟩ [candle 60000] (candle 60000).key >>= _).run _).1 = _ at returned
  obtain ⟨_, _, appended, -⟩ := Prog.run_bind_eq_ok.mp returned
  have appends := congrArg Prod.fst appended
  rw [appendStrictlyNewer, Prog.run_bind_ok (held.recoverSeries .seriesLock), appendStrictlyNewerLocked,
    Prog.read_bind, Prog.run_step] at appends
  obtain ⟨plan, planned, -⟩ := Prog.run_ofExcept_bind_eq_ok.mp appends
  obtain ⟨found, read⟩ := files.readLastCsvBar rfl planned
  exact brokenTransport_tail found read

end MarketdataProvider
