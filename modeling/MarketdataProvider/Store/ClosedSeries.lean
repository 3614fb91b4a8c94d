import MarketdataProvider.Core.ByTime
import MarketdataProvider.Store.CandleStore

namespace MarketdataProvider

open Foundation

variable [PyText] {F : Type} [PyFloat F]

/-- What a series holds, whatever its files look like: well-formed bars in time order. -/
structure ClosedSeries (F : Type) [PyFloat F] where
  format : SegmentFormat
  bars : List (MarketBar F)
  sorted : bars.Pairwise (·.time < ·.time)
  formed : ∀ bar ∈ bars, bar.WellFormed
  digested : ∀ bar ∈ bars, ∃ row, updateChecksum .v4 bar = .ok row

omit [PyText] in
theorem validateMarketBars_ok_iff {bars : List (MarketBar F)} : validateMarketBars bars = .ok () ↔
    bars.Pairwise (·.time < ·.time) ∧ ∀ bar ∈ bars, bar.WellFormed := by
  rw [validateMarketBars, validateBars_ok_iff, List.pairwise_map]
  simp

namespace ClosedSeries

@[ext] theorem ext {left right : ClosedSeries F} (format : left.format = right.format)
    (bars : left.bars = right.bars) : left = right := by
  obtain ⟨_, _, _, _, _⟩ := left
  obtain ⟨_, _, _, _, _⟩ := right
  cases format
  cases bars
  rfl

def find (series : ClosedSeries F) (time : Int) : Option (MarketBar F) := barAt series.bars time

def endTime (series : ClosedSeries F) : Option Int := series.bars.getLast?.map fun bar => bar.time

/-- The bars of a time range; either bound can be left out. -/
def range (series : ClosedSeries F) (start stop : Option Int) : List (MarketBar F) :=
  series.bars.filter (inRange start stop)

/-- Newer bars at the end of the series. -/
def extend (series : ClosedSeries F) (fresh : List (MarketBar F))
    (ascends : fresh.Pairwise (·.time < ·.time))
    (newer : ∀ old ∈ series.bars, ∀ bar ∈ fresh, old.time < bar.time)
    (formed : ∀ bar ∈ fresh, bar.WellFormed)
    (digested : ∀ bar ∈ fresh, ∃ row, updateChecksum .v4 bar = .ok row) : ClosedSeries F where
  format := series.format
  bars := series.bars ++ fresh
  sorted := List.pairwise_append.mpr ⟨series.sorted, ascends, newer⟩
  formed := by
    intro bar member
    rcases List.mem_append.mp member with old | new
    · exact series.formed bar old
    · exact formed bar new
  digested := by
    intro bar member
    rcases List.mem_append.mp member with old | new
    · exact series.digested bar old
    · exact digested bar new

end ClosedSeries

/-- `_replace_all_locked`: the bars in time order, once they pass its checks. -/
def replaceSeries (format : SegmentFormat) (bars : List (MarketBar F)) (key : SeriesKey) :
    Except PyError (ClosedSeries F) :=
  match valid : validateMarketBars (sortByTime bars) with
  | .error error => .error error
  | .ok () =>
      match normalizedKey key with
      | .error error => .error error
      | .ok _ =>
          match rows : (sortByTime bars).mapM (updateChecksum .v4) with
          | .error error => .error error
          | .ok _ => .ok {
              format
              bars := sortByTime bars
              sorted := (validateMarketBars_ok_iff.mp valid).1
              formed := (validateMarketBars_ok_iff.mp valid).2
              digested := ok_of_mem_mapM rows }

omit [PyText] [PyFloat F] in
theorem newer_of_head {bars : List (MarketBar F)} {first : MarketBar F} {rest : List (MarketBar F)}
    {endTime : Int} (sorted : bars.Pairwise (·.time < ·.time))
    (ends : (bars.getLast?.map fun bar => bar.time) = some endTime)
    (ascends : (first :: rest).Pairwise (·.time < ·.time)) (after : endTime < first.time) :
    ∀ old ∈ bars, ∀ bar ∈ first :: rest, old.time < bar.time := by
  intro old inside bar member
  obtain ⟨last, found, rfl⟩ := Option.map_eq_some_iff.mp ends
  have early : old.time ≤ last.time := time_le_getLast sorted found inside
  rcases List.mem_cons.mp member with rfl | later
  · omega
  · have := List.rel_of_pairwise_cons ascends later
    omega

theorem acceptAppendBars_formed {expected : SeriesKey} {last : Option (MarketBar F)}
    {bars accepted : List (MarketBar F)} (returned : acceptAppendBars expected last bars = .ok accepted) :
    ∀ bar ∈ accepted, bar.WellFormed := by
  induction bars generalizing last accepted with
  | nil =>
      cases returned
      simp
  | cons bar rest ih =>
      simp only [acceptAppendBars, bind_eq_ok] at returned
      obtain ⟨_, _, actual, _, returned⟩ := returned
      split at returned
      · cases returned
      · simp only [bind_eq_ok] at returned
        obtain ⟨⟨⟩, valid, returned⟩ := returned
        have formed : bar.WellFormed := ((validateBars_ok_iff _).mp valid).2 _ (List.mem_singleton_self _)
        have kept (tail : List (MarketBar F))
            (later : acceptAppendBars expected (some bar) rest = .ok tail) :
            ∀ item ∈ bar :: tail, item.WellFormed := by
          intro item member
          rcases List.mem_cons.mp member with rfl | inTail
          · exact formed
          · exact ih later item inTail
        split at returned
        · obtain ⟨tail, later, rfl⟩ := map_eq_ok.mp returned
          exact kept tail later
        · split at returned
          · cases returned
          · split at returned
            · split at returned
              · exact ih returned
              · cases returned
            · obtain ⟨tail, later, rfl⟩ := map_eq_ok.mp returned
              exact kept tail later

theorem validatedAppendBars_formed {bars incoming : List (MarketBar F)} {key : SeriesKey}
    (accepted : validatedAppendBars bars key = .ok incoming) : ∀ bar ∈ incoming, bar.WellFormed := by
  obtain ⟨expected, _, returned⟩ := bind_eq_ok.mp accepted
  exact acceptAppendBars_formed returned

/-- The newer bars, after their digests extend the chain. -/
def extendSeries (series : ClosedSeries F) (endTime : Int) (first : MarketBar F)
    (rest : List (MarketBar F)) (ends : series.endTime = some endTime)
    (ascends : (first :: rest).Pairwise (·.time < ·.time)) (after : endTime < first.time)
    (formed : ∀ bar ∈ first :: rest, bar.WellFormed) : Except PyError (ClosedSeries F) :=
  match rows : (first :: rest).mapM (updateChecksum .v4) with
  | .error error => .error error
  | .ok _ => .ok (series.extend (first :: rest) ascends
      (newer_of_head series.sorted ends ascends after) formed (ok_of_mem_mapM rows))

/-- `append_strictly_newer` after its checks of the incoming bars. -/
def appendIncoming (series : ClosedSeries F) (incoming : List (MarketBar F))
    (ascends : incoming.Pairwise (·.time < ·.time)) (formed : ∀ bar ∈ incoming, bar.WellFormed) :
    Except PyError (ClosedSeries F) :=
  if series.format ≠ .csv then
    .error (.mdUnsupportedFeature "Bounded incremental append is supported only for CSV segments")
  else
    match incoming with
    | [] => .ok series
    | first :: rest =>
        match last : series.bars.getLast? with
        | none => .error (.mdInvalidExchangeResponse "Cannot append to an empty segment manifest" [])
        | some stored =>
            have ends : series.endTime = some stored.time := by rw [ClosedSeries.endTime, last]; rfl
            if before : first.time < stored.time then
              .error (.mdCacheConflict "Append candle is older than stored tail"
                [("time", .int first.time), ("stored_tail", .int stored.time)])
            else if same : first.time = stored.time then
              if sameCanonicalCandle first stored then
                match rest with
                | [] => .ok series
                | second :: others =>
                    extendSeries series stored.time second others ends
                      (List.pairwise_cons.mp ascends).2
                      (same ▸ List.rel_of_pairwise_cons ascends List.mem_cons_self)
                      (fun bar member => formed bar (List.mem_cons_of_mem _ member))
              else .error (conflict "Conflicting tail candle" first.time)
            else
              extendSeries series stored.time first rest ends ascends
                (lt_of_le_of_ne (not_lt.mp before) (Ne.symm same)) formed

/-- `append_strictly_newer` on what is stored. -/
def appendSeries (stored : Option (ClosedSeries F)) (bars : List (MarketBar F)) (key : SeriesKey) :
    Except PyError (ClosedSeries F) :=
  match accepted : validatedAppendBars bars key with
  | .error error => .error error
  | .ok incoming =>
      match stored with
      | none => replaceSeries .csv incoming key
      | some series => appendIncoming series incoming (validatedAppendBars_sorted accepted)
          (validatedAppendBars_formed accepted)

def storedBars (stored : Option (ClosedSeries F)) : List (MarketBar F) :=
  (stored.map ClosedSeries.bars).getD []

/-- The locked read, merge and replacement of the service: incoming bars replace stored ones. -/
def mergeSeries (stored : Option (ClosedSeries F)) (incoming : List (MarketBar F)) (key : SeriesKey) :
    Except PyError (ClosedSeries F) :=
  replaceSeries .csv (mergeByTime (storedBars stored) incoming) key

variable [Sha256]

/-- `_upsert_closed_locked` of a store whose format is CSV. -/
def upsertSeries (stored : Option (ClosedSeries F)) (bar : MarketBar F) :
    Except PyError (ClosedSeries F) := do
  checkClosedConflict (storedBars stored) bar
  replaceSeries .csv (insertByTime (storedBars stored) bar) bar.key

/-- `commit_closed` under the writer lock. -/
def commitSeries (stored : Option (ClosedSeries F)) (bar : MarketBar F) :
    Except PyError (CommitStatus × ClosedSeries F) :=
  match stored with
  | none => (CommitStatus.committed, ·) <$> upsertSeries none bar
  | some series =>
      if series.format = .csv ∧ series.endTime.any (· < bar.time) = true then
        (CommitStatus.committed, ·) <$> appendSeries (some series) [bar] bar.key
      else
        match series.find bar.time with
        | some existing => (·, series) <$> compareClosed existing bar
        | none => (CommitStatus.committed, ·) <$> upsertSeries (some series) bar

section Bulk

omit [Sha256] [PyText]

def conflictingClosed (time : Int) : PyError :=
  .valueError s!"conflicting closed candle at {time}"

/-- The first of equal bars stays. -/
def keepFirst (kept : List (MarketBar F)) (bar : MarketBar F) : Except PyError (List (MarketBar F)) :=
  match barAt kept bar.time with
  | none => .ok (kept ++ [bar])
  | some current =>
      if sameCanonicalCandle current bar then .ok kept else .error (conflictingClosed bar.time)

/-- `_normalize_closed_batch` -/
def normalizeClosedBatch (bars : List (MarketBar F)) : Except PyError (List (MarketBar F)) :=
  (sortByTime bars).foldlM keepFirst []

/-- Whether one of the bars is not stored; a stored one has to be equal. -/
def requiresBackfill (existing : List (MarketBar F)) (overlap : List (MarketBar F)) :
    Except PyError Bool :=
  overlap.foldlM (fun missing bar =>
    match barAt existing bar.time with
    | none => .ok true
    | some current =>
        if sameCanonicalCandle current bar then .ok missing
        else .error (conflictingClosed bar.time)) false

/-- The stored bars with the missing ones behind them. -/
def addMissing (existing incoming : List (MarketBar F)) : Except PyError (List (MarketBar F)) :=
  incoming.foldlM keepFirst existing

end Bulk

omit [Sha256] in
/-- `_bulk_write_closed` of a batch of one series. -/
def bulkWriteSeries (stored : Option (ClosedSeries F)) (first : MarketBar F)
    (rest : List (MarketBar F)) : Except PyError (Nat × ClosedSeries F) := do
  let incoming ← normalizeClosedBatch (first :: rest)
  match stored.bind fun series => series.endTime.map fun endTime => (series, endTime) with
  | none => (incoming.length, ·) <$> replaceSeries .csv incoming first.key
  | some (series, endTime) => do
      let overlap := incoming.filter fun bar => bar.time ≤ endTime
      let tail := incoming.filter fun bar => endTime < bar.time
      let bounds := overlap.head?.bind fun head => overlap.getLast?.map fun last =>
        (head.time, last.time + 1)
      let existing := match bounds with
        | none => []
        | some (start, stop) => series.range (some start) (some stop)
      if ← requiresBackfill existing overlap then do
        let merged ← addMissing series.bars incoming
        (merged.length - series.bars.length, ·) <$> replaceSeries .csv merged first.key
      else if tail.isEmpty then .ok (0, series)
      else (tail.length, ·) <$> appendSeries (some series) tail first.key

end MarketdataProvider
