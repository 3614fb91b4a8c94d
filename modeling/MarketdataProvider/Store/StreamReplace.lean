import MarketdataProvider.Foundation.Cleanup
import MarketdataProvider.Store.StoredGeneration

namespace MarketdataProvider

open Foundation Foundation.Crash

/-- An iterator hands out its bars, and then it ends or raises. -/
structure BarIterator (F : Type) where
  bars : List (MarketBar F)
  raises : Option PyError

/-- A bar is out of order or has invalid prices, or the iterator raises. -/
inductive BarIterator.Faulty {F : Type} [PyFloat F] (iterator : BarIterator F) : Prop where
  | raising (error : PyError) (known : iterator.raises = some error)
  | unordered (disorder : ¬ iterator.bars.Pairwise (·.time < ·.time))
  | invalid (bar : MarketBar F) (member : bar ∈ iterator.bars) (malformed : ¬ bar.toBar.WellFormed)

/-- The series, and the temporary file that its writer fills. -/
abbrev StreamHost := SeriesState × Option (List UInt8)

abbrev StreamProg (Value : Type) := Prog StreamHost PyError Value

/-- The local variables of the writer. -/
structure StreamProgress (F : Type) where
  digest : List UInt8
  rowsCount : Nat
  first : Option (MarketBar F)
  last : Option (MarketBar F)
  downloadedAt : Int
  previousTime : Option Int

namespace StreamProgress

variable {F : Type}

def start : StreamProgress F where
  digest := []
  rowsCount := 0
  first := none
  last := none
  downloadedAt := 0
  previousTime := none

def take (progress : StreamProgress F) (bar : MarketBar F) (update : List UInt8) : StreamProgress F where
  digest := progress.digest ++ update
  rowsCount := progress.rowsCount + 1
  first := progress.first.or (some bar)
  last := some bar
  downloadedAt := max progress.downloadedAt (bar.downloadedAt.getD 0)
  previousTime := some bar.time

def manifest (progress : StreamProgress F) [Sha256] (key : SeriesKey) : SegmentManifest where
  runtimeContractVersion := runtimeContractVersion
  schemaVersion := "stage-d-csv-3"
  exchange := key.exchange
  market := key.market
  symbol := key.symbol
  timeframe := key.timeframe
  sourceTransport := (progress.first.map MarketBar.sourceTransport).getD "ws"
  sourceKind := key.sourceKind
  rowsCount := progress.rowsCount
  startTime := progress.first.map fun bar => bar.time
  endTime := progress.last.map fun bar => bar.time
  checksum := hexDigest progress.digest
  dataFormat := .csv
  checksumAlgorithm := tailChainChecksum
  baseChecksum := some (hexDigest progress.digest)
  baseRowsCount := some progress.rowsCount

end StreamProgress

section Program

variable [PyText] {F : Type} [PyFloat F]

omit [PyText] in
def writeTemporary (bytes : List UInt8) : StreamProg Unit :=
  Prog.modify fun host => (host.1, host.2.map (· ++ bytes))

omit [PyText] in
/-- `if os.path.exists(tmp): os.unlink(tmp)` -/
def unlinkTemporary : StreamProg Unit := Prog.modify fun host => (host.1, none)

omit [PyText] in
/-- `os.replace(tmp, data_path)` -/
def moveTemporary : StreamProg Unit :=
  Prog.modify fun host => (host.1.createData (.bars .csv) (host.2.getD []), none)

/-- `for bar in bars` -/
def streamLoop (raises : Option PyError) :
    StreamProgress F → List (MarketBar F) → StreamProg (StreamProgress F)
  | progress, [] =>
      match raises with
      | none => return progress
      | some error => Prog.fail error
  | progress, bar :: rest =>
      if progress.previousTime.any (bar.time ≤ ·) then
        Prog.fail (.mdInvalidExchangeResponse "Segment stream must be strictly ordered by time" [])
      else do
        Prog.ofExcept (validateBars [bar.toBar])
        writeTemporary (csvAppendPayload [bar])
        let update ← Prog.ofExcept (updateChecksum .v4 bar)
        streamLoop raises (progress.take bar update) rest

/-- The protocol after the last row: the temporary file becomes the data file. -/
def commitStream (store : SegmentStore) (manifest : SegmentManifest) (downloadedAt : Int) :
    StreamProg SegmentManifest := do
  let host ← Prog.read
  (beginReplacement store (host.1.manifest.map RawManifest.toManifest) manifest downloadedAt).beside _
  moveTemporary
  Prog.beside _ do
    writeManifest manifest
    replaceIndexManifest manifest downloadedAt
    finishReplacement
    return manifest

/-- `replace_all_stream` over an iterator, with its temporary file. -/
def replaceAllIterator [Sha256] (store : SegmentStore) (iterator : BarIterator F) (key : SeriesKey) :
    StreamProg SegmentManifest := do
  (recoverSeries .seriesLock).beside _
  let normalized ← Prog.ofExcept (normalizedKey key)
  Prog.modify fun host => (host.1, some [])
  Prog.ensuring (do
    writeTemporary (csvFile ([] : List (MarketBar F)))
    let progress ← streamLoop iterator.raises .start iterator.bars
    commitStream store (progress.manifest normalized) progress.downloadedAt) unlinkTemporary

end Program

section Loop

variable [PyText] {F : Type} [PyFloat F] {progress : StreamProgress F} {bars : List (MarketBar F)}

omit [PyText] [PyFloat F] in
/-- What the writer knows after it has taken some bars. -/
def StreamProgress.after (progress : StreamProgress F) (bars : List (MarketBar F)) (digest : List UInt8) :
    StreamProgress F where
  digest := progress.digest ++ digest
  rowsCount := progress.rowsCount + bars.length
  first := progress.first.or bars.head?
  last := bars.getLast?.or progress.last
  downloadedAt :=
    bars.foldl (fun greatest bar => max greatest (bar.downloadedAt.getD 0)) progress.downloadedAt
  previousTime := (bars.getLast?.map fun bar => bar.time).or progress.previousTime

omit [PyText] [PyFloat F] in
theorem StreamProgress.after_take (bar : MarketBar F) (update digest : List UInt8) :
    (progress.take bar update).after bars digest = progress.after (bar :: bars) (update ++ digest) := by
  have count : progress.rowsCount + 1 + bars.length = progress.rowsCount + (bars.length + 1) := by omega
  have first : (progress.first.or (some bar)).or bars.head? = progress.first.or (some bar) := by
    cases progress.first <;> rfl
  simp only [after, take, List.append_assoc, List.length_cons, List.head?_cons, List.foldl_cons,
    List.getLast?_cons, count, first]
  cases bars.getLast? <;> rfl

omit [PyText] in
theorem csvAppendPayload_cons (bar : MarketBar F) :
    csvAppendPayload (bar :: bars) = csvAppendPayload [bar] ++ csvAppendPayload bars := by
  simp [csvAppendPayload, encodeUtf8_append]

/-- The outcome of the loop; the rows alone do not say how the iterator ends. -/
def streamOutcome (raises : Option PyError) (progress : StreamProgress F) (bars : List (MarketBar F)) :
    Except PyError (StreamProgress F) := do
  let digest ← streamBars progress.previousTime bars
  match raises with
  | none => .ok (progress.after bars digest)
  | some error => .error error

/-- The loop writes to its temporary file only, and it holds every row once the loop is over. -/
theorem run_streamLoop (raises : Option PyError) (progress : StreamProgress F) (bars : List (MarketBar F))
    (series : SeriesState) (content : List UInt8) : ∃ left,
    (streamLoop raises progress bars).run (series, some content) =
      (streamOutcome raises progress bars, (series, some left)) ∧
    ((streamOutcome raises progress bars).toBool = true → left = content ++ csvAppendPayload bars) := by
  induction bars generalizing progress content with
  | nil =>
      refine ⟨content, ?_, fun _ => (List.append_nil content).symm⟩
      have same : progress.after [] [] = progress := by
        cases progress
        simp [StreamProgress.after]
      cases raises with
      | none => exact congrArg (fun last => (Except.ok last, series, some content)) same.symm
      | some error => rfl
  | cons bar rest ih =>
      rw [streamLoop, streamOutcome, streamBars]
      split
      · exact ⟨content, rfl, fun impossible => Bool.noConfusion impossible⟩
      · cases checked : validateBars [bar.toBar] with
        | error error => exact ⟨content, rfl, fun impossible => Bool.noConfusion impossible⟩
        | ok done =>
            cases updated : updateChecksum .v4 bar with
            | error error => exact ⟨_, rfl, fun impossible => Bool.noConfusion impossible⟩
            | ok update =>
                obtain ⟨left, ran, written⟩ := ih (progress.take bar update) (content ++ csvAppendPayload [bar])
                have later : streamOutcome raises (progress.take bar update) rest =
                    ((streamBars (some bar.time) rest >>= fun later => return update ++ later) >>=
                      fun digest => match raises with
                        | none => .ok (progress.after (bar :: rest) digest)
                        | some error => .error error) := by
                  rw [streamOutcome]
                  change (streamBars (some bar.time) rest >>= _) = _
                  cases streamBars (some bar.time) rest with
                  | error error => rfl
                  | ok digest =>
                      cases raises with
                      | none => exact congrArg Except.ok (StreamProgress.after_take bar update digest)
                      | some error => rfl
                rw [later] at ran written
                refine ⟨left, ran, ?_⟩
                intro returned
                rw [csvAppendPayload_cons, ← List.append_assoc]
                exact written returned

end Loop

section Valid

variable [PyText] {F : Type} [PyFloat F] {bars : List (MarketBar F)} {previous : Option Int}

/-- The streaming writer accepts well-formed bars only. -/
theorem streamBars_formed {digest : List UInt8} (streamed : streamBars previous bars = .ok digest) :
    ∀ bar ∈ bars, bar.toBar.WellFormed := by
  induction bars generalizing previous digest with
  | nil => simp
  | cons bar rest ih =>
      rw [streamBars] at streamed
      split at streamed
      · cases streamed
      · obtain ⟨_, checked, streamed⟩ := bind_eq_ok.mp streamed
        obtain ⟨_, _, streamed⟩ := bind_eq_ok.mp streamed
        obtain ⟨_, streamed, _⟩ := bind_eq_ok.mp streamed
        intro other member
        rcases List.mem_cons.mp member with rfl | late
        · exact ((validateBars_ok_iff _).mp checked).2 _ List.mem_cons_self
        · exact ih streamed other late

/-- Over ordered and well-formed bars the streaming writer digests the rows one after the other. -/
theorem streamBars_eq (newer : ∀ last, previous = some last → ∀ bar ∈ bars, last < bar.time)
    (sorted : bars.Pairwise (·.time < ·.time)) (formed : ∀ bar ∈ bars, bar.toBar.WellFormed) :
    streamBars previous bars = (bars.mapM (updateChecksum .v4)).map List.flatten := by
  induction bars generalizing previous with
  | nil => rfl
  | cons bar rest ih =>
      have ordered : previous.any (bar.time ≤ ·) = false := by
        cases previous with
        | none => rfl
        | some last => simpa using newer last rfl bar List.mem_cons_self
      have valid : validateBars [bar.toBar] = .ok () := by
        apply (validateBars_ok_iff _).mpr
        simpa using formed bar List.mem_cons_self
      obtain ⟨later, sorted⟩ := List.pairwise_cons.mp sorted
      have after : ∀ last, some bar.time = some last → ∀ other ∈ rest, last < other.time := by
        intro last same
        obtain rfl := Option.some.inj same
        exact later
      rw [streamBars, ordered, if_neg Bool.false_ne_true, valid, ok_bind, List.mapM_cons,
        ih after sorted (List.forall_mem_cons.mp formed).2]
      cases updateChecksum .v4 bar with
      | error error => rfl
      | ok update =>
          rw [ok_bind, ok_bind]
          cases rest.mapM (updateChecksum .v4) <;> rfl

end Valid

section Run

variable [PyText] {F : Type} [PyFloat F] [Sha256] [Parquet] {store : SegmentStore} {key : SeriesKey}
  {bars : List (MarketBar F)}

omit [PyFloat F] [Sha256] [Parquet] in
/-- The protocol leaves the series as the one over bytes in memory does. -/
theorem run_commitStream (manifest : SegmentManifest) (csv : manifest.dataFormat = .csv) (downloadedAt : Int)
    (series : SeriesState) (content : List UInt8) : ∃ left,
    (commitStream store manifest downloadedAt).run (series, some content) =
      (((commitReplacement store manifest (.ok content) downloadedAt).run series).1,
        (((commitReplacement store manifest (.ok content) downloadedAt).run series).2, left)) := by
  let begins := beginReplacement store (series.manifest.map RawManifest.toManifest) manifest downloadedAt
  have streamed : (commitStream store manifest downloadedAt).run (series, some content) =
      (begins.beside _ >>= fun _ => moveTemporary >>= fun _ => Prog.beside _ do
        writeManifest manifest
        replaceIndexManifest manifest downloadedAt
        finishReplacement
        return manifest).run (series, some content) := rfl
  have direct : (commitReplacement store manifest (.ok content) downloadedAt).run series =
      (begins >>= fun _ => Prog.modify (·.createData (.bars manifest.dataFormat) content) >>= fun _ => do
        writeManifest manifest
        replaceIndexManifest manifest downloadedAt
        finishReplacement
        return manifest).run series := rfl
  rw [streamed, direct, csv, Prog.run_bind, Prog.run_bind, Prog.run_beside]
  rcases begins.run series with ⟨error | done, begun⟩
  · exact ⟨some content, rfl⟩
  · exact ⟨none, Prog.run_beside _ (begun.createData (.bars .csv) content) none⟩

/-- The plan of an iterator is that of its bars, unless it raises after them. -/
def iteratorPlan (iterator : BarIterator F) (key : SeriesKey) : Except PyError ReplacePlan := do
  let plan ← replaceAllStreamPlan iterator.bars key
  match iterator.raises with
  | none => .ok plan
  | some error => .error error

omit [Parquet] in
/-- The loop over an iterator knows at its end what the plan says. -/
theorem iteratorPlan_eq {normalized : SeriesKey} (named : normalizedKey key = .ok normalized)
    (iterator : BarIterator F) : iteratorPlan iterator key =
      (streamOutcome iterator.raises .start iterator.bars).map fun progress =>
        ⟨progress.manifest normalized, .ok (csvFile iterator.bars), progress.downloadedAt⟩ := by
  rw [iteratorPlan, replaceAllStreamPlan, named, streamOutcome]
  change (streamBars none iterator.bars >>= _) >>= _ = ((streamBars none iterator.bars >>= _).map _)
  cases streamBars none iterator.bars with
  | error error => rfl
  | ok digest =>
      cases iterator.raises with
      | some error => rfl
      | none =>
          have same : (StreamProgress.start.after iterator.bars digest).manifest normalized =
              generationManifest normalized .csv iterator.bars (hexDigest digest) := by
            simp [StreamProgress.manifest, StreamProgress.after, StreamProgress.start, generationManifest,
              SegmentFormat.schemaVersion]
          change Except.ok _ = Except.ok _
          rw [← same]
          rfl

omit [Parquet] in
/-- The writer over an iterator does to the series what the plan does, and no temporary file is left. -/
theorem run_replaceAllIterator (iterator : BarIterator F) (state : SeriesState) :
    (replaceAllIterator store iterator key).run (state, none) =
      (((recoverSeries .seriesLock >>= fun _ => runPlan store (iteratorPlan iterator key)).run state).1,
        ((recoverSeries .seriesLock >>= fun _ => runPlan store (iteratorPlan iterator key)).run state).2,
        none) := by
  rw [replaceAllIterator, Prog.run_bind, Prog.run_bind, Prog.run_beside]
  rcases (recoverSeries .seriesLock).run state with ⟨error | done, series⟩
  · rfl
  · dsimp only
    cases named : normalizedKey key with
    | error error =>
        rw [iteratorPlan, replaceAllStreamPlan, named]
        rfl
    | ok normalized =>
        let body : StreamProg SegmentManifest := do
          writeTemporary (csvFile ([] : List (MarketBar F)))
          let progress ← streamLoop iterator.raises .start iterator.bars
          commitStream store (progress.manifest normalized) progress.downloadedAt
        have ran : ∃ left, body.run (series, some []) =
            (((runPlan store (iteratorPlan iterator key)).run series).1,
              ((runPlan store (iteratorPlan iterator key)).run series).2, left) := by
          obtain ⟨left, looped, written⟩ := run_streamLoop iterator.raises .start iterator.bars series
            ([] ++ csvFile ([] : List (MarketBar F)))
          rw [iteratorPlan_eq named]
          change ∃ left, (streamLoop iterator.raises .start iterator.bars >>= _).run
            (series, some ([] ++ csvFile ([] : List (MarketBar F)))) = _
          rw [Prog.run_bind, looped]
          cases outcome : streamOutcome iterator.raises .start iterator.bars with
          | error error => exact ⟨some left, rfl⟩
          | ok progress =>
              have rows : left = csvFile iterator.bars := by
                rw [written (by rw [outcome]; rfl), List.nil_append, ← csvFile_append, List.nil_append]
              rw [rows]
              exact run_commitStream _ rfl progress.downloadedAt series _
        obtain ⟨left, ran⟩ := ran
        change (body.ensuring unlinkTemporary).run (series, some []) = _
        have cleaned : unlinkTemporary.run (body.run (series, some [])).2 =
            (.ok (), ((runPlan store (iteratorPlan iterator key)).run series).2, none) := by
          rw [ran]
          rfl
        have ended := Prog.run_ensuring cleaned
        rw [ran] at ended
        exact ended

omit [Parquet] in
/-- A faulty iterator has no plan. -/
theorem iteratorPlan_faulty {iterator : BarIterator F} (faulty : iterator.Faulty) :
    ∃ error, iteratorPlan iterator key = .error error := by
  cases made : iteratorPlan iterator key with
  | error error => exact ⟨error, rfl⟩
  | ok plan =>
      obtain ⟨whole, planned, ends⟩ := bind_eq_ok.mp made
      obtain ⟨normalized, digest, -, streamed, -⟩ := replaceAllStreamPlan_ok planned
      cases faulty with
      | raising error known =>
          rw [known] at ends
          cases ends
      | unordered disorder => exact absurd (streamBars_ok streamed).2.1 disorder
      | invalid bar member malformed => exact absurd (streamBars_formed streamed bar member) malformed

end Run

section Dates

variable {F : Type} {bars : List (MarketBar F)}

theorem foldl_max_downloadedAt (floor greatest : Int) :
    bars.foldl (fun greatest bar => max greatest (bar.downloadedAt.getD 0)) (max floor greatest) =
      max floor (bars.foldl (fun greatest bar => max greatest (bar.downloadedAt.getD 0)) greatest) := by
  induction bars generalizing greatest with
  | nil => rfl
  | cons bar rest ih =>
      have regrouped : max (max floor greatest) (bar.downloadedAt.getD 0) =
          max floor (max greatest (bar.downloadedAt.getD 0)) := by omega
      rw [List.foldl_cons, List.foldl_cons, regrouped]
      exact ih (max greatest (bar.downloadedAt.getD 0))

theorem le_foldl_downloadedAt (floor greatest : Int) :
    floor ≤ bars.foldl (fun greatest bar => max greatest (bar.downloadedAt.getD 0)) greatest ↔
      floor ≤ greatest ∨ ∃ bar ∈ bars, floor ≤ bar.downloadedAt.getD 0 := by
  induction bars generalizing greatest with
  | nil => simp
  | cons bar rest ih =>
      have first : floor ≤ max greatest (bar.downloadedAt.getD 0) ↔
          floor ≤ greatest ∨ floor ≤ bar.downloadedAt.getD 0 := by omega
      rw [List.foldl_cons, ih, first, List.exists_mem_cons_iff, or_assoc]

/-- Counting from zero is right unless every download time is negative. -/
theorem downloadedAt_from_zero_iff :
    bars.foldl (fun greatest bar => max greatest (bar.downloadedAt.getD 0)) 0 =
        generationDownloadedAt bars ↔
      bars = [] ∨ ∃ bar ∈ bars, 0 ≤ bar.downloadedAt.getD 0 := by
  cases bars with
  | nil => simp [generationDownloadedAt]
  | cons first rest =>
      have reached := @le_foldl_downloadedAt F rest 0 (first.downloadedAt.getD 0)
      rw [List.foldl_cons, foldl_max_downloadedAt, generationDownloadedAt, maxDownloadedAt,
        List.exists_mem_cons_iff, ← reached]
      constructor
      · intro same
        right
        omega
      · intro dated
        have known := dated.resolve_left (List.cons_ne_nil _ _)
        omega

end Dates

section Replacement

variable [PyText] {F : Type} [PyFloat F] [Sha256] [Parquet] {store : SegmentStore} {key : SeriesKey}
  {bars : List (MarketBar F)} {state : SeriesState}

/-- Streamed or not, an ordered list of well-formed bars has one plan. -/
theorem replaceAllPlan_eq_stream (csv : store.dataFormat = .csv) (valid : validateMarketBars bars = .ok ())
    (dated : bars = [] ∨ ∃ bar ∈ bars, 0 ≤ bar.downloadedAt.getD 0) :
    replaceAllPlan store bars key none = replaceAllStreamPlan bars key := by
  have sorted := validateMarketBars_sorted valid
  have formed : ∀ bar ∈ bars, bar.toBar.WellFormed := by
    intro bar member
    exact ((validateBars_ok_iff _).mp valid).2 _ (List.mem_map_of_mem member)
  rw [replaceAllPlan, generationPlan, Option.getD_none, csv, if_neg (fun both => by cases both.1),
    sortByTime_eq_self sorted, valid, ok_bind, replaceAllStreamPlan, streamBars_eq (by simp) sorted formed,
    barsChecksum, versionedBarsChecksum, sortByTime_eq_self sorted, rowsDigest,
    downloadedAt_from_zero_iff.mpr dated]
  cases normalizedKey key with
  | error error => rfl
  | ok normalized => cases bars.mapM (updateChecksum .v4) <;> rfl

/-- A streamed replacement does what the replacement by a list does. -/
theorem stream_eq_list (csv : store.dataFormat = .csv) (valid : validateMarketBars bars = .ok ())
    (dated : bars = [] ∨ ∃ bar ∈ bars, 0 ≤ bar.downloadedAt.getD 0) :
    (replaceAllIterator store ⟨bars, none⟩ key).run (state, none) =
      (((replaceAll store bars key none).run state).1, ((replaceAll store bars key none).run state).2, none) := by
  have plan : iteratorPlan ⟨bars, none⟩ key = replaceAllPlan store bars key none := by
    rw [replaceAllPlan_eq_stream csv valid dated, iteratorPlan]
    cases replaceAllStreamPlan bars key <;> rfl
  rw [run_replaceAllIterator, plan]
  rfl

omit [Parquet] in
/-- A faulty iterator raises, and the series is as the lock has found it. -/
theorem stream_faulty {iterator : BarIterator F} (faulty : iterator.Faulty) :
    ∃ error, (replaceAllIterator store iterator key).run (state, none) =
      (.error error, ((recoverSeries .seriesLock).run state).2, none) := by
  obtain ⟨error, refused⟩ := @iteratorPlan_faulty _ _ _ _ key _ faulty
  rw [run_replaceAllIterator, refused, Prog.run_bind]
  rcases (recoverSeries .seriesLock).run state with ⟨other | done, series⟩
  · exact ⟨other, rfl⟩
  · exact ⟨error, rfl⟩

omit [Sha256] [Parquet] in
/-- The lock leaves a series without journals alone. -/
theorem run_recoverSeries_quiet (append : state.appendJournal = none) (replace : state.replaceJournal = none) :
    (recoverSeries .seriesLock).run state = (.ok (), state) := by
  obtain ⟨-, done, after, returned, rfl⟩ := recoverSeries_quiet state append replace .seriesLock
  exact returned

/-- The two replacements agree and the streamed one is atomic. -/
theorem streamed_replacement_atomic (csv : store.dataFormat = .csv) (key : SeriesKey) :
    (∀ (bars : List (MarketBar F)) (state : SeriesState), validateMarketBars bars = .ok () →
      (bars = [] ∨ ∃ bar ∈ bars, 0 ≤ bar.downloadedAt.getD 0) →
        (replaceAllIterator store ⟨bars, none⟩ key).run (state, none) =
          (((replaceAll store bars key none).run state).1,
            ((replaceAll store bars key none).run state).2, none)) ∧
    (∀ (iterator : BarIterator F) (state : SeriesState), iterator.Faulty →
      ∃ error, (replaceAllIterator store iterator key).run (state, none) =
        (.error error, ((recoverSeries .seriesLock).run state).2, none)) ∧
    (∀ (iterator : BarIterator F) (state : SeriesState), iterator.Faulty →
      state.appendJournal = none → state.replaceJournal = none →
        ∃ error, (replaceAllIterator store iterator key).run (state, none) = (.error error, state, none)) := by
  refine ⟨?_, ?_, ?_⟩
  · intro bars state valid dated
    exact stream_eq_list csv valid dated
  · intro iterator state faulty
    exact stream_faulty faulty
  · intro iterator state faulty append replace
    have raised : ∃ error, (replaceAllIterator store iterator key).run (state, none) =
        (.error error, ((recoverSeries .seriesLock).run state).2, none) := stream_faulty faulty
    rw [run_recoverSeries_quiet append replace] at raised
    exact raised

end Replacement

end MarketdataProvider

namespace MarketdataProvider

open Reference Foundation Foundation.Crash
open scoped Reference

namespace Reference

def csvStore : SegmentStore := ⟨.csv, true, false⟩

/-- A candle whose download time lies before the epoch. -/
def earlyCandle : MarketBar Whole := { candle 0 with downloadedAt := some (-1) }

def newSeries : SeriesState := .empty ((seriesDirectory series).toOption.getD [])

/-- The series of one candle after a writer of the next candle has died behind its journal. -/
def interrupted : SeriesState :=
  { oneCandle with
    appendJournal := some (extensionJournal oneCandle manifest manifest (csvFile [candle 0]) (candle 60000) []
      ((extendTailChainAll .v4 manifest.checksum [candle 60000]).toOption.getD "")) }

end Reference

/-- The index keeps the time of the list, and zero after the stream; a stream that raises at once has
recovered the pending journal all the same. -/
theorem streamed_replacement_differs :
    (validateMarketBars [earlyCandle] = .ok () ∧
      ((replaceAllIterator csvStore ⟨[earlyCandle], none⟩ series).run (newSeries, none)).2.1.index.map
        IndexRow.downloadedAt = [0] ∧
      ((replaceAll csvStore [earlyCandle] series none).run newSeries).2.index.map IndexRow.downloadedAt = [-1]) ∧
    (⟨[], some .typeError⟩ : BarIterator Whole).Faulty ∧ interrupted.appendJournal.isSome = true ∧
      ((replaceAllIterator csvStore (⟨[], some .typeError⟩ : BarIterator Whole) series).run
        (interrupted, none)).2.1.appendJournal.isSome = false := by
  refine ⟨by decide +kernel, .raising .typeError rfl, rfl, ?_⟩
  decide +kernel

/-- The candle comes twice, or the iterator raises after it: nothing stays behind. -/
theorem streamed_replacement_atomic_oneCandle :
    (replaceAllIterator csvStore ⟨[candle 0], none⟩ series).run (newSeries, none) =
      (((replaceAll csvStore [candle 0] series none).run newSeries).1,
        ((replaceAll csvStore [candle 0] series none).run newSeries).2, none) ∧
    (∃ error, (replaceAllIterator csvStore ⟨[candle 0, candle 0], none⟩ series).run (oneCandle, none) =
      (.error error, ((recoverSeries .seriesLock).run oneCandle).2, none)) ∧
    ∃ error, (replaceAllIterator csvStore ⟨[candle 60000], some .typeError⟩ series).run (oneCandle, none) =
      (.error error, oneCandle, none) := by
  obtain ⟨agree, recovers, raises⟩ := @streamed_replacement_atomic _ Whole _ _ _ csvStore rfl series
  refine ⟨?_, ?_, ?_⟩
  · apply agree
    · decide +kernel
    · exact .inr ⟨candle 0, List.mem_cons_self, by decide⟩
  · apply recovers
    apply BarIterator.Faulty.unordered
    decide +kernel
  · apply raises
    · exact .raising .typeError rfl
    · rfl
    · rfl

end MarketdataProvider
