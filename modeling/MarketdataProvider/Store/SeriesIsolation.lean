import MarketdataProvider.Store.RawStore

namespace MarketdataProvider

open Foundation Foundation.Crash

/-- The series below one store root, over one index table. -/
structure SegmentTree where
  series : List String → SeriesState
  index : List IndexRow

namespace SegmentTree

def empty : SegmentTree := ⟨.empty, []⟩

/-- What an operation on a series finds: its own directory and the whole index. -/
def view (tree : SegmentTree) (place : List String) : SeriesState :=
  { tree.series place with directory := place, index := tree.index }

def put (tree : SegmentTree) (place : List String) (state : SeriesState) : SegmentTree :=
  ⟨Function.update tree.series place state, state.index⟩

variable [PyText]

/-- `manifest_for` -/
def manifestFor (tree : SegmentTree) (key : SeriesKey) : Except PyError (Option SegmentManifest) := do
  let place ← seriesDirectory key
  return (tree.view place).manifest.map RawManifest.toManifest

/-- The outcome of a program on the series of a key. -/
def outcome {Value : Type} (tree : SegmentTree) (key : SeriesKey) (program : StoreProg Value) :
    Except PyError Value := do
  let place ← seriesDirectory key
  (program.run (tree.view place)).1

/-- Every directory names only its own series. -/
def Owned (tree : SegmentTree) : Prop := ∀ place, Contained (tree.view place) (tree.view place)

theorem empty_owned : empty.Owned := fun _ =>
  ⟨rfl, fun _ named => (by cases named), fun _ named => (by cases named), fun _ named => (by cases named),
    fun _ _ => rfl⟩

variable {F : Type} [PyFloat F] [Sha256] [Parquet] {tree after : SegmentTree} {place other : List String}

/-- An operation, a read or a recovery that is addressed to a key: it completes, fails or crashes. -/
inductive Step (F : Type) [PyFloat F] (store : SegmentStore) (key : SeriesKey) :
    SegmentTree → SegmentTree → Prop where
  | operates {tree : SegmentTree} {place : List String} {state : SeriesState} (op : StoreOp F)
      (addressed : op.series = key) (placed : seriesDirectory key = .ok place)
      (visited : state ∈ (op.program store).visits (tree.view place)) :
      Step F store key tree (tree.put place state)
  | reads {tree : SegmentTree} {place : List String} {state : SeriesState} (pending : Nat → Bool)
      (start stop : Option Int) (placed : seriesDirectory key = .ok place)
      (visited : state ∈ (readRange F pending store start stop).visits (tree.view place)) :
      Step F store key tree (tree.put place state)
  | recovers {tree : SegmentTree} {place : List String} {state : SeriesState} (entry : RecoveryEntry)
      (placed : seriesDirectory key = .ok place)
      (visited : state ∈ (recoverSeries entry).visits (tree.view place)) :
      Step F store key tree (tree.put place state)

/-- The trees that operations on any series can make of an empty root. -/
def Reachable (F : Type) [PyFloat F] (store : SegmentStore) (tree : SegmentTree) : Prop :=
  Relation.ReflTransGen (fun before after => ∃ key, Step F store key before after) empty tree

/-- What the reads, the manifest and the recoveries of a series give is as before. -/
structure Unaffected (F : Type) [PyFloat F] (store : SegmentStore) (key : SeriesKey)
    (before after : SegmentTree) : Prop where
  manifest : after.manifestFor key = before.manifestFor key
  reads : ∀ pending start stop, after.outcome key (readRange F pending store start stop) =
    before.outcome key (readRange F pending store start stop)
  recoveries : ∀ entry place, seriesDirectory key = .ok place →
    Blind place (recoverSeries entry) (before.view place) (after.view place)

/-- Whatever is done to the first series, the second one stays as it is. -/
def Isolated (F : Type) [PyFloat F] (store : SegmentStore) (first second : SeriesKey) : Prop :=
  ∀ tree after, Reachable F store tree → Relation.ReflTransGen (Step F store first) tree after →
    Unaffected F store second tree after

/-- What a step leaves behind stays in the directory of its series. -/
theorem Step.contained {store : SegmentStore} {key : SeriesKey} (step : Step F store key tree after)
    (owned : tree.Owned) : ∃ place state, seriesDirectory key = .ok place ∧
      Contained (tree.view place) state ∧ after = tree.put place state := by
  cases step with
  | operates op addressed placed visited =>
      exact ⟨_, _, placed, ((owned _).program store op).1 _ visited, rfl⟩
  | reads pending start stop placed visited =>
      exact ⟨_, _, placed, ((owned _).readRange pending store start stop).1 _ visited, rfl⟩
  | recovers entry placed visited =>
      exact ⟨_, _, placed, ((owned _).recoverSeries entry).1 _ visited, rfl⟩

omit [PyText] [Sha256] [Parquet] in
theorem view_put_self {state : SeriesState} (here : state.directory = place) :
    (tree.put place state).view place = state := by
  simp only [view, put, Function.update_self]
  rw [← here]

omit [PyText] [Sha256] [Parquet] in
theorem view_put_of_ne {state : SeriesState} (away : other ≠ place) :
    (tree.put place state).view other = { tree.view other with index := state.index } := by
  simp only [view, put, Function.update_of_ne away]

omit [Sha256] [Parquet] in
theorem Owned.put {state : SeriesState} (owned : tree.Owned)
    (contained : Contained (tree.view place) state) : (tree.put place state).Owned := by
  have here : state.directory = place := contained.directory
  intro current
  by_cases same : current = place
  · subst same
    rw [view_put_self here]
    exact ⟨rfl, fun raw named => here.symm ▸ contained.manifest raw named,
      fun journal named => here.symm ▸ contained.append journal named,
      fun journal named => here.symm ▸ contained.replace journal named, fun _ _ => rfl⟩
  · rw [view_put_of_ne same]
    exact ⟨rfl, (owned current).manifest, (owned current).append, (owned current).replace,
      fun _ _ => rfl⟩

theorem Step.owned {store : SegmentStore} {key : SeriesKey} (step : Step F store key tree after)
    (owned : tree.Owned) : after.Owned := by
  obtain ⟨place, state, -, contained, rfl⟩ := step.contained owned
  exact owned.put contained

theorem Reachable.owned {store : SegmentStore} (reachable : Reachable F store tree) : tree.Owned := by
  induction reachable with
  | refl => exact empty_owned
  | tail _ step ih =>
      obtain ⟨key, step⟩ := step
      exact step.owned ih

/-- A step of another directory changes only index rows of its own series. -/
theorem Step.sameSeries {store : SegmentStore} {key : SeriesKey} (step : Step F store key tree after)
    (owned : tree.Owned) (placed : seriesDirectory key = .ok place) (away : other ≠ place) :
    SameSeries other (tree.view other) (after.view other) := by
  obtain ⟨found, state, same, contained, rfl⟩ := step.contained owned
  obtain rfl := Except.ok.inj (placed.symm.trans same)
  rw [view_put_of_ne away]
  refine ⟨state.index, rfl, fun foreign lives => ?_⟩
  refine contained.foreign foreign fun inside => away ?_
  exact Except.ok.inj (lives.symm.trans inside)

theorem run_sameSeries {store : SegmentStore} {key : SeriesKey}
    (steps : Relation.ReflTransGen (Step F store key) tree after) (owned : tree.Owned)
    (placed : seriesDirectory key = .ok place) (away : other ≠ place) :
    after.Owned ∧ SameSeries other (tree.view other) (after.view other) := by
  induction steps with
  | refl => exact ⟨owned, .refl _ _⟩
  | tail _ step ih =>
      obtain ⟨kept, same⟩ := ih
      exact ⟨step.owned kept, same.trans (step.sameSeries kept placed away)⟩

/-- A series cannot tell which index rows lie elsewhere. -/
theorem unaffected_of_sameSeries (store : SegmentStore) {key : SeriesKey}
    (placed : seriesDirectory key = .ok other) (owned : tree.Owned)
    (same : SameSeries other (tree.view other) (after.view other)) :
    Unaffected F store key tree after where
  manifest := by
    obtain ⟨index, alike, -⟩ := same
    simp only [manifestFor, placed, ok_bind, alike]
  reads pending start stop := by
    simp only [outcome, placed, ok_bind]
    exact (same.readRange (owned other) rfl pending store start stop).1.symm
  recoveries entry place found := by
    obtain rfl := Except.ok.inj (placed.symm.trans found)
    exact same.recoverSeries (owned other) rfl entry

/-- Series of different directories are isolated from each other. -/
theorem isolated_of_ne (store : SegmentStore) {first second : SeriesKey}
    (placed : seriesDirectory first = .ok place) (elsewhere : seriesDirectory second = .ok other)
    (away : other ≠ place) : Isolated F store first second := by
  intro tree after reachable steps
  have owned := reachable.owned
  exact unaffected_of_sameSeries store elsewhere owned (run_sameSeries steps owned placed away).2

end SegmentTree

section Raw

variable [PyText] {tree : RawTree} {first second : RawKey}

/-- Two raw identities that the sanitizer does not tell apart. -/
structure SameRawPath (first second : RawKey) : Prop where
  exchange : safePathPart first.exchange = safePathPart second.exchange
  market : safePathPart first.market = safePathPart second.market
  symbol : safePathPart first.symbol = safePathPart second.symbol
  sourceTransport : safePathPart first.sourceTransport = safePathPart second.sourceTransport
  sourceKind : safePathPart first.sourceKind = safePathPart second.sourceKind
  partition : first.namedPartition.map safePathPart = second.namedPartition.map safePathPart

theorem rawRoot_eq_iff : rawRoot first = rawRoot second ↔
    safePathPart first.exchange = safePathPart second.exchange ∧
      safePathPart first.market = safePathPart second.market ∧
        safePathPart first.symbol = safePathPart second.symbol ∧
          safePathPart first.sourceTransport = safePathPart second.sourceTransport ∧
            safePathPart first.sourceKind = safePathPart second.sourceKind := by
  simp only [rawRoot, List.cons.injEq, String.append_right_inj, lower_safePathPart_inj, true_and,
    and_true]

theorem rawDirectory_eq_iff : rawDirectory first = rawDirectory second ↔ SameRawPath first second := by
  have parts : (first.namedPartition.map fun name => "partition=" ++ safePathPart name).toList =
      (second.namedPartition.map fun name => "partition=" ++ safePathPart name).toList ↔
        first.namedPartition.map safePathPart = second.namedPartition.map safePathPart := by
    cases first.namedPartition <;> cases second.namedPartition <;> simp
  constructor
  · intro same
    obtain ⟨root, names⟩ := List.append_inj same rfl
    obtain ⟨exchange, market, symbol, transport, kind⟩ := rawRoot_eq_iff.mp root
    exact ⟨exchange, market, symbol, transport, kind, parts.mp names⟩
  · rintro ⟨exchange, market, symbol, transport, kind, partition⟩
    rw [rawDirectory, rawDirectory, parts.mpr partition,
      rawRoot_eq_iff.mpr ⟨exchange, market, symbol, transport, kind⟩]

variable {Payload : Type} [RawJson Payload] [Zstandard] [Sha256] {batches : List (List Payload)}

/-- One batch after the other is written under a key. -/
def RawTree.writeBatches (tree : RawTree) (compression : Compression) (key : RawKey)
    (batches : List (List Payload)) : RawTree :=
  batches.foldl (fun current payloads => current.writeBatch compression key payloads) tree

theorem directory_writeBatch_of_ne (compression : Compression) (payloads : List Payload)
    {place : List String} (away : place ≠ rawDirectory first) :
    (tree.writeBatch compression first payloads).directory place = tree.directory place := by
  simp only [RawTree.writeBatch, Function.update_of_ne away]

theorem readBatch_writeBatch_of_ne (compression : Compression) (payloads : List Payload)
    (away : rawDirectory second ≠ rawDirectory first) :
    (tree.writeBatch compression first payloads).readBatch Payload second =
      tree.readBatch Payload second := by
  simp only [RawTree.readBatch, directory_writeBatch_of_ne compression payloads away]

omit [Zstandard] [Sha256] in
/-- The directory of a key lies below its root and no other one. -/
theorem partitionName_of_ne {root : List String} (size : root.length = 6)
    (away : rawRoot first ≠ root) : partitionName root (rawDirectory first) = none := by
  unfold partitionName
  split
  · rw [if_neg]
    rintro ⟨under, -⟩
    rw [size, rawDirectory] at under
    exact away under
  · rfl

/-- A batch of another series adds no partition to a root. -/
theorem partitions_writeBatch_of_ne (compression : Compression) (payloads : List Payload)
    {root : List String} (size : root.length = 6) (away : rawRoot first ≠ root) :
    (tree.writeBatch compression first payloads).partitions root = tree.partitions root := by
  have elsewhere : partitionName root (rawDirectory first) = none := partitionName_of_ne size away
  have named (place : List String) :
      (if ((tree.writeBatch compression first payloads).directory place).manifest.isSome then
        partitionName root place else none) =
      if (tree.directory place).manifest.isSome then partitionName root place else none := by
    by_cases same : place = rawDirectory first
    · rw [same, elsewhere, ite_self, ite_self]
    · rw [directory_writeBatch_of_ne compression payloads same]
  have same : ∀ places : List (List String),
      (places.filter fun place =>
        ((tree.writeBatch compression first payloads).directory place).manifest.isSome).filterMap
          (partitionName root) =
      (places.filter fun place => (tree.directory place).manifest.isSome).filterMap
        (partitionName root) := by
    intro places
    rw [List.filterMap_filter, List.filterMap_filter]
    exact List.filterMap_congr fun place _ => named place
  rw [RawTree.partitions, RawTree.partitions, same]
  congr 1
  simp only [RawTree.writeBatch]
  split
  · rfl
  · rw [List.filterMap_filter, List.filterMap_filter, List.filterMap_cons, elsewhere, ite_self]

theorem readPartitions_writeBatch_of_ne (compression : Compression) (payloads : List Payload)
    (away : rawRoot first ≠ rawRoot second) :
    (tree.writeBatch compression first payloads).readPartitions Payload second =
      tree.readPartitions Payload second := by
  have apart (name : Option String) :
      rawDirectory { second with partition := name } ≠ rawDirectory first := by
    intro same
    exact away (List.append_inj same.symm rfl).1
  simp only [RawTree.readPartitions, partitions_writeBatch_of_ne compression payloads rfl away,
    readBatch_writeBatch_of_ne compression payloads (apart _)]

/-- Whatever is written to the first raw series, the batches of the second one stay as they are,
and so do its partitions unless both belong to one root. -/
def RawIsolated (Payload : Type) [RawJson Payload] (first second : RawKey) : Prop :=
  ∀ (tree : RawTree) (compression : Compression) (batches : List (List Payload)),
    (tree.writeBatches compression first batches).readBatch Payload second =
      tree.readBatch Payload second ∧
    (rawRoot first ≠ rawRoot second →
      (tree.writeBatches compression first batches).readPartitions Payload second =
        tree.readPartitions Payload second)

theorem rawIsolated_of_ne (away : rawDirectory first ≠ rawDirectory second) :
    RawIsolated Payload first second := by
  intro tree compression batches
  induction batches generalizing tree with
  | nil => exact ⟨rfl, fun _ => rfl⟩
  | cons payloads rest ih =>
      obtain ⟨batch, partitions⟩ := ih (tree.writeBatch compression first payloads)
      refine ⟨batch.trans (readBatch_writeBatch_of_ne compression payloads away.symm), fun roots => ?_⟩
      exact (partitions roots).trans (readPartitions_writeBatch_of_ne compression payloads roots)

end Raw

/-- Two series have directories of their own and are isolated exactly when the sanitizer tells some
part of their identities apart, and so are two raw series. -/
theorem series_isolated_iff [PyText] (F : Type) [PyFloat F] [Sha256] [Parquet] (store : SegmentStore)
    (Payload : Type) [RawJson Payload] [Zstandard] :
    (∀ first second place other, seriesDirectory first = .ok place → seriesDirectory second = .ok other →
      ((place ≠ other ∧ SegmentTree.Isolated F store first second) ↔ ¬ SamePath first second)) ∧
    ∀ first second : RawKey,
      (rawDirectory first ≠ rawDirectory second ∧ RawIsolated Payload first second) ↔
        ¬ SameRawPath first second := by
  refine ⟨fun first second place other placed elsewhere => ?_, fun first second => ?_⟩
  · rw [← seriesDirectory_eq_iff placed elsewhere]
    refine ⟨fun apart => apart.1, fun away => ⟨away, ?_⟩⟩
    exact SegmentTree.isolated_of_ne store placed elsewhere fun same => away same.symm
  · rw [← rawDirectory_eq_iff]
    exact ⟨fun apart => apart.1, fun away => ⟨away, rawIsolated_of_ne away⟩⟩

section Example

open scoped Reference
open Reference

/-- Two symbols that differ in a character which no path part has. -/
def slash : SeriesKey := { series with symbol := "BTC/USDT" }

def underscore : SeriesKey := { series with symbol := "BTC_USDT" }

def slashCandle : MarketBar Whole := { candle 0 with symbol := "BTC/USDT" }

def sharedPlace : List String :=
  ["v1", "exchange=binance", "market=spot", "symbol=BTC_USDT", "source=trade_kline", "timeframe=1m"]

theorem slashCandle_storable : ∀ bar ∈ [slashCandle], bar.Storable := by
  simp only [List.mem_singleton, forall_eq]
  exact ⟨survives_of_rowToBar "1m" (eq_ok_of_toOption (by decide +kernel)),
    by unfold MarketBar.Fits; decide +kernel, eq_ok_of_toOption (by decide +kernel)⟩

/-- The write of the candle below an empty root. -/
theorem slashCandle_written : ∃ manifest after,
    (replaceAll ⟨.csv, true, false⟩ [slashCandle] slash none).run (.empty sharedPlace) =
      (.ok manifest, after) ∧ manifest.symbol = "BTC/USDT" :=
  returned_of_toOption (by decide +kernel)

/-- A candle that is stored under the one symbol is found under the other one. -/
theorem slash_shares_directory : normalizedKey slash = .ok slash ∧
    normalizedKey underscore = .ok underscore ∧ slash ≠ underscore ∧
      seriesDirectory underscore = .ok sharedPlace ∧
        SegmentTree.empty.manifestFor underscore = .ok none ∧
          ∃ tree manifest, SegmentTree.Step Whole ⟨.csv, true, false⟩ slash .empty tree ∧
            tree.manifestFor underscore = .ok (some manifest) ∧ manifest.symbol = "BTC/USDT" ∧
              ReadsBack (tree.view sharedPlace) [slashCandle] := by
  have placed : seriesDirectory slash = .ok sharedPlace := eq_ok_of_toOption (by decide +kernel)
  have shared : seriesDirectory underscore = .ok sharedPlace := eq_ok_of_toOption (by decide +kernel)
  have seen : SegmentTree.empty.view sharedPlace = .empty sharedPlace := rfl
  obtain ⟨manifest, after, ran, symbol⟩ := slashCandle_written
  have writes : Prog.Returns (fun manifest after => StoredCsv after manifest.asdict [slashCandle])
      (replaceAll ⟨.csv, true, false⟩ [slashCandle] slash none) (.empty sharedPlace) :=
    replaceAll_storedCsv ⟨.csv, true, false⟩ rfl _
  have stored := writes.2 _ _ ran
  have finished : ((StoreOp.replaceAll slash [slashCandle] none).program ⟨.csv, true, false⟩).run
      (.empty sharedPlace) = (.ok (), after) := Prog.run_bind_ok ran
  have contained : Contained (.empty sharedPlace) after :=
    (Contained.program (SegmentTree.empty_owned sharedPlace) ⟨.csv, true, false⟩
      (.replaceAll slash [slashCandle] none)).2 _ _ finished
  have view : (SegmentTree.empty.put sharedPlace after).view sharedPlace = after :=
    SegmentTree.view_put_self contained.directory
  refine ⟨eq_ok_of_toOption (by decide +kernel), eq_ok_of_toOption (by decide +kernel), by decide, shared,
    ?_, SegmentTree.empty.put sharedPlace after, manifest, ?_, ?_, symbol, ?_⟩
  · rw [SegmentTree.manifestFor, shared, ok_bind, seen]
    rfl
  · refine .operates (.replaceAll slash [slashCandle] none) rfl placed ?_
    have last := Prog.final_mem_visits
      ((StoreOp.replaceAll slash [slashCandle] none).program ⟨.csv, true, false⟩) (.empty sharedPlace)
    rw [finished] at last
    exact last
  · rw [SegmentTree.manifestFor, shared, ok_bind, view, stored.named]
    rfl
  · rw [view]
    exact stored.readsBack_iff.mpr slashCandle_storable

end Example

end MarketdataProvider
