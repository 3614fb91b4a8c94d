import MarketdataProvider.Foundation.Crash
import MarketdataProvider.Foundation.Directory
import MarketdataProvider.Store.SegmentIntegrity

namespace MarketdataProvider

open Foundation Foundation.Crash

/-- The Parquet library as the store uses it: cells are the texts that the reader makes of them. -/
class Parquet where
  writeTable : List (List (String × String)) → Option (List UInt8)
  readTable : List UInt8 → Option (List (List (String × String)))
  read_write : ∀ rows bytes, writeTable rows = some bytes → readTable bytes = some rows

/-- The data files of a series directory: `bars.*` and the rollback copies `.replace-backup.*`. -/
inductive DataName where
  | bars (format : SegmentFormat)
  | backup (format : SegmentFormat)
  deriving DecidableEq, Repr

/-- Each write stamps the file with the clock. -/
structure StoredFile where
  bytes : List UInt8
  mtime : Nat
  deriving DecidableEq

/-- The journal of an append or of a metadata migration. -/
structure AppendJournal where
  dataSizeBefore : Nat
  dataSizeAfter : Nat
  oldManifest : SegmentManifest
  newManifest : SegmentManifest
  downloadedAt : Int
  deriving DecidableEq

structure ReplaceJournal where
  oldManifest : Option SegmentManifest
  newManifest : SegmentManifest
  oldDataName : Option SegmentFormat
  newDataName : SegmentFormat
  backupName : Option SegmentFormat
  oldDownloadedAt : Int
  newDownloadedAt : Int
  deriving DecidableEq

/-- The file generation that a writer or a full validation published. -/
structure IntegrityGeneration where
  inode : Nat
  size : Nat
  mtime : Nat
  checksum : String
  checksumAlgorithm : String
  rowsCount : Int
  deriving DecidableEq

/-- A row of `marketdata_segments`. -/
structure IndexRow where
  key : SeriesKey
  startTime : Int
  endTime : Int
  rowsCount : Int
  sourceTransport : String
  checksum : String
  downloadedAt : Int
  dataFormat : SegmentFormat
  deriving DecidableEq

/-- One series directory and the index table; journals and manifests are replaced atomically. -/
structure SeriesState where
  directory : List String
  files : Directory DataName StoredFile
  manifest : Option RawManifest
  appendJournal : Option AppendJournal
  replaceJournal : Option ReplaceJournal
  generation : Option IntegrityGeneration
  index : List IndexRow
  clock : Nat

/-- A series directory before the first write, next to an empty index. -/
def SeriesState.empty (directory : List String) : SeriesState where
  directory
  files := .empty ⟨[], 0⟩
  manifest := none
  appendJournal := none
  replaceJournal := none
  generation := none
  index := []
  clock := 0

abbrev StoreProg (Value : Type) := Prog SeriesState PyError Value

namespace SeriesState

/-- The inode number and the file that a path names. -/
def file (state : SeriesState) (name : DataName) : Option (Nat × StoredFile) :=
  state.files.lookup name

def data (state : SeriesState) (name : DataName) : Option (List UInt8) :=
  (state.file name).map fun found => found.2.bytes

def seriesRows (state : SeriesState) (key : SeriesKey) : List IndexRow :=
  state.index.filter (·.key = key)

/-- A temporary file takes the name, as `os.replace` does. -/
def createData (state : SeriesState) (name : DataName) (bytes : List UInt8) : SeriesState :=
  { state with files := state.files.create name ⟨bytes, state.clock⟩, clock := state.clock + 1 }

def rewriteData (state : SeriesState) (name : DataName) (change : List UInt8 → List UInt8) :
    SeriesState :=
  { state with
    files := state.files.rewrite name fun file => ⟨change file.bytes, state.clock⟩
    clock := state.clock + 1 }

def unlinkData (state : SeriesState) (name : DataName) : SeriesState :=
  { state with files := state.files.unlink name }

def linkData (state : SeriesState) (source target : DataName) : SeriesState :=
  { state with files := state.files.link source target }

def renameData (state : SeriesState) (source target : DataName) : SeriesState :=
  { state with files := state.files.rename source target }

@[simp] theorem file_createData_self (state : SeriesState) (name : DataName) (bytes : List UInt8) :
    (state.createData name bytes).file name = some (state.files.fresh, ⟨bytes, state.clock⟩) :=
  Directory.lookup_create_self _ _ _

theorem file_createData_of_ne (state : SeriesState) {name other : DataName} (bytes : List UInt8)
    (different : other ≠ name) : (state.createData name bytes).file other = state.file other :=
  Directory.lookup_create_of_ne _ _ different

/-- A write in place keeps the inode and stamps it with the clock. -/
@[simp] theorem file_rewriteData_self (state : SeriesState) (name : DataName)
    (change : List UInt8 → List UInt8) :
    (state.rewriteData name change).file name =
      (state.file name).map fun found => (found.1, ⟨change found.2.bytes, state.clock⟩) :=
  Directory.lookup_rewrite_self _ _ _

/-- A write in place does not make another name. -/
theorem file_rewriteData_none (state : SeriesState) (name : DataName) {other : DataName}
    (change : List UInt8 → List UInt8) (absent : state.file other = none) :
    (state.rewriteData name change).file other = none := by
  simp only [file, rewriteData, Directory.lookup, Directory.entry_rewrite] at absent ⊢
  simpa using absent

@[simp] theorem file_unlinkData_self (state : SeriesState) (name : DataName) :
    (state.unlinkData name).file name = none :=
  Directory.lookup_unlink_self _ _

theorem file_unlinkData_of_ne (state : SeriesState) {name other : DataName}
    (different : other ≠ name) : (state.unlinkData name).file other = state.file other :=
  Directory.lookup_unlink_of_ne _ different

@[simp] theorem file_linkData_self (state : SeriesState) (source target : DataName) :
    (state.linkData source target).file target = state.file source :=
  Directory.lookup_link_self _ _ _

theorem file_linkData_of_ne (state : SeriesState) (source : DataName) {target other : DataName}
    (different : other ≠ target) : (state.linkData source target).file other = state.file other :=
  Directory.lookup_link_of_ne _ _ different

theorem file_renameData_target (state : SeriesState) {source target : DataName}
    {found : Nat × StoredFile} (present : state.file source = some found) :
    (state.renameData source target).file target = some found :=
  Directory.lookup_rename_target _ present

theorem file_renameData_of_ne (state : SeriesState) {source target other : DataName}
    (notSource : other ≠ source) (notTarget : other ≠ target) :
    (state.renameData source target).file other = state.file other :=
  Directory.lookup_rename_of_ne _ notSource notTarget

theorem file_renameData_source (state : SeriesState) (source target : DataName) :
    (state.renameData source target).file source = none ∨
      (state.renameData source target).file source = state.file source :=
  Directory.lookup_rename_source _ _ _

/-- The bytes of a file are those of its inode. -/
theorem data_of_file {state other : SeriesState} {name target : DataName}
    (same : state.file name = other.file target) : state.data name = other.data target := by
  rw [data, data, same]

theorem data_eq_some {state : SeriesState} {name : DataName} {found : Nat × StoredFile}
    (present : state.file name = some found) : state.data name = some found.2.bytes := by
  rw [data, present, Option.map_some]

theorem exists_file {state : SeriesState} {name : DataName} {bytes : List UInt8}
    (present : state.data name = some bytes) :
    ∃ found, state.file name = some found ∧ found.2.bytes = bytes :=
  Option.map_eq_some_iff.mp present

theorem data_eq_none_iff {state : SeriesState} {name : DataName} :
    state.data name = none ↔ state.file name = none := by
  simp [data]

@[simp] theorem data_createData_self (state : SeriesState) (name : DataName) (bytes : List UInt8) :
    (state.createData name bytes).data name = some bytes := by
  rw [data, file_createData_self, Option.map_some]

@[simp] theorem data_rewriteData_self (state : SeriesState) (name : DataName)
    (change : List UInt8 → List UInt8) :
    (state.rewriteData name change).data name = (state.data name).map change := by
  rw [data, data, file_rewriteData_self, Option.map_map, Option.map_map]
  rfl

@[simp] theorem data_unlinkData_self (state : SeriesState) (name : DataName) :
    (state.unlinkData name).data name = none := by
  rw [data, file_unlinkData_self, Option.map_none]

theorem data_unlinkData_of_ne (state : SeriesState) {name other : DataName}
    (different : other ≠ name) : (state.unlinkData name).data other = state.data other :=
  data_of_file (state.file_unlinkData_of_ne different)

end SeriesState

/-- `_insert_index_row`: nothing for an empty manifest; the times are `NOT NULL` columns. -/
def indexRows (manifest : SegmentManifest) (downloadedAt : Int) : Except PyError (List IndexRow) :=
  if manifest.rowsCount = 0 then .ok []
  else
    match manifest.startTime, manifest.endTime with
    | some startTime, some endTime =>
        .ok [{
          key := manifest.key
          startTime, endTime
          rowsCount := manifest.rowsCount
          sourceTransport := manifest.sourceTransport
          checksum := manifest.checksum
          downloadedAt
          dataFormat := manifest.dataFormat }]
    | _, _ => .error .integrityError

/-- A row can be inserted for an empty manifest, and for one with both times. -/
def SegmentManifest.Insertable (manifest : SegmentManifest) : Prop :=
  manifest.rowsCount = 0 ∨ (manifest.startTime.isSome ∧ manifest.endTime.isSome)

theorem SegmentManifest.Insertable.indexRows {manifest : SegmentManifest}
    (insertable : manifest.Insertable) (downloadedAt : Int) :
    ∃ rows, indexRows manifest downloadedAt = .ok rows := by
  unfold MarketdataProvider.indexRows
  rcases insertable with empty | ⟨starts, ends⟩
  · exact ⟨[], if_pos empty⟩
  · obtain ⟨startTime, starts⟩ := Option.isSome_iff_exists.mp starts
    obtain ⟨endTime, ends⟩ := Option.isSome_iff_exists.mp ends
    split
    · exact ⟨_, rfl⟩
    · rw [starts, ends]
      exact ⟨_, rfl⟩

theorem insertable_of_indexRows {manifest : SegmentManifest} {downloadedAt : Int}
    {rows : List IndexRow} (written : indexRows manifest downloadedAt = .ok rows) :
    manifest.Insertable := by
  unfold indexRows at written
  split at written
  · rename_i empty
    exact .inl empty
  · split at written
    · rename_i startTime endTime starts ends
      exact .inr ⟨by simp [starts], by simp [ends]⟩
    · cases written

theorem key_of_mem_indexRows {manifest : SegmentManifest} {downloadedAt : Int} {rows : List IndexRow}
    (written : indexRows manifest downloadedAt = .ok rows) : ∀ row ∈ rows, row.key = manifest.key := by
  unfold indexRows at written
  split at written
  · cases written
    simp
  · split at written
    · cases written
      simp
    · cases written

def SeriesState.replaceIndex (state : SeriesState) (key : SeriesKey) (rows : List IndexRow) :
    SeriesState :=
  { state with index := state.index.filter (·.key ≠ key) ++ rows }

theorem SeriesState.seriesRows_replaceIndex (state : SeriesState) {key : SeriesKey}
    {rows : List IndexRow} (owned : ∀ row ∈ rows, row.key = key) :
    (state.replaceIndex key rows).seriesRows key = rows := by
  have none_left : (state.index.filter (·.key ≠ key)).filter (·.key = key) = [] := by
    simp [List.filter_filter]
  rw [seriesRows, replaceIndex, List.filter_append, none_left, List.nil_append,
    List.filter_eq_self.mpr (by simpa using owned)]

/-- A replacement leaves the rows of every other series as they are. -/
theorem SeriesState.seriesRows_replaceIndex_of_ne (state : SeriesState) {key other : SeriesKey}
    {rows : List IndexRow} (owned : ∀ row ∈ rows, row.key = key) (different : other ≠ key) :
    (state.replaceIndex key rows).seriesRows other = state.seriesRows other := by
  have foreign : rows.filter (·.key = other) = [] := by
    rw [List.filter_eq_nil_iff]
    intro row member
    simpa [owned row member] using different.symm
  rw [seriesRows, replaceIndex, List.filter_append, foreign, List.append_nil, List.filter_filter]
  refine List.filter_congr fun row _ => ?_
  by_cases same : row.key = other
  · simp [same, different]
  · simp [same]

/-- `max(downloaded_at)` over the rows, or zero without a row. -/
def latestDownloadedAt (rows : List IndexRow) : Int :=
  match rows.map IndexRow.downloadedAt with
  | [] => 0
  | first :: rest => rest.foldl max first

/-- `_indexed_downloaded_at` -/
def indexedDownloadedAt (state : SeriesState) (manifest : SegmentManifest) : Int :=
  latestDownloadedAt (state.seriesRows manifest.key)

/-- The rows that were written come out again under their own download time. -/
theorem indexRows_latestDownloadedAt {manifest : SegmentManifest} {downloadedAt : Int}
    {rows : List IndexRow} (written : indexRows manifest downloadedAt = .ok rows) :
    indexRows manifest (latestDownloadedAt rows) = .ok rows := by
  have unfolded := written
  unfold indexRows at unfolded ⊢
  split at unfolded
  · rename_i empty
    rw [if_pos empty, unfolded]
  · rename_i nonempty
    rw [if_neg nonempty]
    split at unfolded
    · cases unfolded
      rfl
    · cases unfolded

/-- The delete and the insert are one transaction; a failed insert rolls both back. -/
def replaceIndexManifest (manifest : SegmentManifest) (downloadedAt : Int) : StoreProg Unit := do
  let rows ← Prog.ofExcept (indexRows manifest downloadedAt)
  Prog.modify fun state => state.replaceIndex manifest.key rows

def writeManifest (manifest : SegmentManifest) : StoreProg Unit :=
  Prog.modify fun state => { state with manifest := some manifest.asdict }

def writeManifestAndIndex (manifest : SegmentManifest) (downloadedAt : Int) : StoreProg Unit := do
  writeManifest manifest
  replaceIndexManifest manifest downloadedAt

section Guarded

variable {invariant : SeriesState → Prop} {state : SeriesState} {manifest : SegmentManifest}
  {downloadedAt : Int} {rows : List IndexRow}

/-- The index changes in one step to the rows of the manifest. -/
theorem replaceIndexManifest_guarded (written : indexRows manifest downloadedAt = .ok rows)
    (before : invariant state) (after : invariant (state.replaceIndex manifest.key rows)) :
    Prog.Guarded invariant (fun _ final => final = state.replaceIndex manifest.key rows)
      (replaceIndexManifest manifest downloadedAt) state := by
  rw [replaceIndexManifest, written]
  exact .step before (.done after rfl)

theorem writeManifestAndIndex_guarded (written : indexRows manifest downloadedAt = .ok rows)
    (before : invariant state) (middle : invariant { state with manifest := some manifest.asdict })
    (after : invariant { state.replaceIndex manifest.key rows with manifest := some manifest.asdict }) :
    Prog.Guarded invariant
      (fun _ final =>
        final = { state.replaceIndex manifest.key rows with manifest := some manifest.asdict })
      (writeManifestAndIndex manifest downloadedAt) state :=
  .modify before (replaceIndexManifest_guarded written middle after)

end Guarded

/-- `_generation_payload` of the CSV file. -/
def generationPayload (state : SeriesState) (manifest : SegmentManifest) :
    Except PyError IntegrityGeneration :=
  match state.file (.bars .csv) with
  | none => .error .fileNotFoundError
  | some (inode, file) =>
      .ok {
        inode
        size := file.bytes.length
        mtime := file.mtime
        checksum := manifest.checksum
        checksumAlgorithm := manifest.checksumAlgorithm
        rowsCount := manifest.rowsCount }

/-- Publish the exact writer-validated immutable file generation. -/
def publishIntegrityGeneration (manifest : SegmentManifest) : StoreProg Unit := do
  let state ← Prog.read
  let payload ← Prog.ofExcept (generationPayload state manifest)
  Prog.modify fun state => { state with generation := some payload }

theorem generationPayload_ok {state : SeriesState} {bytes : List UInt8} (manifest : SegmentManifest)
    (present : state.data (.bars .csv) = some bytes) :
    ∃ payload, generationPayload state manifest = .ok payload := by
  obtain ⟨found, present, -⟩ := SeriesState.exists_file present
  exact ⟨_, by rw [generationPayload, present]⟩

theorem publishIntegrityGeneration_guarded {invariant : SeriesState → Prop} {state : SeriesState}
    {bytes : List UInt8} (manifest : SegmentManifest)
    (present : state.data (.bars .csv) = some bytes) (before : invariant state)
    (after : ∀ payload, invariant { state with generation := some payload }) :
    Prog.Guarded invariant
      (fun _ final => ∃ payload, generationPayload state manifest = .ok payload ∧
        final = { state with generation := some payload })
      (publishIntegrityGeneration manifest) state := by
  obtain ⟨payload, stamped⟩ := generationPayload_ok manifest present
  refine .read before ?_
  rw [stamped]
  exact .step before (.done (after payload) ⟨payload, rfl, rfl⟩)

/-- The generation is that of this file under this manifest. -/
def IntegrityGeneration.describes (payload : IntegrityGeneration) (found : Nat × StoredFile)
    (manifest : RawManifest) : Bool :=
  payload.inode = found.1 && payload.size = found.2.bytes.length && payload.mtime = found.2.mtime &&
    payload.checksum = manifest.checksum &&
    some payload.checksumAlgorithm = manifest.checksumAlgorithm &&
    payload.rowsCount = manifest.rowsCount

/-- The published generation still describes the file and the manifest. -/
def integrityGenerationIsCurrent (state : SeriesState) (manifest : RawManifest) : Bool :=
  match state.generation, state.file (.bars .csv) with
  | some payload, some found => payload.describes found manifest
  | _, _ => false

namespace Reference

/-- A host without the Parquet package. -/
scoped instance withoutPyarrow : Parquet where
  writeTable _ := none
  readTable _ := none
  read_write _ _ written := by cases written

end Reference

end MarketdataProvider
