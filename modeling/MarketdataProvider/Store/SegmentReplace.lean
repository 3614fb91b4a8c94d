import MarketdataProvider.Store.SegmentState

namespace MarketdataProvider

open Foundation Foundation.Crash

/-- The store configuration and what the host offers to it. -/
structure SegmentStore where
  dataFormat : SegmentFormat
  /-- `os.link` works on the file system. -/
  hardLinks : Bool
  /-- `importlib.util.find_spec("pyarrow")` finds the package. -/
  pyarrow : Bool
  deriving DecidableEq, Repr

def invalidReplaceJournalPath : PyError :=
  .mdInvalidExchangeResponse "Invalid segment replacement journal path" []

def validateManifestIdentity (oldManifest : Option SegmentManifest) (newManifest : SegmentManifest) :
    Except PyError Unit :=
  match oldManifest with
  | none => .ok ()
  | some old =>
      if old.key = newManifest.key then .ok ()
      else .error
        (.mdInvalidExchangeResponse "Invalid segment replacement journal manifest identity" [])

section Path

variable [PyText]

def validateJournalPath (directory : List String) (newManifest : SegmentManifest) :
    Except PyError Unit := do
  let expected ← seriesDirectory newManifest.key
  if directory = expected then .ok () else .error invalidReplaceJournalPath

def journalMember (field : String) : PyError :=
  .mdInvalidExchangeResponse ("Invalid segment replacement journal path: " ++ field) []

/-- `_validated_journal`: identity, directory and the three member names. -/
def validatedJournal (state : SeriesState) : Except PyError ReplaceJournal :=
  match state.replaceJournal with
  | none => .error (.mdInvalidExchangeResponse "Invalid segment replacement journal" [])
  | some journal => do
      validateManifestIdentity journal.oldManifest journal.newManifest
      validateJournalPath state.directory journal.newManifest
      if journal.newDataName ≠ journal.newManifest.dataFormat then
        .error (journalMember "new_data_name")
      else if journal.oldDataName ≠ journal.oldManifest.map SegmentManifest.dataFormat then
        .error (journalMember "old_data_name")
      else if journal.backupName.isSome ∧
          journal.backupName ≠ journal.oldManifest.map SegmentManifest.dataFormat then
        .error (journalMember "backup_name")
      else .ok journal

section Validated

variable {state : SeriesState} {journal : ReplaceJournal}

/-- The journal that recovery validates is the one of the state. -/
theorem validatedJournal_named (valid : validatedJournal state = .ok journal) :
    state.replaceJournal = some journal := by
  unfold validatedJournal at valid
  split at valid
  · cases valid
  · rename_i found named
    simp only [bind_eq_ok] at valid
    obtain ⟨_, _, _, _, valid⟩ := valid
    split_ifs at valid
    rw [named, Except.ok.inj valid]

/-- The names in a journal are those of the data files of its two manifests. -/
theorem validatedJournal_names (valid : validatedJournal state = .ok journal) :
    journal.newDataName = journal.newManifest.dataFormat ∧
      journal.oldDataName = journal.oldManifest.map SegmentManifest.dataFormat := by
  unfold validatedJournal at valid
  split at valid
  · cases valid
  · simp only [bind_eq_ok] at valid
    obtain ⟨_, _, _, _, valid⟩ := valid
    split_ifs at valid with new old backup
    obtain rfl := Except.ok.inj valid
    exact ⟨not_not.mp new, not_not.mp old⟩

end Validated

def otherFormat : SegmentFormat → SegmentFormat
  | .csv => .parquet
  | .parquet => .csv

omit [PyText] in
theorem otherFormat_ne (format : SegmentFormat) : format ≠ otherFormat format := by
  cases format <;> decide

omit [PyText] in
/-- There are two formats. -/
theorem eq_of_ne_otherFormat {format other : SegmentFormat} (different : other ≠ otherFormat format) :
    other = format := by
  cases format <;> cases other <;> simp_all [otherFormat]

def unlinkOptional (name : Option DataName) : StoreProg Unit :=
  match name with
  | none => pure ()
  | some name => Prog.modify (·.unlinkData name)

/-- A data file of another format is superseded by the new one. -/
def unlinkSuperseded (journal : ReplaceJournal) : StoreProg Unit :=
  if journal.oldDataName = some journal.newDataName then pure ()
  else unlinkOptional (journal.oldDataName.map .bars)

/-- Only a CSV file has an integrity generation. -/
def publishReplacement (journal : ReplaceJournal) : StoreProg Unit :=
  if journal.newDataName = .csv then publishIntegrityGeneration journal.newManifest else pure ()

/-- Remove the rollback generation after data, manifest and index commit. -/
def finishReplacement : StoreProg Unit := do
  let state ← Prog.read
  let journal ← Prog.ofExcept (validatedJournal state)
  unlinkSuperseded journal
  publishReplacement journal
  Prog.modify (·.unlinkData (.bars (otherFormat journal.newDataName)))
  unlinkOptional (journal.backupName.map .backup)
  Prog.modify fun state => { state with replaceJournal := none }

/-- The backup goes back under the old name; between two links of one file this is a no-op. -/
def restoreBackup (journal : ReplaceJournal) : StoreProg Unit := do
  let state ← Prog.read
  match journal.backupName, journal.oldDataName with
  | some backup, some oldData =>
      if (state.data (.backup backup)).isSome then
        Prog.modify (·.renameData (.backup backup) (.bars oldData))
      else pure ()
  | _, _ => pure ()

def unlinkReplacing (journal : ReplaceJournal) : StoreProg Unit :=
  if some journal.newDataName = journal.oldDataName then pure ()
  else Prog.modify (·.unlinkData (.bars journal.newDataName))

/-- The old data generation must be there before the new one and its manifest are given up. -/
def restoreOldGeneration (journal : ReplaceJournal) (old : SegmentManifest) : StoreProg Unit := do
  restoreBackup journal
  let state ← Prog.read
  if (journal.oldDataName.bind fun oldData => state.data (.bars oldData)) = none then
    Prog.fail (.mdInvalidExchangeResponse
      "Cannot recover segment replacement without old data generation" [])
  else do
    unlinkReplacing journal
    writeManifestAndIndex old journal.oldDownloadedAt

/-- A first write has no old generation: its data, manifest and index rows are removed. -/
def removeNewGeneration (journal : ReplaceJournal) : StoreProg Unit := do
  Prog.modify (·.unlinkData (.bars journal.newDataName))
  Prog.modify fun state => { state with manifest := none }
  Prog.modify (·.replaceIndex journal.newManifest.key [])

def replacementCommitted (state : SeriesState) (journal : ReplaceJournal) : Bool :=
  state.manifest = some journal.newManifest.asdict && (state.data (.bars journal.newDataName)).isSome

def restoreGeneration (journal : ReplaceJournal) : StoreProg Unit :=
  match journal.oldManifest with
  | none => removeNewGeneration journal
  | some old => restoreOldGeneration journal old

/-- Roll forward a committed manifest or roll back to the linked generation. -/
def recoverReplacementJournal : StoreProg Unit := do
  let state ← Prog.read
  let journal ← Prog.ofExcept (validatedJournal state)
  if replacementCommitted state journal then do
    replaceIndexManifest journal.newManifest journal.newDownloadedAt
    finishReplacement
  else do
    restoreGeneration journal
    unlinkOptional (journal.backupName.map .backup)
    Prog.modify fun state => { state with replaceJournal := none }

def recoverPendingReplacement : StoreProg Unit := do
  let state ← Prog.read
  if state.replaceJournal.isSome then recoverReplacementJournal else pure ()

/-- A hard link, or a copy where the file system has no links, keeps the old generation. -/
def backUp (store : SegmentStore) (oldFormat : SegmentFormat) : StoreProg Unit := do
  Prog.modify (·.unlinkData (.backup oldFormat))
  if store.hardLinks then
    Prog.modify (·.linkData (.bars oldFormat) (.backup oldFormat))
  else
    Prog.modify fun state =>
      match state.data (.bars oldFormat) with
      | none => state
      | some bytes => state.createData (.backup oldFormat) bytes

def backUpOptional (store : SegmentStore) (backupName : Option SegmentFormat) : StoreProg Unit :=
  match backupName with
  | none => pure ()
  | some format => backUp store format

def replaceJournalOf (state : SeriesState) (oldManifest : Option SegmentManifest)
    (newManifest : SegmentManifest) (backupName : Option SegmentFormat) (downloadedAt : Int) :
    ReplaceJournal where
  oldManifest
  newManifest
  oldDataName := oldManifest.map SegmentManifest.dataFormat
  newDataName := newManifest.dataFormat
  backupName
  oldDownloadedAt := (oldManifest.map (indexedDownloadedAt state)).getD 0
  newDownloadedAt := downloadedAt

/-- The format of the old data file, when there is one to keep. -/
def backupFormat (state : SeriesState) (oldManifest : Option SegmentManifest) :
    Option SegmentFormat :=
  (oldManifest.map SegmentManifest.dataFormat).filter fun format => (state.data (.bars format)).isSome

/-- Persist a rollback point before replacing a segment generation. -/
def beginReplacement (store : SegmentStore) (oldManifest : Option SegmentManifest)
    (newManifest : SegmentManifest) (downloadedAt : Int) : StoreProg Unit := do
  let state ← Prog.read
  Prog.ofExcept (validateManifestIdentity oldManifest newManifest)
  Prog.ofExcept (validateJournalPath state.directory newManifest)
  recoverPendingReplacement
  let recovered ← Prog.read
  let backupName := backupFormat recovered oldManifest
  backUpOptional store backupName
  let backed ← Prog.read
  Prog.modify fun current =>
    { current with
      replaceJournal := some (replaceJournalOf backed oldManifest newManifest backupName downloadedAt) }

/-- The replacement protocol after the new manifest and the new bytes are known. -/
def commitReplacement (store : SegmentStore) (newManifest : SegmentManifest)
    (content : Except PyError (List UInt8)) (downloadedAt : Int) : StoreProg SegmentManifest := do
  let state ← Prog.read
  beginReplacement store (state.manifest.map RawManifest.toManifest) newManifest downloadedAt
  let bytes ← Prog.ofExcept content
  Prog.modify (·.createData (.bars newManifest.dataFormat) bytes)
  writeManifest newManifest
  replaceIndexManifest newManifest downloadedAt
  finishReplacement
  return newManifest

end Path

end MarketdataProvider
