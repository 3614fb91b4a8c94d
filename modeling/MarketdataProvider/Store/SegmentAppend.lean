import MarketdataProvider.Store.SegmentState

namespace MarketdataProvider

open Foundation Foundation.Crash

/-- The characters at which `str.splitlines` breaks. -/
def lineBreaks : List Char :=
  ['\n', '\r', '\x0b', '\x0c', '\x1c', '\x1d', '\x1e', '\u0085', '\u2028', '\u2029']

/-- The last of the lines of `text.splitlines()` that are not empty. -/
def lastLine (text : List Char) : List Char :=
  ((text.reverse.dropWhile (· ∈ lineBreaks)).takeWhile (· ∉ lineBreaks)).reverse

/-- The suffix grows by blocks of 4096 bytes until it holds two line feeds.
Each block moves the position, so that the file's length is enough fuel. -/
def tailSuffix (bytes : List UInt8) : Nat → Nat → List UInt8 → Except PyError (List UInt8)
  | 0, _, suffix => .ok suffix
  | fuel + 1, position, suffix =>
      if position = 0 ∨ 2 ≤ suffix.count 10 then .ok suffix
      else
        let readSize := min 4096 position
        let grown := (bytes.drop (position - readSize)).take readSize ++ suffix
        if 1048576 < grown.length then
          .error (.mdInvalidExchangeResponse "Segment CSV tail row is too large" [])
        else tailSuffix bytes fuel (position - readSize) grown

/-- `handle.readline()` keeps the line feed. -/
def firstLine : List UInt8 → List UInt8
  | [] => []
  | byte :: rest => if byte = 10 then [byte] else byte :: firstLine rest

def decodeText (bytes : List UInt8) : Except PyError (List Char) :=
  match decodeUtf8 bytes with
  | none => .error .unicodeDecodeError
  | some text => .ok text

/-- `next(csv.reader([line]))` -/
def csvLine (line : List Char) : Except PyError (List String) :=
  match Csv.readLine fieldSizeLimit .start line with
  | .ok fields => .ok fields
  | .error message => .error (.csvError message)

section Append

variable [PyText] {F : Type} [PyFloat F]

def readLastCsvBar (F : Type) [PyFloat F] (bytes : List UInt8) :
    Except PyError (Option (MarketBar F)) := do
  let header := firstLine bytes
  let fieldnames ← csvLine (← decodeText header)
  if bytes.length ≤ header.length then return none
  let suffix ← tailSuffix bytes bytes.length bytes.length []
  let line := lastLine (← decodeText suffix)
  if line = [] then return none
  some <$> rowToBar (dictRow fieldnames (← csvLine line))

/-- The header line and the suffix decide what is read. -/
theorem readLastCsvBar_eq {bytes : List UInt8} (header suffix : List Char)
    (first : firstLine bytes = encodeUtf8 header) (longer : (encodeUtf8 header).length < bytes.length)
    (last : tailSuffix bytes bytes.length bytes.length [] = .ok (encodeUtf8 suffix)) :
    readLastCsvBar F bytes = (do
      let fieldnames ← csvLine header
      let line := lastLine suffix
      if line = [] then return none
      some <$> rowToBar (dictRow fieldnames (← csvLine line))) := by
  have decoded (text : List Char) : decodeText (encodeUtf8 text) = .ok text := by
    rw [decodeText, decodeUtf8_encodeUtf8]
  rw [readLastCsvBar, first, last]
  simp only [decoded, ok_bind, Nat.not_le.mpr longer, if_false]

/-- Identity texts are compared in the case and the timeframe form that the manifest has. -/
def normalizedKey (key : SeriesKey) : Except PyError SeriesKey := do
  let timeframe ← canonicalTimeframe key.timeframe
  return ⟨PyText.lower key.exchange, PyText.lower key.market, PyText.upper key.symbol, timeframe,
    key.sourceKind⟩

omit [PyText] [PyFloat F] in
def MarketBar.key (bar : MarketBar F) : SeriesKey :=
  ⟨bar.exchange, bar.market, bar.symbol, bar.timeframe, bar.sourceKind⟩

def conflict (message : String) (time : Int) : PyError :=
  .mdCacheConflict message [("time", .int time)]

/-- The bars after the last accepted one; a repeated candle is dropped. -/
def acceptAppendBars (expected : SeriesKey) :
    Option (MarketBar F) → List (MarketBar F) → Except PyError (List (MarketBar F))
  | _, [] => .ok []
  | last, bar :: rest => do
      validatePersistedBarSemantics bar
      let actual ← normalizedKey bar.key
      if actual ≠ expected then
        .error (.mdInvalidExchangeResponse "Append candle identity does not match segment"
          [("time", .int bar.time)])
      else do
        validateBars [bar.toBar]
        match last with
        | none => (bar :: ·) <$> acceptAppendBars expected (some bar) rest
        | some previous =>
            if bar.time < previous.time then
              .error (.mdInvalidExchangeResponse "Segment append must be strictly ordered by time" [])
            else if bar.time = previous.time then
              if sameCanonicalCandle bar previous then acceptAppendBars expected last rest
              else .error (conflict "Conflicting append candle" bar.time)
            else (bar :: ·) <$> acceptAppendBars expected (some bar) rest

def validatedAppendBars (bars : List (MarketBar F)) (key : SeriesKey) :
    Except PyError (List (MarketBar F)) := do
  acceptAppendBars (← normalizedKey key) none bars

omit [PyText] [PyFloat F] in
/-- `max((item.downloaded_at or 0) for item in bars)` for a list that starts with `first`. -/
def maxDownloadedAt (first : MarketBar F) (rest : List (MarketBar F)) : Int :=
  rest.foldl (fun greatest bar => max greatest (bar.downloadedAt.getD 0)) (first.downloadedAt.getD 0)

/-- A manifest that is not a v4 tail chain with its base takes part in the metadata migration. -/
def SegmentManifest.legacy (manifest : SegmentManifest) : Bool :=
  manifest.checksumAlgorithm ≠ tailChainChecksum || manifest.baseChecksum.isNone ||
    manifest.baseRowsCount.isNone

def SegmentManifest.migrated (manifest : SegmentManifest) (baseChecksum : String) : SegmentManifest :=
  { manifest with
    schemaVersion := "stage-d-csv-3"
    checksum := baseChecksum
    checksumAlgorithm := tailChainChecksum
    baseChecksum := some baseChecksum
    baseRowsCount := some manifest.rowsCount }

def SegmentManifest.extended (manifest : SegmentManifest) (rows : Nat) (endTime : Int)
    (checksum : String) : SegmentManifest :=
  { manifest with
    schemaVersion := "stage-d-csv-3"
    rowsCount := manifest.rowsCount + rows
    endTime := some endTime
    checksum := checksum
    checksumAlgorithm := tailChainChecksum }

variable [Sha256]

/-- A legacy file is validated in full before its manifest is rebased. -/
def currentManifest (F : Type) [PyFloat F] (raw : RawManifest) (bytes : List UInt8) :
    Except PyError SegmentManifest :=
  if raw.toManifest.legacy then do
    validateCsvChecksum F bytes raw
    let baseChecksum ← csvCanonicalChecksum F bytes
    return raw.toManifest.migrated baseChecksum
  else .ok raw.toManifest

/-- What the locked append does once it has read everything that it needs. -/
inductive AppendPlan (F : Type) where
  | keep (manifest : SegmentManifest)
  | replaceAll (incoming : List (MarketBar F))
  | commit (journal : AppendJournal) (payload : List UInt8)

/-- The journal of `commit_metadata_migration`: the data size does not change. -/
def migrationJournal (state : SeriesState) (stored manifest : SegmentManifest) (bytes : List UInt8) :
    AppendJournal where
  dataSizeBefore := bytes.length
  dataSizeAfter := bytes.length
  oldManifest := stored
  newManifest := manifest
  downloadedAt := indexedDownloadedAt state stored

def extensionJournal (state : SeriesState) (stored manifest : SegmentManifest) (bytes : List UInt8)
    (first : MarketBar F) (rest : List (MarketBar F)) (checksum : String) : AppendJournal where
  dataSizeBefore := bytes.length
  dataSizeAfter := bytes.length + (csvAppendPayload (first :: rest)).length
  oldManifest := stored
  newManifest :=
    manifest.extended (first :: rest).length ((first :: rest).getLast (by simp)).time checksum
  downloadedAt := max (indexedDownloadedAt state manifest) (maxDownloadedAt first rest)

/-- Nothing is left to append: a legacy manifest is migrated, any other one is kept. -/
def unchangedPlan (state : SeriesState) (stored manifest : SegmentManifest) (bytes : List UInt8) :
    AppendPlan F :=
  if stored.legacy then .commit (migrationJournal state stored manifest bytes) []
  else .keep manifest

def extensionPlan (state : SeriesState) (stored manifest : SegmentManifest) (bytes : List UInt8)
    (first : MarketBar F) (rest : List (MarketBar F)) : Except PyError (AppendPlan F) := do
  let checksum ← extendTailChainAll .v4 manifest.checksum (first :: rest)
  return .commit (extensionJournal state stored manifest bytes first rest checksum)
    (csvAppendPayload (first :: rest))

def tailPlan (state : SeriesState) (stored manifest : SegmentManifest) (bytes : List UInt8)
    (first : MarketBar F) (rest : List (MarketBar F)) : Except PyError (AppendPlan F) := do
  let stem ← readLastCsvBar F bytes
  match manifest.endTime, stem with
  | some endTime, some last =>
      if manifest.rowsCount ≤ 0 then
        .error (.mdInvalidExchangeResponse "Cannot append to an empty segment manifest" [])
      else if last.time ≠ endTime then
        .error (.mdInvalidExchangeResponse "Segment tail does not match manifest end_time"
          [("manifest_end", .int endTime), ("data_end", .int last.time)])
      else if first.time < endTime then
        .error (.mdCacheConflict "Append candle is older than stored tail"
          [("time", .int first.time), ("stored_tail", .int endTime)])
      else if first.time = endTime then
        if sameCanonicalCandle first last then
          match rest with
          | [] => .ok (unchangedPlan state stored manifest bytes)
          | second :: others => extensionPlan state stored manifest bytes second others
        else .error (conflict "Conflicting tail candle" first.time)
      else extensionPlan state stored manifest bytes first rest
  | _, _ => .error (.mdInvalidExchangeResponse "Cannot append to an empty segment manifest" [])

/-- The decision of `append_strictly_newer`: it reads the locked series and changes nothing. -/
def appendPlan (state : SeriesState) (key : SeriesKey) (bars : List (MarketBar F)) :
    Except PyError (AppendPlan F) := do
  let incoming ← validatedAppendBars bars key
  match state.manifest with
  | none => .ok (.replaceAll incoming)
  | some raw =>
      if raw.toManifest.dataFormat ≠ .csv then
        .error (.mdUnsupportedFeature
          "Bounded incremental append is supported only for CSV segments")
      else
        match state.data (.bars .csv) with
        | none => .error (.mdInvalidExchangeResponse "Segment manifest has no CSV data file" [])
        | some bytes => do
            let manifest ← currentManifest F raw bytes
            match incoming with
            | [] => .ok (unchangedPlan state raw.toManifest manifest bytes)
            | first :: rest => tailPlan state raw.toManifest manifest bytes first rest

/-- Each byte that reaches the file is a step, since a crash can leave any prefix of the payload. -/
def appendBytes : List UInt8 → StoreProg Unit
  | [] => pure ()
  | byte :: rest => do
      Prog.modify (·.rewriteData (.bars .csv) (· ++ [byte]))
      appendBytes rest

/-- The journaled commit; the payload of a metadata migration is empty. -/
def commitAppend (journal : AppendJournal) (payload : List UInt8) : StoreProg SegmentManifest := do
  Prog.modify fun state => { state with appendJournal := some journal }
  appendBytes payload
  writeManifest journal.newManifest
  replaceIndexManifest journal.newManifest journal.downloadedAt
  publishIntegrityGeneration journal.newManifest
  Prog.modify fun state => { state with appendJournal := none }
  return journal.newManifest

def appendCommitted (state : SeriesState) (journal : AppendJournal) (size : Nat) : Bool :=
  size = journal.dataSizeAfter && state.manifest = some journal.newManifest.asdict

/-- The size test and the manifest test decide between the two generations. -/
def recoverAppendJournal : StoreProg Unit := do
  let state ← Prog.read
  match state.appendJournal, state.data (.bars .csv) with
  | none, _ => Prog.fail (.mdInvalidExchangeResponse "Invalid segment append journal" [])
  | some _, none =>
      Prog.fail (.mdInvalidExchangeResponse "Cannot recover truncated segment append" [])
  | some journal, some bytes =>
      if bytes.length < journal.dataSizeBefore then
        Prog.fail (.mdInvalidExchangeResponse "Cannot recover truncated segment append" [])
      else do
        if appendCommitted state journal bytes.length then
          replaceIndexManifest journal.newManifest journal.downloadedAt
        else do
          Prog.modify (·.rewriteData (.bars .csv) (·.take journal.dataSizeBefore))
          let truncated ← Prog.read
          writeManifestAndIndex journal.oldManifest
            (indexedDownloadedAt truncated journal.oldManifest)
        Prog.modify fun state => { state with appendJournal := none }

omit [Sha256] in
/-- The accepted bars ascend strictly, from after the last one that was kept. -/
theorem acceptAppendBars_sorted (expected : SeriesKey) :
    ∀ (bars : List (MarketBar F)) (last : Option (MarketBar F)) (accepted : List (MarketBar F)),
      acceptAppendBars expected last bars = .ok accepted →
        accepted.Pairwise (·.time < ·.time) ∧
          ∀ previous, last = some previous → ∀ bar ∈ accepted, previous.time < bar.time := by
  intro bars
  induction bars with
  | nil =>
      intro last accepted returned
      cases returned
      simp
  | cons bar rest ih =>
      intro last accepted returned
      simp only [acceptAppendBars, bind_eq_ok] at returned
      obtain ⟨_, _, actual, _, returned⟩ := returned
      split at returned
      · cases returned
      · simp only [bind_eq_ok] at returned
        obtain ⟨_, _, returned⟩ := returned
        have kept (tail : List (MarketBar F))
            (later : acceptAppendBars expected (some bar) rest = .ok tail) :
            (bar :: tail).Pairwise (·.time < ·.time) := by
          obtain ⟨sorted, after⟩ := ih (some bar) tail later
          exact List.pairwise_cons.mpr ⟨fun other member => after bar rfl other member, sorted⟩
        split at returned
        · obtain ⟨tail, later, rfl⟩ := map_eq_ok.mp returned
          exact ⟨kept tail later, by simp⟩
        · rename_i previous
          split at returned
          · cases returned
          · split at returned
            · split at returned
              · exact ih (some previous) accepted returned
              · cases returned
            · rename_i notBefore notSame
              obtain ⟨tail, later, rfl⟩ := map_eq_ok.mp returned
              refine ⟨kept tail later, ?_⟩
              rintro _ ⟨⟩ other member
              have advanced : previous.time < bar.time := by omega
              rcases List.mem_cons.mp member with rfl | inTail
              · exact advanced
              · exact advanced.trans (List.rel_of_pairwise_cons (kept tail later) inTail)

omit [Sha256] in
theorem validatedAppendBars_sorted {bars incoming : List (MarketBar F)} {key : SeriesKey}
    (accepted : validatedAppendBars bars key = .ok incoming) :
    incoming.Pairwise (·.time < ·.time) := by
  obtain ⟨expected, _, returned⟩ := bind_eq_ok.mp accepted
  exact (acceptAppendBars_sorted expected bars none incoming returned).1

/-- A planned commit migrates a legacy manifest, or extends the tail by strictly newer bars. -/
inductive CommitPlan (state : SeriesState) (stored manifest : SegmentManifest) (bytes : List UInt8)
    (incoming : List (MarketBar F)) : AppendJournal → List UInt8 → Prop where
  | migration (legacy : stored.legacy = true)
      (repeated : ∀ bar ∈ incoming, manifest.endTime = some bar.time) :
      CommitPlan state stored manifest bytes incoming
        (migrationJournal state stored manifest bytes) []
  | extension (first : MarketBar F) (rest : List (MarketBar F)) (endTime : Int) (checksum : String)
      (fresh : first :: rest = incoming.filter (endTime < ·.time)) (nonempty : 0 < manifest.rowsCount)
      (ended : manifest.endTime = some endTime) (newer : endTime < first.time)
      (chained : extendTailChainAll .v4 manifest.checksum (first :: rest) = .ok checksum) :
      CommitPlan state stored manifest bytes incoming
        (extensionJournal state stored manifest bytes first rest checksum)
        (csvAppendPayload (first :: rest))

omit [PyText] [Sha256] [PyFloat F] in
/-- In an ascending list every bar after a bound is newer than it. -/
theorem filter_newer_eq_self {bars : List (MarketBar F)} {bound : Int}
    (newer : ∀ bar ∈ bars, bound < bar.time) : bars.filter (bound < ·.time) = bars := by
  rw [List.filter_eq_self]
  intro bar member
  simpa using newer bar member

theorem unchangedPlan_commit {state : SeriesState} {stored manifest : SegmentManifest}
    {bytes payload : List UInt8} {journal : AppendJournal} {incoming : List (MarketBar F)}
    (repeated : ∀ bar ∈ incoming, manifest.endTime = some bar.time)
    (planned : unchangedPlan (F := F) state stored manifest bytes = .commit journal payload) :
    CommitPlan state stored manifest bytes incoming journal payload := by
  unfold unchangedPlan at planned
  split at planned
  · rename_i legacy
    cases planned
    exact .migration legacy repeated
  · cases planned

theorem tailPlan_commit {state : SeriesState} {stored manifest : SegmentManifest}
    {bytes payload : List UInt8} {journal : AppendJournal} {first : MarketBar F}
    {rest : List (MarketBar F)} (sorted : (first :: rest).Pairwise (·.time < ·.time))
    (planned : tailPlan state stored manifest bytes first rest = .ok (.commit journal payload)) :
    CommitPlan state stored manifest bytes (first :: rest) journal payload := by
  simp only [tailPlan, bind_eq_ok] at planned
  obtain ⟨stem, _, planned⟩ := planned
  split at planned
  · rename_i endTime last ended tailFound
    split_ifs at planned with empty mismatch older repeated same
    · -- The stored tail comes again: the first bar is dropped.
      cases rest with
      | nil =>
          refine unchangedPlan_commit ?_ (Except.ok.inj planned)
          simp [ended, repeated]
      | cons second others =>
          simp only [extensionPlan, bind_eq_ok, pure_eq_ok] at planned
          obtain ⟨checksum, chained, made⟩ := planned
          cases made
          have later : ∀ bar ∈ second :: others, endTime < bar.time := fun bar member => by
            have := List.rel_of_pairwise_cons sorted member
            omega
          have fresh : second :: others =
              (first :: second :: others).filter (endTime < ·.time) := by
            rw [List.filter_cons, if_neg (by simp [repeated]), filter_newer_eq_self later]
          exact .extension second others endTime checksum fresh (by omega) ended
            (later second List.mem_cons_self) chained
    · simp only [extensionPlan, bind_eq_ok, pure_eq_ok] at planned
      obtain ⟨checksum, chained, made⟩ := planned
      cases made
      have newer : endTime < first.time := by omega
      have later : ∀ bar ∈ first :: rest, endTime < bar.time := by
        rintro bar (_ | ⟨_, member⟩)
        · exact newer
        · exact newer.trans (List.rel_of_pairwise_cons sorted member)
      exact .extension first rest endTime checksum (filter_newer_eq_self later).symm (by omega) ended
        newer chained
  · cases planned

/-- Everything that a commit of the append knows about the state that it started from. -/
theorem appendPlan_commit {state : SeriesState} {key : SeriesKey} {bars : List (MarketBar F)}
    {journal : AppendJournal} {payload : List UInt8}
    (planned : appendPlan state key bars = .ok (.commit journal payload)) :
    ∃ incoming raw bytes manifest, validatedAppendBars bars key = .ok incoming ∧
      state.manifest = some raw ∧ raw.toManifest.dataFormat = .csv ∧
      state.data (.bars .csv) = some bytes ∧ currentManifest F raw bytes = .ok manifest ∧
      CommitPlan state raw.toManifest manifest bytes incoming journal payload := by
  simp only [appendPlan, bind_eq_ok] at planned
  obtain ⟨incoming, accepted, planned⟩ := planned
  split at planned
  · cases planned
  · rename_i raw found
    split at planned
    · cases planned
    · rename_i isCsv
      split at planned
      · cases planned
      · rename_i bytes present
        simp only [bind_eq_ok] at planned
        obtain ⟨manifest, current, planned⟩ := planned
        refine ⟨incoming, raw, bytes, manifest, accepted, found, by simpa using isCsv, present,
          current, ?_⟩
        cases incoming with
        | nil => exact unchangedPlan_commit (by simp) (Except.ok.inj planned)
        | cons first rest => exact tailPlan_commit (validatedAppendBars_sorted accepted) planned

omit [PyText] [PyFloat F] [Sha256] in
theorem unchangedPlan_keep {state : SeriesState} {stored manifest kept : SegmentManifest}
    {bytes : List UInt8} (planned : unchangedPlan (F := F) state stored manifest bytes = .keep kept) :
    kept = manifest ∧ stored.legacy = false := by
  unfold unchangedPlan at planned
  split at planned
  · cases planned
  · rename_i modern
    cases planned
    exact ⟨rfl, by simpa using modern⟩

theorem extensionPlan_commit {state : SeriesState} {stored manifest : SegmentManifest}
    {bytes : List UInt8} {first : MarketBar F} {rest : List (MarketBar F)} {plan : AppendPlan F}
    (planned : extensionPlan state stored manifest bytes first rest = .ok plan) :
    ∃ journal payload, plan = .commit journal payload := by
  simp only [extensionPlan, bind_eq_ok, pure_eq_ok] at planned
  obtain ⟨_, _, rfl⟩ := planned
  exact ⟨_, _, rfl⟩

theorem tailPlan_keep {state : SeriesState} {stored manifest kept : SegmentManifest}
    {bytes : List UInt8} {first : MarketBar F} {rest : List (MarketBar F)}
    (planned : tailPlan state stored manifest bytes first rest = .ok (.keep kept)) :
    kept = manifest ∧ stored.legacy = false ∧ rest = [] ∧ manifest.endTime = some first.time := by
  simp only [tailPlan, bind_eq_ok] at planned
  obtain ⟨stem, _, planned⟩ := planned
  split at planned
  · rename_i endTime last ended tailFound
    split_ifs at planned with empty mismatch older repeated same
    · cases rest with
      | nil =>
          obtain ⟨current, modern⟩ := unchangedPlan_keep (Except.ok.inj planned)
          exact ⟨current, modern, rfl, by rw [ended, repeated]⟩
      | cons second others =>
          obtain ⟨_, _, made⟩ := extensionPlan_commit planned
          cases made
    · obtain ⟨_, _, made⟩ := extensionPlan_commit planned
      cases made
  · cases planned

/-- A plan that changes nothing found a current manifest, and at most the stored tail again. -/
theorem appendPlan_keep {state : SeriesState} {key : SeriesKey} {bars : List (MarketBar F)}
    {kept : SegmentManifest} (planned : appendPlan state key bars = .ok (.keep kept)) :
    ∃ incoming raw, validatedAppendBars bars key = .ok incoming ∧ state.manifest = some raw ∧
      raw.toManifest.legacy = false ∧ kept = raw.toManifest ∧
      ∀ bar ∈ incoming, kept.endTime = some bar.time := by
  simp only [appendPlan, bind_eq_ok] at planned
  obtain ⟨incoming, accepted, planned⟩ := planned
  split at planned
  · cases planned
  · rename_i raw found
    split at planned
    · cases planned
    · split at planned
      · cases planned
      · rename_i bytes present
        simp only [bind_eq_ok] at planned
        obtain ⟨manifest, current, planned⟩ := planned
        have unchanged (modern : raw.toManifest.legacy = false) : manifest = raw.toManifest := by
          rw [currentManifest, modern] at current
          exact (Except.ok.inj current).symm
        cases incoming with
        | nil =>
            obtain ⟨rfl, modern⟩ := unchangedPlan_keep (Except.ok.inj planned)
            exact ⟨[], raw, accepted, found, modern, unchanged modern, by simp⟩
        | cons first rest =>
            obtain ⟨rfl, modern, rfl, ended⟩ := tailPlan_keep planned
            exact ⟨[first], raw, accepted, found, modern, unchanged modern, by simpa using ended⟩

/-- Only a series without a manifest is written as a whole. -/
theorem appendPlan_replaceAll {state : SeriesState} {key : SeriesKey} {bars incoming : List (MarketBar F)}
    (planned : appendPlan state key bars = .ok (.replaceAll incoming)) :
    validatedAppendBars bars key = .ok incoming ∧ state.manifest = none := by
  simp only [appendPlan, bind_eq_ok] at planned
  obtain ⟨accepted, valid, planned⟩ := planned
  split at planned
  · rename_i absent
    cases planned
    exact ⟨valid, absent⟩
  · split at planned
    · cases planned
    · split at planned
      · cases planned
      · simp only [bind_eq_ok] at planned
        obtain ⟨manifest, current, planned⟩ := planned
        cases accepted with
        | nil =>
            have made := Except.ok.inj planned
            unfold unchangedPlan at made
            split at made
            · cases made
            · cases made
        | cons first rest =>
            simp only [tailPlan, bind_eq_ok] at planned
            obtain ⟨stem, _, planned⟩ := planned
            split at planned
            · split_ifs at planned
              · cases rest with
                | nil =>
                    have made := Except.ok.inj planned
                    unfold unchangedPlan at made
                    split at made
                    · cases made
                    · cases made
                | cons second others =>
                    obtain ⟨_, _, made⟩ := extensionPlan_commit planned
                    cases made
              · obtain ⟨_, _, made⟩ := extensionPlan_commit planned
                cases made
            · cases planned

end Append

end MarketdataProvider
