import MarketdataProvider.Store.ReplaceAtomicity

namespace MarketdataProvider

open Foundation Foundation.Crash

section Digest

variable [PyText] {F : Type} [PyFloat F]

/-- A digest is taken over the normal form, so that the reader computes what the writer did. -/
theorem updateChecksum_persisted (version : ChecksumVersion) {bar : MarketBar F} {timeframe : String}
    (accepted : canonicalTimeframe bar.timeframe = .ok timeframe) :
    updateChecksum version (bar.persisted timeframe) = updateChecksum version bar := by
  have again := canonicalTimeframe_idempotent accepted
  have identity : updateChecksumIdentity (bar.persisted timeframe) = updateChecksumIdentity bar := by
    simp only [updateChecksumIdentity, MarketBar.persisted, PyText.lower_lower, PyText.upper_upper,
      again, accepted]
  cases version with
  | v1 =>
      simp only [updateChecksum, updateChecksumV1, MarketBar.persisted, PyText.lower_lower,
        PyText.upper_upper, again, accepted]
      rfl
  | v2 =>
      simp only [updateChecksum, updateChecksumV2, identity]
      rfl
  | v3 =>
      simp only [updateChecksum, updateChecksumV3, identity]
      rfl
  | v4 =>
      simp only [updateChecksum, updateChecksumV4, identity]
      rfl

/-- A bar with a digest has a timeframe. -/
theorem timeframe_of_updateChecksum {version : ChecksumVersion} {bar : MarketBar F}
    {update : List UInt8} (updated : updateChecksum version bar = .ok update) :
    ∃ timeframe, canonicalTimeframe bar.timeframe = .ok timeframe := by
  have ofIdentity {identity : List UInt8} (made : updateChecksumIdentity bar = .ok identity) :
      ∃ timeframe, canonicalTimeframe bar.timeframe = .ok timeframe := by
    simp only [updateChecksumIdentity, bind_eq_ok] at made
    obtain ⟨_, _, _, _, _, _, _, _, _, _, timeframe, accepted, _⟩ := made
    exact ⟨timeframe, accepted⟩
  cases version with
  | v1 =>
      obtain ⟨timeframe, accepted, _⟩ := bind_eq_ok.mp updated
      exact ⟨timeframe, accepted⟩
  | v2 =>
      obtain ⟨_, made, _⟩ := bind_eq_ok.mp updated
      exact ofIdentity made
  | v3 =>
      obtain ⟨_, made, _⟩ := bind_eq_ok.mp updated
      exact ofIdentity made
  | v4 =>
      obtain ⟨_, made, _⟩ := bind_eq_ok.mp updated
      exact ofIdentity made

/-- The two bars have the same digest, whatever its version. -/
def SameDigest (left right : MarketBar F) : Prop :=
  ∀ version, updateChecksum version left = updateChecksum version right

theorem sameDigest_normalized {bars normalized : List (MarketBar F)}
    (normal : bars.mapM normalizedBar = .ok normalized) :
    List.Forall₂ SameDigest normalized bars := by
  rw [mapM_eq_ok] at normal
  refine (List.Forall₂.flip normal).imp ?_
  intro back bar written version
  obtain ⟨timeframe, accepted, rfl⟩ := normalizedBar_eq_ok.mp written
  exact updateChecksum_persisted version accepted

variable [Sha256]

theorem rowsDigest_congr {left right : List (MarketBar F)} (same : List.Forall₂ SameDigest left right)
    (version : ChecksumVersion) : rowsDigest version left = rowsDigest version right := by
  have rows : left.mapM (updateChecksum version) = right.mapM (updateChecksum version) := by
    induction same with
    | nil => rfl
    | cons digest rest ih => rw [List.mapM_cons, List.mapM_cons, ih, digest version]
  rw [rowsDigest, rowsDigest, rows]

theorem extendTailChainAll_congr {left right : List (MarketBar F)}
    (same : List.Forall₂ SameDigest left right) (version : ChecksumVersion) (checksum : String) :
    extendTailChainAll version checksum left = extendTailChainAll version checksum right := by
  induction same generalizing checksum with
  | nil => rfl
  | cons digest rest ih =>
      have link (current : String) (left right : MarketBar F) (equal : SameDigest left right) :
          extendTailChain version current left = extendTailChain version current right := by
        simp only [extendTailChain, equal version]
      simp only [extendTailChainAll, List.foldlM_cons, link checksum _ _ digest]
      exact congrArg _ (funext ih)

theorem checksumAgrees_congr {left right : List (MarketBar F)}
    (same : List.Forall₂ SameDigest left right) (manifest : RawManifest) :
    ChecksumAgrees manifest left ↔ ChecksumAgrees manifest right := by
  unfold ChecksumAgrees
  split
  · rfl
  · rw [rowsDigest_congr same]
  · have base (count : Nat) := rowsDigest_congr (List.forall₂_take count same)
    have chain (count : Nat) := extendTailChainAll_congr (List.forall₂_drop count same)
    simp only [base, chain, same.length_eq]

omit [PyFloat F] [Sha256] in
/-- The bars of known timeframes have normal forms. -/
theorem normalized_of_timeframes {bars : List (MarketBar F)}
    (known : ∀ bar ∈ bars, ∃ timeframe, canonicalTimeframe bar.timeframe = .ok timeframe) :
    ∃ normalized, bars.mapM normalizedBar = .ok normalized := by
  induction bars with
  | nil => exact ⟨[], rfl⟩
  | cons bar bars ih =>
      obtain ⟨timeframe, accepted⟩ := known bar List.mem_cons_self
      obtain ⟨normalized, rest⟩ := ih fun other member => known other (List.mem_cons_of_mem _ member)
      refine ⟨bar.persisted timeframe :: normalized, ?_⟩
      rw [List.mapM_cons, normalizedBar_eq_ok.mpr ⟨timeframe, accepted, rfl⟩, rest]
      rfl

theorem timeframes_of_rowsDigest {version : ChecksumVersion} {bars : List (MarketBar F)}
    {checksum : String} (digested : rowsDigest version bars = .ok checksum) :
    ∀ bar ∈ bars, ∃ timeframe, canonicalTimeframe bar.timeframe = .ok timeframe := by
  obtain ⟨updates, updated, _⟩ := bind_eq_ok.mp digested
  intro bar member
  obtain ⟨update, made⟩ := ok_of_mem_mapM updated bar member
  exact timeframe_of_updateChecksum made

theorem timeframes_of_extendTailChainAll {version : ChecksumVersion} {bars : List (MarketBar F)}
    {first last : String} (chained : extendTailChainAll version first bars = .ok last) :
    ∀ bar ∈ bars, ∃ timeframe, canonicalTimeframe bar.timeframe = .ok timeframe := by
  induction bars generalizing first with
  | nil => simp
  | cons row rows ih =>
      simp only [extendTailChainAll, List.foldlM_cons, bind_eq_ok] at chained
      obtain ⟨middle, linked, rest⟩ := chained
      rintro bar (_ | ⟨_, member⟩)
      · unfold extendTailChain at linked
        split at linked
        · cases linked
        · split at linked
          · cases linked
          · obtain ⟨update, made, _⟩ := bind_eq_ok.mp linked
            exact timeframe_of_updateChecksum made
      · exact ih rest bar member

end Digest

section Stored

variable [PyText] {F : Type} [PyFloat F]

/-- What the row codec, the field limit and the sentinel check ask of a bar. -/
structure MarketBar.Storable (bar : MarketBar F) : Prop where
  survives : bar.Survives
  fits : bar.Fits
  semantics : validatePersistedBarSemantics bar = .ok ()

omit [PyFloat F] in
theorem MarketBar.persisted_persisted {bar : MarketBar F} {timeframe : String} :
    (bar.persisted timeframe).persisted timeframe = bar.persisted timeframe := by
  simp only [MarketBar.persisted, PyText.lower_lower, PyText.upper_upper]

/-- A bar that also survives when the store writes again what it read. -/
structure MarketBar.Lasting (bar : MarketBar F) : Prop extends bar.Storable where
  again : ∀ timeframe, canonicalTimeframe bar.timeframe = .ok timeframe →
    (bar.persisted timeframe).Fits

/-- What was read of a lasting bar lasts. -/
theorem MarketBar.Lasting.persisted {bar : MarketBar F} {timeframe : String} (lasting : bar.Lasting)
    (accepted : canonicalTimeframe bar.timeframe = .ok timeframe) :
    (bar.persisted timeframe).Lasting where
  survives := { lasting.survives with }
  fits := lasting.again timeframe accepted
  semantics := lasting.semantics
  again other found := by
    have same : canonicalTimeframe timeframe = .ok other := found
    rw [canonicalTimeframe_idempotent accepted, Except.ok.injEq] at same
    rw [← same, MarketBar.persisted_persisted]
    exact lasting.again timeframe accepted

theorem lasting_normalized {bars normalized : List (MarketBar F)}
    (normal : bars.mapM normalizedBar = .ok normalized) (lasting : ∀ bar ∈ bars, bar.Lasting) :
    ∀ bar ∈ normalized, bar.Lasting := by
  rw [mapM_eq_ok] at normal
  induction normal with
  | nil => simp
  | cons written rest ih =>
      obtain ⟨timeframe, accepted, rfl⟩ := normalizedBar_eq_ok.mp written
      rw [List.forall_mem_cons] at lasting
      exact List.forall_mem_cons.mpr ⟨lasting.1.persisted accepted, ih lasting.2⟩

/-- The manifest counts the bars and names the first and the last time. -/
structure SegmentManifest.Spans (manifest : SegmentManifest) (bars : List (MarketBar F)) : Prop where
  rowsCount : manifest.rowsCount = bars.length
  startTime : manifest.startTime = bars.head?.map fun bar => bar.time
  endTime : manifest.endTime = bars.getLast?.map fun bar => bar.time

omit [PyText] [PyFloat F] in
theorem generationManifest_spans (key : SeriesKey) (format : SegmentFormat)
    (bars : List (MarketBar F)) (checksum : String) :
    (generationManifest key format bars checksum).Spans bars :=
  ⟨rfl, rfl, rfl⟩

omit [PyText] [PyFloat F] in
theorem SegmentManifest.Spans.insertable {manifest : SegmentManifest} {bars : List (MarketBar F)}
    (spans : manifest.Spans bars) : manifest.Insertable := by
  unfold SegmentManifest.Insertable
  rw [spans.rowsCount, spans.startTime, spans.endTime]
  cases bars with
  | nil => exact .inl rfl
  | cons first rest => exact .inr ⟨rfl, by simp [List.getLast?_cons]⟩

variable [Sha256]

/-- The full validator accepts the file, and the reader returns the normal forms of the bars. -/
def ReadsBack (state : SeriesState) (bars : List (MarketBar F)) : Prop :=
  ∃ bytes raw normalized, state.data (.bars .csv) = some bytes ∧ state.manifest = some raw ∧
    validateCsvChecksum F bytes raw = .ok () ∧ bars.mapM normalizedBar = .ok normalized ∧
    readCsv F bytes = .ok normalized

/-- The manifest describes a CSV file of these bars.
Nothing says yet that they can be read from it again. -/
structure CsvSeries (raw : RawManifest) (bars : List (MarketBar F)) : Prop where
  format : raw.toManifest.dataFormat = .csv
  spans : raw.toManifest.Spans bars
  sorted : bars.Pairwise (·.time < ·.time)
  timeframes : ∀ bar ∈ bars, ∃ timeframe, canonicalTimeframe bar.timeframe = .ok timeframe
  agrees : (∀ bar ∈ bars, bar.Storable) → ChecksumAgrees raw bars

/-- A quiescent series with that file. -/
structure StoredCsv (state : SeriesState) (raw : RawManifest) (bars : List (MarketBar F)) : Prop
    extends CsvSeries raw bars where
  quiet : state.Quiescent
  data : state.data (.bars .csv) = some (csvFile bars)
  named : state.manifest = some raw

omit [Sha256] in
theorem readCsv_of_storable {bars normalized : List (MarketBar F)}
    (normal : bars.mapM normalizedBar = .ok normalized) (storable : ∀ bar ∈ bars, bar.Storable) :
    readCsv F (csvFile bars) = .ok normalized :=
  (readCsv_csvFile_iff normal).mpr
    fun bar member => ⟨(storable bar member).survives, (storable bar member).fits⟩

omit [PyFloat F] [Sha256] in
theorem semantics_normalized {bars normalized : List (MarketBar F)}
    (normal : bars.mapM normalizedBar = .ok normalized) :
    (∀ bar ∈ normalized, validatePersistedBarSemantics bar = .ok ()) ↔
      ∀ bar ∈ bars, validatePersistedBarSemantics bar = .ok () := by
  rw [mapM_eq_ok] at normal
  induction normal with
  | nil => simp
  | cons written rest ih =>
      obtain ⟨timeframe, _, rfl⟩ := normalizedBar_eq_ok.mp written
      rw [List.forall_mem_cons, List.forall_mem_cons, ih]
      rfl

/-- Storable bars pass the validator exactly under a manifest that has their digest. -/
theorem validateCsvChecksum_csvFile_iff {bars normalized : List (MarketBar F)} (raw : RawManifest)
    (normal : bars.mapM normalizedBar = .ok normalized) (storable : ∀ bar ∈ bars, bar.Storable) :
    validateCsvChecksum F (csvFile bars) raw = .ok () ↔ ChecksumAgrees raw bars := by
  have read := readCsv_of_storable normal storable
  have same := checksumAgrees_congr (sameDigest_normalized normal) raw
  rw [validateCsvChecksum_ok_iff]
  constructor
  · rintro ⟨found, again, -, agrees⟩
    rw [read, Except.ok.injEq] at again
    subst again
    exact same.mp agrees
  · intro agrees
    exact ⟨normalized, read, (semantics_normalized normal).mpr
      fun bar member => (storable bar member).semantics, same.mpr agrees⟩

/-- The digest of a file of storable bars is the digest of the bars. -/
theorem csvCanonicalChecksum_csvFile_iff {bars normalized : List (MarketBar F)} {checksum : String}
    (normal : bars.mapM normalizedBar = .ok normalized) (storable : ∀ bar ∈ bars, bar.Storable) :
    csvCanonicalChecksum F (csvFile bars) = .ok checksum ↔ rowsDigest .v4 bars = .ok checksum := by
  have read := readCsv_of_storable normal storable
  have semantics := (semantics_normalized normal).mpr fun bar member => (storable bar member).semantics
  rw [← rowsDigest_congr (sameDigest_normalized normal)]
  simp only [csvCanonicalChecksum, rowsDigest, bind_eq_ok, pure_eq_ok, digestRows_canonical]
  constructor
  · rintro ⟨_, ⟨found, again, -, updates, updated, rfl⟩, rfl⟩
    rw [read, Except.ok.injEq] at again
    subst again
    exact ⟨updates, updated, rfl⟩
  · rintro ⟨updates, updated, rfl⟩
    exact ⟨_, ⟨normalized, read, semantics, updates, updated, rfl⟩, rfl⟩

/-- A written series is read back exactly when each of its bars is storable. -/
theorem StoredCsv.readsBack_iff {state : SeriesState} {raw : RawManifest}
    {bars : List (MarketBar F)} (stored : StoredCsv state raw bars) :
    ReadsBack state bars ↔ ∀ bar ∈ bars, bar.Storable := by
  obtain ⟨normalized, normal⟩ := normalized_of_timeframes stored.timeframes
  constructor
  · rintro ⟨bytes, found, _, data, named, valid, same, read⟩
    rw [stored.data, Option.some.injEq] at data
    rw [normal, Except.ok.injEq] at same
    subst data same
    have survive := (readCsv_csvFile_iff normal).mp read
    obtain ⟨again, reads, checked, _⟩ := validateCsvChecksum_ok_iff.mp valid
    rw [read, Except.ok.injEq] at reads
    subst reads
    exact fun bar member => ⟨(survive bar member).1, (survive bar member).2,
      (semantics_normalized normal).mp checked bar member⟩
  · intro storable
    exact ⟨_, _, normalized, stored.data, stored.named,
      (validateCsvChecksum_csvFile_iff raw normal storable).mpr (stored.agrees storable), normal,
      readCsv_of_storable normal storable⟩

omit [PyText] [PyFloat F] [Sha256] in
/-- The tail metadata is the same whether a field is absent or null. -/
theorem tailBase_asdict (raw : RawManifest) : tailBase raw.toManifest.asdict = tailBase raw := by
  obtain ⟨header, format, algorithm, checksum, rows⟩ := raw
  cases checksum
  · cases rows
    · rfl
    · rfl
  · cases rows
    · rfl
    · rfl

/-- The defaults change the digest only where the manifest has no algorithm. -/
theorem checksumAgrees_asdict {raw : RawManifest} {bars : List (MarketBar F)} {algorithm : String}
    (named : raw.checksumAlgorithm = some algorithm) :
    ChecksumAgrees raw.toManifest.asdict bars ↔ ChecksumAgrees raw bars := by
  unfold ChecksumAgrees
  rw [tailBase_asdict, show raw.toManifest.asdict.checksumAlgorithm = raw.checksumAlgorithm by
    rw [named]; exact congrArg some (by rw [RawManifest.toManifest, named]; rfl)]
  rfl

omit [PyText] [PyFloat F] [Sha256] in
/-- A v4 tail chain is never a default. -/
theorem checksumAlgorithm_of_modern {raw : RawManifest} (modern : raw.toManifest.legacy = false) :
    raw.checksumAlgorithm = some tailChainChecksum := by
  have algorithm : raw.checksumAlgorithm.getD canonicalChecksum = tailChainChecksum := by
    by_contra other
    simp [SegmentManifest.legacy, RawManifest.toManifest, other] at modern
  cases found : raw.checksumAlgorithm with
  | none =>
      rw [found] at algorithm
      exact absurd algorithm (by decide)
  | some name =>
      rw [found] at algorithm
      exact congrArg some algorithm

/-- The migration digests what it reads, so that its base is the digest of storable bars. -/
theorem checksumAgrees_migrated {manifest : SegmentManifest} {bars : List (MarketBar F)}
    {checksum : String}
    (known : ∀ bar ∈ bars, ∃ timeframe, canonicalTimeframe bar.timeframe = .ok timeframe)
    (storable : ∀ bar ∈ bars, bar.Storable) (rows : manifest.rowsCount = bars.length)
    (digested : csvCanonicalChecksum F (csvFile bars) = .ok checksum) :
    ChecksumAgrees (manifest.migrated checksum).asdict bars := by
  have name : ChecksumAlgorithm.ofName tailChainChecksum = some (.tailChain .v4) :=
    ChecksumAlgorithm.ofName_name _
  obtain ⟨normalized, normal⟩ := normalized_of_timeframes known
  have base := (csvCanonicalChecksum_csvFile_iff normal storable).mp digested
  simp only [ChecksumAgrees, SegmentManifest.migrated, SegmentManifest.asdict, Option.getD_some, name]
  refine ⟨⟨bars.length, checksum⟩, ?_, Nat.le_refl _, ?_, ?_⟩
  · simp [tailBase, rows]
  · simpa using base
  · simp [extendTailChainAll]

theorem checksumAgrees_generationManifest {key : SeriesKey} {bars : List (MarketBar F)}
    {checksum : String} (digested : rowsDigest .v4 bars = .ok checksum) :
    ChecksumAgrees (generationManifest key .csv bars checksum).asdict bars := by
  have name : ChecksumAlgorithm.ofName tailChainChecksum = some (.tailChain .v4) :=
    ChecksumAlgorithm.ofName_name _
  simp only [ChecksumAgrees, generationManifest, SegmentManifest.asdict, Option.getD_some, if_true,
    name]
  refine ⟨⟨bars.length, checksum⟩, ?_, Nat.le_refl _, ?_, ?_⟩
  · simp [tailBase]
  · simpa using digested
  · simp [extendTailChainAll]

theorem generationManifest_csvSeries (key : SeriesKey) {bars : List (MarketBar F)}
    {checksum : String} (sorted : bars.Pairwise (·.time < ·.time))
    (digested : rowsDigest .v4 bars = .ok checksum) :
    CsvSeries (generationManifest key .csv bars checksum).asdict bars where
  format := rfl
  spans := generationManifest_spans _ _ _ _
  sorted
  timeframes := timeframes_of_rowsDigest digested
  agrees _ := checksumAgrees_generationManifest digested

/-- The chain of a v4 manifest goes on over the bars of an append. -/
theorem checksumAgrees_extended {manifest : SegmentManifest} {stored fresh : List (MarketBar F)}
    {checksum : String} {endTime : Int} (modern : manifest.legacy = false)
    (agrees : ChecksumAgrees manifest.asdict stored)
    (chained : extendTailChainAll .v4 manifest.checksum fresh = .ok checksum) :
    ChecksumAgrees (manifest.extended fresh.length endTime checksum).asdict (stored ++ fresh) := by
  have name : ChecksumAlgorithm.ofName tailChainChecksum = some (.tailChain .v4) :=
    ChecksumAlgorithm.ofName_name _
  have algorithm : manifest.checksumAlgorithm = tailChainChecksum := by
    by_contra other
    simp [SegmentManifest.legacy, other] at modern
  simp only [ChecksumAgrees, SegmentManifest.asdict, Option.getD_some, algorithm, name] at agrees
  obtain ⟨base, based, short, digested, linked⟩ := agrees
  simp only [ChecksumAgrees, SegmentManifest.extended, SegmentManifest.asdict, Option.getD_some, name]
  refine ⟨base, based, ?_, ?_, ?_⟩
  · rw [List.length_append]
    omega
  · rw [List.take_append_of_le_length short, digested]
  · rw [List.drop_append_of_le_length short, extendTailChainAll, foldlM_append_eq_ok]
    exact ⟨_, linked, chained⟩

omit [PyText] [Sha256] in
theorem validateMarketBars_sorted {bars : List (MarketBar F)} (valid : validateMarketBars bars = .ok ()) :
    bars.Pairwise (·.time < ·.time) := by
  have sorted := ((validateBars_ok_iff _).mp valid).1
  rwa [List.pairwise_map] at sorted

theorem rowsDigest_of_barsChecksum {bars : List (MarketBar F)} {checksum : String}
    (sorted : bars.Pairwise (·.time < ·.time)) (digested : barsChecksum bars = .ok checksum) :
    rowsDigest .v4 bars = .ok checksum := by
  rwa [barsChecksum, versionedBarsChecksum, sortByTime_eq_self sorted] at digested

omit [Sha256] in
/-- The streaming writer refuses a list out of order and digests the others like a full write. -/
theorem streamBars_ok {bars : List (MarketBar F)} {previous : Option Int} {digest : List UInt8}
    (streamed : streamBars previous bars = .ok digest) :
    (∀ last, previous = some last → ∀ bar ∈ bars, last < bar.time) ∧
      bars.Pairwise (·.time < ·.time) ∧
      ∃ updates, bars.mapM (updateChecksum .v4) = .ok updates ∧ digest = updates.flatten := by
  induction bars generalizing previous digest with
  | nil =>
      cases streamed
      exact ⟨by simp, .nil, [], rfl, rfl⟩
  | cons bar rest ih =>
      rw [streamBars] at streamed
      split at streamed
      · cases streamed
      · rename_i ordered
        simp only [bind_eq_ok, pure_eq_ok] at streamed
        obtain ⟨_, _, update, updated, later, streamed, rfl⟩ := streamed
        obtain ⟨after, sorted, updates, rest, rfl⟩ := ih streamed
        have newer := after bar.time rfl
        refine ⟨?_, List.pairwise_cons.mpr ⟨newer, sorted⟩, update :: updates, ?_, rfl⟩
        · rintro last rfl other member
          have first : last < bar.time := by simpa using ordered
          rcases List.mem_cons.mp member with rfl | late
          · exact first
          · exact first.trans (newer other late)
        · rw [List.mapM_cons, updated, rest]
          rfl

end Stored

end MarketdataProvider
