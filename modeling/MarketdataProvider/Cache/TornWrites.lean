import MarketdataProvider.Cache.CacheTexts
import MarketdataProvider.Core.Reference

namespace MarketdataProvider.LocalCache

open Foundation Foundation.Crash

/-- What is text in front of some bytes stands in front of the text of all of them. -/
theorem prefix_of_encodeUtf8 {before text : List Char} {rest : List UInt8}
    (split : encodeUtf8 before ++ rest = encodeUtf8 text) : before <+: text := by
  induction before generalizing text with
  | nil => exact List.nil_prefix
  | cons character others ih =>
      have parts : String.utf8EncodeChar character ++ (encodeUtf8 others ++ rest) = encodeUtf8 text := by
        rw [← split, ← List.append_assoc]
        rfl
      cases text with
      | nil => exact absurd (List.append_eq_nil_iff.mp parts).1 String.utf8EncodeChar_ne_nil
      | cons first later =>
          have whole : String.utf8EncodeChar character ++ (encodeUtf8 others ++ rest) =
              String.utf8EncodeChar first ++ encodeUtf8 later := parts
          have decoded := congrArg (fun bytes => bytes.toByteArray.utf8DecodeChar? 0) whole
          simp only [List.toByteArray_append, ByteArray.utf8DecodeChar?_utf8EncodeChar_append] at decoded
          obtain rfl := Option.some.inj decoded
          exact (List.prefix_cons_inj _).mpr (ih (List.append_cancel_left whole))

section Metadata

variable [PyText] [Sha256] {F : Type} [PyFloat F]

/-- The text is the metadata that a write of the bars leaves. -/
def MetadataOf (bars : List (Bar F)) (start stop : Option Int) (text : List Char) : Prop :=
  ∃ metadata : CacheSegmentMetadata, metadata.runtimeContractVersion = runtimeContractVersion ∧
    barsChecksum bars = .ok metadata.checksum ∧ metadata.bars = bars.length ∧ metadata.start = start ∧
      metadata.stop = stop ∧ metadataText metadata = .ok text

omit [PyText] [Sha256] in
theorem metadataMembers_valid {metadata : CacheSegmentMetadata}
    {members : List (List Char × Json.Scalar)} (written : metadataMembers metadata = .ok members) :
    ∀ member ∈ members, member.2.Valid := by
  simp only [metadataMembers, bind_eq_ok, pure_eq_ok] at written
  obtain ⟨bars, wroteBars, stop, wroteStop, firstTime, wroteFirst, lastTime, wroteLast, start, wroteStart,
    rfl⟩ := written
  simp only [List.forall_mem_cons]
  exact ⟨jsonInt_valid wroteBars, trivial, trivial, jsonOptInt_valid wroteStop, trivial,
    jsonOptInt_valid wroteFirst, jsonOptInt_valid wroteLast, trivial, trivial, jsonOptInt_valid wroteStart,
    trivial, trivial, List.forall_mem_nil _⟩

omit [PyText] [Sha256] in
theorem getMember_metadata {metadata : CacheSegmentMetadata}
    {members : List (List Char × Json.Scalar)} (written : metadataMembers metadata = .ok members) :
    getMember (Json.documents members) "checksum" =
        some (.scalar (.text metadata.checksum.toList)) ∧
      getMember (Json.documents members) "runtime_contract_version" =
        some (.scalar (.text metadata.runtimeContractVersion.toList)) := by
  simp only [metadataMembers, bind_eq_ok, pure_eq_ok] at written
  obtain ⟨bars, -, stop, -, firstTime, -, lastTime, -, start, -, rfl⟩ := written
  exact ⟨rfl, rfl⟩

omit [PyText] in
/-- Metadata that was cut off anywhere is refused or says what the whole of it says. -/
theorem loadMetadata_front {bars : List (Bar F)} {start stop : Option Int} {text : List Char}
    {front : List UInt8} {members : List (List Char × Json.Document)} (written : MetadataOf bars start stop text)
    (cut : front <+: encodeUtf8 text) (loaded : loadMetadata front = .ok members) :
    ∃ checksum, barsChecksum bars = .ok checksum ∧
      getMember members "checksum" = some (.scalar (.text checksum.toList)) := by
  obtain ⟨metadata, -, summed, -, -, -, dumped⟩ := written
  simp only [metadataText, bind_eq_ok, pure_eq_ok] at dumped
  obtain ⟨scalars, made, rfl⟩ := dumped
  refine ⟨metadata.checksum, summed, ?_⟩
  unfold loadMetadata at loaded
  split at loaded
  · cases loaded
  · rename_i found decoded
    split at loaded
    · cases loaded
    · rename_i others read
      obtain rfl := Except.ok.inj loaded
      obtain ⟨rest, whole⟩ := cut
      rw [← encodeUtf8_of_decodeUtf8 decoded] at whole
      obtain ⟨missing, same⟩ := prefix_of_encodeUtf8 whole
      have document := Json.loads_front (metadataMembers_valid made) same read
      rw [Json.Document.object.inj document]
      exact (getMember_metadata made).1
    · cases loaded

omit [PyText] in
theorem loadMetadata_whole {bars : List (Bar F)} {start stop : Option Int} {text : List Char}
    (written : MetadataOf bars start stop text) :
    ∃ members checksum, loadMetadata (encodeUtf8 text) = .ok members ∧ barsChecksum bars = .ok checksum ∧
      getMember members "checksum" = some (.scalar (.text checksum.toList)) ∧
        getMember members "runtime_contract_version" =
          some (.scalar (.text runtimeContractVersion.toList)) := by
  obtain ⟨metadata, version, summed, -, -, -, dumped⟩ := written
  simp only [metadataText, bind_eq_ok, pure_eq_ok] at dumped
  obtain ⟨scalars, made, rfl⟩ := dumped
  obtain ⟨checksum, contract⟩ := getMember_metadata made
  refine ⟨Json.documents scalars, metadata.checksum, ?_, summed, checksum, version ▸ contract⟩
  rw [loadMetadata, decodeUtf8_encodeUtf8]
  dsimp only
  rw [Json.loads_dumps (metadataMembers_valid made) (show ['\n'].all Json.blank = true from rfl)]

omit [PyText] [Sha256] in
theorem isText_text {value text : String} :
    isText (some (.scalar (.text value.toList))) text = true ↔ value = text := by
  simp [isText, String.toList_inj]

theorem readSegment_eq_ok {data metadata : List UInt8} {start stop maxBars : Option Int}
    {out : List (Bar F)} : readSegment data metadata start stop maxBars = .ok out ↔
      ∃ bars members checksum, storedBars F data = .ok bars ∧ validateBars bars = .ok () ∧
        loadMetadata metadata = .ok members ∧
          isText (getMember members "runtime_contract_version") runtimeContractVersion = true ∧
            barsChecksum bars = .ok checksum ∧ isText (getMember members "checksum") checksum = true ∧
              selectBars start stop maxBars bars = out := by
  unfold readSegment
  simp only [bind_eq_ok]
  constructor
  · rintro ⟨bars, stored, ⟨⟩, valid, members, loaded, rest⟩
    split_ifs at rest with version
    simp only [bind_eq_ok] at rest
    obtain ⟨checksum, summed, rest⟩ := rest
    split_ifs at rest with same
    exact ⟨bars, members, checksum, stored, valid, loaded, by simpa using version, summed, by simpa using same,
      pure_eq_ok.mp rest⟩
  · rintro ⟨bars, members, checksum, stored, valid, loaded, version, summed, same, selected⟩
    refine ⟨bars, stored, (), valid, members, loaded, ?_⟩
    rw [if_neg (by simp [version])]
    refine bind_eq_ok.mpr ⟨checksum, summed, ?_⟩
    rw [if_neg (by simp [same])]
    exact pure_eq_ok.mpr selected

omit [PyText] [Sha256] [PyFloat F] in
theorem selectBars_all (bars : List (Bar F)) : selectBars none none none bars = bars := by
  simp [selectBars]

end Metadata

section Program

variable {F : Type} [PyFloat F] {path : List String} {invariant : Files → Prop}

theorem setFile_setFile (first second : List UInt8) (files : Files) :
    setFile path second (setFile path first files) = setFile path second files :=
  Function.update_idem _ _ _

theorem setFile_self (content : List UInt8) (files : Files) :
    setFile path content files path = some content := Function.update_self _ _ _

theorem setFile_of_ne {other : List String} (different : other ≠ path) (content : List UInt8)
    (files : Files) : setFile path content files other = files other :=
  Function.update_of_ne different _ _

/-- Byte by byte, the file holds a front of what is written. -/
theorem appendBytes_keeps {bytes content : List UInt8} {files : Files}
    (holds : ∀ front, front <+: bytes → invariant (setFile path (content ++ front) files)) :
    Prog.Guarded invariant (fun _ after => after = setFile path (content ++ bytes) files)
      (appendBytes path bytes) (setFile path content files) := by
  induction bytes generalizing content with
  | nil =>
      have start := holds [] List.nil_prefix
      rw [List.append_nil] at start ⊢
      exact .done start rfl
  | cons byte rest ih =>
      have start := holds [] List.nil_prefix
      rw [List.append_nil] at start
      have later : ∀ front, front <+: rest →
          invariant (setFile path ((content ++ [byte]) ++ front) files) := by
        intro front before
        have next := holds (byte :: front) ((List.prefix_cons_inj byte).mpr before)
        rwa [List.append_cons] at next
      have next := ih later
      rw [List.append_cons, appendBytes]
      refine .step start ?_
      rw [setFile_self, setFile_setFile]
      exact next

theorem writeRows_keeps {bars : List (Bar F)} {content : List UInt8} {files : Files}
    (holds : ∀ text, invariant (setFile path text files)) :
    Prog.Keeps invariant (fun _ after => ∃ records, bars.mapM cacheRecord = .ok records ∧
        after = setFile path (content ++ encodeUtf8 (records.flatMap Csv.encodeRecord)) files)
      (writeRows path bars) (setFile path content files) := by
  induction bars generalizing content with
  | nil =>
      refine .done (holds content) ⟨[], rfl, ?_⟩
      rw [List.flatMap_nil, show encodeUtf8 [] = [] from rfl, List.append_nil]
  | cons bar rest ih =>
      rw [writeRows]
      refine .ofExcept (holds content) fun record wrote => ?_
      refine .bind (appendBytes_keeps fun front _ => holds _).partially fun _ after same => ?_
      rw [same]
      refine ih.weaken (fun _ kept => kept) ?_
      rintro _ last ⟨records, written, rfl⟩
      refine ⟨record :: records, ?_, ?_⟩
      · rw [mapM_eq_ok] at written ⊢
        exact .cons wrote written
      · rw [List.flatMap_cons, encodeUtf8_append, List.append_assoc]

theorem run_appendBytes (bytes content : List UInt8) (files : Files) :
    (appendBytes path bytes).run (setFile path content files) =
      (.ok (), setFile path (content ++ bytes) files) := by
  have always : Prog.Guarded (fun _ => True) (fun _ after => after = setFile path (content ++ bytes) files)
      (appendBytes path bytes) (setFile path content files) := appendBytes_keeps fun _ _ => trivial
  obtain ⟨-, ⟨⟩, after, ran, rfl⟩ := always
  exact ran

theorem run_writeRows {bars : List (Bar F)} {records : List (List String)}
    (written : bars.mapM cacheRecord = .ok records) (content : List UInt8) (files : Files) :
    ∃ after, (writeRows path bars).run (setFile path content files) = (.ok (), after) := by
  rw [mapM_eq_ok] at written
  induction written generalizing content with
  | nil => exact ⟨_, rfl⟩
  | cons wrote _ ih =>
      obtain ⟨last, ran⟩ := ih (content ++ encodeUtf8 (Csv.encodeRecord _))
      refine ⟨last, ?_⟩
      rw [writeRows, wrote, Prog.ofExcept_ok, Prog.done_bind, Prog.run_bind_ok (run_appendBytes _ _ _)]
      exact ran

end Program

section Write

variable [PyText] [Sha256] {F : Type} [PyFloat F] {root : String} {key : CacheKey} {bars : List (Bar F)}
  {start stop : Option Int} {before : Files} {seg : List String}

/-- The metadata is still the one from before, or a front of the new one. -/
def Between (bars : List (Bar F)) (start stop : Option Int) (seg : List String) (before files : Files) :
    Prop :=
  files (metadataPath seg) = before (metadataPath seg) ∨
    ∃ text front, MetadataOf bars start stop text ∧ front <+: encodeUtf8 text ∧
      files (metadataPath seg) = some front

/-- What a completed write leaves. -/
def Completed (bars : List (Bar F)) (start stop : Option Int) (seg : List String) (files : Files) : Prop :=
  validateBars bars = .ok () ∧ ∃ records text, bars.mapM cacheRecord = .ok records ∧
    MetadataOf bars start stop text ∧
      files (barsPath seg) = some (encodeUtf8 ((cacheFields :: records).flatMap Csv.encodeRecord)) ∧
        files (metadataPath seg) = some (encodeUtf8 text)

omit [PyText] [Sha256] [PyFloat F] in
theorem metadataPath_ne (seg : List String) : metadataPath seg ≠ barsPath seg := by
  simp [metadataPath, barsPath]

theorem writeCacheSegment_keeps (found : cacheSegmentDir root key = .ok seg) :
    Prog.Keeps (Between bars start stop seg before) (fun _ after => Completed bars start stop seg after)
      (writeCacheSegment root bars key start stop) before := by
  have untouched (content : List UInt8) :
      Between bars start stop seg before (setFile (barsPath seg) content before) :=
    .inl (setFile_of_ne (metadataPath_ne seg) _ _)
  unfold writeCacheSegment
  refine .ofExcept (.inl rfl) fun _ valid => ?_
  refine .ofExcept (.inl rfl) fun directory named => ?_
  obtain rfl := Except.ok.inj (found.symm.trans named)
  refine .modify (.inl rfl) ?_
  refine .bind (appendBytes_keeps fun front _ => untouched _).partially fun _ opened same => ?_
  rw [same, List.nil_append]
  refine .bind (writeRows_keeps untouched) ?_
  rintro _ filled ⟨records, written, rfl⟩
  refine .ofExcept (untouched _) fun timeframe canonical => ?_
  refine .ofExcept (untouched _) fun checksum summed => ?_
  refine .ofExcept (untouched _) fun text dumped => ?_
  have described : MetadataOf bars start stop text := ⟨_, rfl, summed, rfl, rfl, rfl, dumped⟩
  refine .modify (untouched _) ?_
  refine .bind (appendBytes_keeps fun front cut => .inr ⟨text, front, described, cut, setFile_self _ _⟩).partially
    fun _ last ended => ?_
  rw [ended, List.nil_append]
  refine .done (.inr ⟨text, _, described, List.prefix_rfl, setFile_self _ _⟩)
    ⟨valid, records, text, written, described, ?_, setFile_self _ _⟩
  rw [setFile_of_ne (metadataPath_ne seg).symm, setFile_self, List.flatMap_cons, encodeUtf8_append]

omit [PyText] [Sha256] [PyFloat F] in
theorem jsonOptInt_returns {value : Option Int} :
    (∃ scalar, jsonOptInt value = .ok scalar) ↔ ∀ number ∈ value, Printable number := by
  cases value with
  | none => simp [jsonOptInt]
  | some number => simp [jsonOptInt, jsonInt_eq_ok]

omit [PyText] [Sha256] in
theorem checksumText_returns {bar : Bar F} (time : Printable bar.time)
    (timeClose : ∀ close ∈ bar.timeClose, Printable close) : ∃ text, checksumText bar = .ok text := by
  obtain ⟨close, printed⟩ := jsonOptInt_returns.mpr timeClose
  simp only [checksumText, checksumRow, bind_eq_ok, pure_eq_ok]
  exact ⟨_, _, ⟨_, jsonInt_eq_ok.mpr ⟨time, rfl⟩, close, printed, rfl⟩, rfl⟩

omit [PyText] [Sha256] in
theorem metadataText_returns {metadata : CacheSegmentMetadata} (bars : Printable metadata.bars)
    (start : ∀ number ∈ metadata.start, Printable number)
    (stop : ∀ number ∈ metadata.stop, Printable number)
    (firstTime : ∀ number ∈ metadata.firstTime, Printable number)
    (lastTime : ∀ number ∈ metadata.lastTime, Printable number) :
    ∃ text, metadataText metadata = .ok text := by
  obtain ⟨startText, printedStart⟩ := jsonOptInt_returns.mpr start
  obtain ⟨stopText, printedStop⟩ := jsonOptInt_returns.mpr stop
  obtain ⟨firstText, printedFirst⟩ := jsonOptInt_returns.mpr firstTime
  obtain ⟨lastText, printedLast⟩ := jsonOptInt_returns.mpr lastTime
  simp only [metadataText, metadataMembers, bind_eq_ok, pure_eq_ok]
  exact ⟨_, _, ⟨_, jsonInt_eq_ok.mpr ⟨bars, rfl⟩, stopText, printedStop, firstText, printedFirst, lastText,
    printedLast, startText, printedStart, rfl⟩, rfl⟩

/-- The numbers that a write has to print. The times of the first and the last bar are among them. -/
def writtenNumbers (bars : List (Bar F)) (start stop : Option Int) : List Int :=
  (bars.length : Int) :: start.toList ++ stop.toList ++
    bars.flatMap fun bar => bar.time :: bar.timeClose.toList

omit [PyText] [Sha256] [PyFloat F] in
theorem printable_writtenNumbers : (∀ number ∈ writtenNumbers bars start stop, Printable number) ↔
    Printable bars.length ∧ (∀ number ∈ start, Printable number) ∧ (∀ number ∈ stop, Printable number) ∧
      ∀ bar ∈ bars, Printable bar.time ∧ ∀ close ∈ bar.timeClose, Printable close := by
  unfold writtenNumbers
  simp only [List.cons_append, List.forall_mem_cons, List.forall_mem_append, List.mem_flatMap,
    Option.mem_toList]
  constructor
  · rintro ⟨count, ⟨first, last⟩, rows⟩
    refine ⟨count, first, last, fun bar member => ?_⟩
    exact ⟨rows _ ⟨bar, member, List.mem_cons_self⟩,
      fun close found => rows close ⟨bar, member, List.mem_cons_of_mem _ (by simpa using found)⟩⟩
  · rintro ⟨count, first, last, rows⟩
    refine ⟨count, ⟨first, last⟩, ?_⟩
    rintro number ⟨bar, member, inside⟩
    rcases List.mem_cons.mp inside with rfl | close
    · exact (rows bar member).1
    · exact (rows bar member).2 number (by simpa using close)

/-- A write returns exactly for accepted bars, a known timeframe and numbers that can be printed. -/
theorem writeCacheSegment_returns :
    (∃ metadata, ((writeCacheSegment root bars key start stop).run before).1 = .ok metadata) ↔
      validateBars bars = .ok () ∧ (∃ seg, cacheSegmentDir root key = .ok seg) ∧
        ∀ number ∈ writtenNumbers bars start stop, Printable number := by
  rw [printable_writtenNumbers]
  constructor
  · rintro ⟨metadata, returned⟩
    have directory : ∃ seg, cacheSegmentDir root key = .ok seg := by
      unfold writeCacheSegment at returned
      obtain ⟨⟨⟩, -, rest⟩ := Prog.run_ofExcept_bind_eq_ok.mp returned
      obtain ⟨seg, found, -⟩ := Prog.run_ofExcept_bind_eq_ok.mp rest
      exact ⟨seg, found⟩
    obtain ⟨seg, found⟩ := directory
    obtain ⟨valid, records, text, written, described, -⟩ :=
      (writeCacheSegment_keeps found).2 metadata _ (Prod.ext returned rfl)
    obtain ⟨metadata, -, -, count, first, last, dumped⟩ := described
    simp only [metadataText, metadataMembers, bind_eq_ok, pure_eq_ok] at dumped
    obtain ⟨-, ⟨length, printed, stopped, printedStop, -, -, -, -, started, printedStart, -⟩, -⟩ := dumped
    refine ⟨valid, ⟨seg, found⟩, count ▸ (jsonInt_eq_ok.mp printed).1,
      first ▸ jsonOptInt_returns.mp ⟨started, printedStart⟩,
      last ▸ jsonOptInt_returns.mp ⟨stopped, printedStop⟩, fun bar member => ?_⟩
    obtain ⟨record, own⟩ := ok_of_mem_mapM written bar member
    obtain ⟨time, timeClose, -⟩ := cacheRecord_eq_ok.mp own
    exact ⟨time, fun close same => timeClose close same⟩
  · rintro ⟨valid, ⟨seg, found⟩, count, first, last, rows⟩
    obtain ⟨timeframe, canonical, -⟩ := bind_eq_ok.mp found
    obtain ⟨records, written⟩ : ∃ records, bars.mapM cacheRecord = .ok records :=
      mapM_ok fun bar member => ⟨_, cacheRecord_eq_ok.mpr ⟨(rows bar member).1, (rows bar member).2, rfl⟩⟩
    obtain ⟨texts, entered⟩ : ∃ texts, bars.mapM checksumText = .ok texts :=
      mapM_ok fun bar member => checksumText_returns (rows bar member).1 (rows bar member).2
    obtain ⟨checksum, summed⟩ : ∃ checksum, barsChecksum bars = .ok checksum := by
      simp only [barsChecksum, checksumInput, bind_eq_ok, pure_eq_ok]
      exact ⟨_, _, ⟨texts, entered, rfl⟩, rfl⟩
    have edge {bar : Option (Bar F)} (listed : ∀ found ∈ bar, found ∈ bars) :
        ∀ number ∈ bar.map Bar.time, Printable number := by
      intro number member
      obtain ⟨found, own, rfl⟩ := Option.map_eq_some_iff.mp member
      exact (rows found (listed found own)).1
    obtain ⟨text, dumped⟩ : ∃ text,
        metadataText (segmentMetadata bars key start stop timeframe checksum) = .ok text :=
      metadataText_returns count first last (edge fun _ => List.mem_of_head?)
        (edge fun _ => List.mem_of_getLast?)
    have opened : (openFile (barsPath seg)).run before = (.ok (), setFile (barsPath seg) [] before) := rfl
    obtain ⟨filled, ran⟩ : ∃ filled, (writeRows (barsPath seg) bars).run
        (setFile (barsPath seg) ([] ++ encodeUtf8 (Csv.encodeRecord cacheFields)) before) =
          (.ok (), filled) := run_writeRows written _ _
    have again : (openFile (metadataPath seg)).run filled =
      (.ok (), setFile (metadataPath seg) [] filled) := rfl
    refine ⟨segmentMetadata bars key start stop timeframe checksum, ?_⟩
    unfold writeCacheSegment
    rw [valid, found, canonical, summed]
    simp only [Prog.ofExcept_ok, Prog.done_bind]
    rw [Prog.run_bind_ok opened, Prog.run_bind_ok (run_appendBytes _ _ _), Prog.run_bind_ok ran, dumped,
      Prog.ofExcept_ok, Prog.done_bind, Prog.run_bind_ok again, Prog.run_bind_ok (run_appendBytes _ _ _)]
    rfl

end Write

section Torn

/-- Each file is as it was at some point of the run; nothing orders the files on the disk. -/
def TornBy {Value : Type} (program : Prog Files PyError Value) (before crash : Files) : Prop :=
  ∀ path, ∃ visited ∈ program.visits before, crash path = visited path

variable [PyText] [Sha256] {F : Type} [PyFloat F] {root : String} {key : CacheKey}

/-- There is no segment yet, or one that is read as the old bars. -/
def Previous (root : String) (key : CacheKey) (old : List (Bar F)) (before : Files) : Prop :=
  (∀ seg, cacheSegmentDir root key = .ok seg → before (metadataPath seg) = none) ∨
    readCacheSegment root key none none none before = .ok old

/-- The reader's hash is fed the rows that it finds, those of the writers theirs. -/
def fedInputs (root : String) (key : CacheKey) (old bars : List (Bar F)) (crash : Files) :
    Set (List UInt8) :=
  {input | ∃ rows : List (Bar F), (rows = old ∨ rows = bars ∨ ∃ seg data,
      cacheSegmentDir root key = .ok seg ∧ crash (barsPath seg) = some data ∧
        storedBars F data = .ok rows) ∧ checksumInput rows = .ok input}

omit [PyText] [Sha256] in
theorem isText_unique {found : Option Json.Document} {first second : String}
    (one : isText found first = true) (other : isText found second = true) : first = second := by
  unfold isText at one other
  split at one
  · exact String.toList_inj.mp ((of_decide_eq_true one).symm.trans (of_decide_eq_true other))
  · cases one

variable [FloatTexts F] {bars : List (Bar F)} {start stop : Option Int} {before : Files}

/-- A segment whose files were both written is read as the part of its bars that is asked for. -/
theorem readCacheSegment_completed {metadata : CacheSegmentMetadata} {after : Files}
    (comparable : ∀ bar ∈ bars, Comparable bar)
    (ran : (writeCacheSegment root bars key start stop).run before = (.ok metadata, after))
    (first last maxBars : Option Int) :
    readCacheSegment root key first last maxBars after = .ok (selectBars first last maxBars bars) := by
  obtain ⟨-, ⟨seg, found⟩, -⟩ :=
    writeCacheSegment_returns.mp ⟨metadata, congrArg Prod.fst ran⟩
  obtain ⟨valid, records, text, written, described, data, document⟩ :=
    (writeCacheSegment_keeps found).2 metadata after ran
  obtain ⟨members, checksum, loaded, summed, own, version⟩ := loadMetadata_whole described
  unfold readCacheSegment
  rw [found, ok_bind, data, document]
  exact readSegment_eq_ok.mpr ⟨bars, members, checksum, storedBars_written comparable written, valid, loaded,
    by rw [version, isText_text], summed, by rw [own, isText_text], rfl⟩

/-- Whatever a crash leaves, the reader finds the old bars or the new ones. -/
theorem rows_of_torn {old rows : List (Bar F)} {seg : List String} {crash : Files}
    {data document : List UInt8} {members : List (List Char × Json.Document)} {checksum : String}
    (newComparable : ∀ bar ∈ bars, Comparable bar) (oldComparable : ∀ bar ∈ old, Comparable bar)
    (previous : Previous root key old before)
    (torn : TornBy (writeCacheSegment root bars key start stop) before crash)
    (injective : Set.InjOn Sha256.digest (fedInputs root key old bars crash))
    (found : cacheSegmentDir root key = .ok seg) (held : crash (barsPath seg) = some data)
    (described : crash (metadataPath seg) = some document) (stored : storedBars F data = .ok rows)
    (loaded : loadMetadata document = .ok members) (summed : barsChecksum rows = .ok checksum)
    (same : isText (getMember members "checksum") checksum = true) : rows = old ∨ rows = bars := by
  have named {others : List (Bar F)} (comparable : ∀ bar ∈ others, Comparable bar)
      (other : others = old ∨ others = bars) (again : barsChecksum others = .ok checksum) : rows = others :=
    bars_of_checksum injective comparable summed again
      (fun input entered => ⟨rows, .inr (.inr ⟨seg, data, found, held, stored⟩), entered⟩)
      (fun input entered => ⟨others, other.imp_right .inl, entered⟩)
  obtain ⟨visited, member, unchanged⟩ := torn (metadataPath seg)
  rcases (writeCacheSegment_keeps found).1 visited member with kept | ⟨text, front, written, cut, holds⟩
  · -- The metadata is still the old one, so that it names the old bars.
    rw [← unchanged, described] at kept
    rcases previous with absent | readable
    · rw [absent seg found] at kept
      cases kept
    · unfold readCacheSegment at readable
      rw [found, ok_bind, ← kept] at readable
      split at readable
      · rename_i oldData oldDocument there document'
        obtain rfl := Option.some.inj document'
        obtain ⟨others, oldMembers, oldChecksum, -, -, reloaded, -, resummed, again, selected⟩ :=
          readSegment_eq_ok.mp readable
        rw [selectBars_all] at selected
        subst selected
        obtain rfl := Except.ok.inj (loaded.symm.trans reloaded)
        obtain rfl := isText_unique same again
        exact .inl (named oldComparable (.inl rfl) resummed)
      · cases readable
  · -- The metadata is a front of the new one, which only names the new bars.
    rw [← unchanged, described] at holds
    obtain rfl := Option.some.inj holds
    obtain ⟨newChecksum, resummed, own⟩ := loadMetadata_front written cut loaded
    rw [own, isText_text] at same
    subst same
    exact .inr (named newComparable (.inr rfl) resummed)

/-- A write that returns is read back, and a reader behind a crash raises or finds one of the two segments. -/
theorem local_cache_segment (comparable : ∀ bar ∈ bars, Comparable bar) :
    ((∃ metadata, ((writeCacheSegment root bars key start stop).run before).1 = .ok metadata) ↔
      validateBars bars = .ok () ∧ (∃ seg, cacheSegmentDir root key = .ok seg) ∧
        ∀ number ∈ writtenNumbers bars start stop, Printable number) ∧
    (∀ metadata after, (writeCacheSegment root bars key start stop).run before = (.ok metadata, after) →
      ∀ first last maxBars, readCacheSegment root key first last maxBars after =
        .ok (selectBars first last maxBars bars)) ∧
    ∀ old crash, (∀ bar ∈ old, Comparable bar) → Previous root key old before →
      TornBy (writeCacheSegment root bars key start stop) before crash →
        Set.InjOn Sha256.digest (fedInputs root key old bars crash) →
          ∀ first last maxBars,
            (∃ error, readCacheSegment (F := F) root key first last maxBars crash = .error error) ∨
              readCacheSegment root key first last maxBars crash = .ok (selectBars first last maxBars old) ∨
                readCacheSegment root key first last maxBars crash =
                  .ok (selectBars first last maxBars bars) := by
  refine ⟨writeCacheSegment_returns, fun metadata after ran => readCacheSegment_completed comparable ran, ?_⟩
  intro old crash oldComparable previous torn injective first last maxBars
  cases served : readCacheSegment (F := F) root key first last maxBars crash with
  | error error => exact .inl ⟨error, rfl⟩
  | ok out =>
      obtain ⟨seg, found, rest⟩ := bind_eq_ok.mp served
      split at rest
      · rename_i data document held described
        obtain ⟨rows, members, checksum, stored, -, loaded, -, summed, same, rfl⟩ :=
          readSegment_eq_ok.mp rest
        have either := rows_of_torn comparable oldComparable previous torn injective found held described
          stored loaded summed same
        rcases either with rfl | rfl
        · exact .inr (.inl rfl)
        · exact .inr (.inr rfl)
      · cases rest

end Torn

end MarketdataProvider.LocalCache

namespace MarketdataProvider.Reference

open LocalCache

/-- The floats from 0.0 to 9.0. -/
structure Digit where
  value : Fin 10
  deriving DecidableEq, Repr

def Digit.text (digit : Digit) : String := String.ofList [Nat.digitChar digit.value.val, '.', '0']

scoped instance digitFloat : PyFloat Digit where
  decEq := inferInstance
  str := Digit.text
  ofStr text := ((List.finRange 10).map Digit.mk).find? (·.text = text)
  toInt digit := .ok digit.value.val
  lt left right := left.value < right.value
  eq left right := left.value = right.value
  zero := ⟨0⟩
  pack digit := PyFloat.pack (⟨digit.value.val⟩ : Whole)

scoped instance digitTexts : FloatTexts Digit where
  read digit _ := by
    obtain ⟨value⟩ := digit
    revert value
    decide +kernel
  json digit := by
    obtain ⟨value⟩ := digit
    revert value
    decide +kernel
  short digit := by
    obtain ⟨value⟩ := digit
    revert value
    decide +kernel

def cacheKey : CacheKey := ⟨"binance", "spot", "BTCUSDT", "1m"⟩

def digitBar (time : Int) : Bar Digit :=
  { time, openPrice := ⟨1⟩, high := ⟨3⟩, low := ⟨1⟩, close := ⟨2⟩, volume := ⟨7⟩,
    timeClose := some (time + 59999) }

/-- The files behind a first write of one bar. -/
def oldFiles : Files := ((writeCacheSegment "cache" [digitBar 0] cacheKey none none).run fun _ => none).2

/-- The files behind a second write of two bars. -/
def newFiles : Files :=
  ((writeCacheSegment "cache" [digitBar 0, digitBar 60000] cacheKey none none).run oldFiles).2

/-- The second write reached the disk except for its metadata. -/
def mixedFiles : Files := fun path =>
  if path = ["cache", "binance", "spot", "BTCUSDT", "1m", "metadata.json"] then oldFiles path
  else newFiles path

end MarketdataProvider.Reference

namespace MarketdataProvider.LocalCache

open Foundation Foundation.Crash Reference

theorem eq_of_fst {Left Right : Type} {pair : Left × Right} {left : Left} (first : pair.1 = left) :
    pair = (left, pair.2) := Prod.ext first rfl

theorem local_cache_segment_mixed :
    (∃ error, readCacheSegment (F := Digit) "cache" cacheKey none none none mixedFiles = .error error) ∨
      readCacheSegment "cache" cacheKey none none none mixedFiles =
          .ok (selectBars none none none [digitBar 0]) ∨
        readCacheSegment "cache" cacheKey none none none mixedFiles =
          .ok (selectBars none none none [digitBar 0, digitBar 60000]) := by
  have found : cacheSegmentDir "cache" cacheKey = .ok ["cache", "binance", "spot", "BTCUSDT", "1m"] :=
    eq_ok_of_toOption (by decide +kernel)
  have oldComparable : ∀ bar ∈ [digitBar 0], Comparable bar := by
    unfold Comparable
    decide +kernel
  have newComparable : ∀ bar ∈ [digitBar 0, digitBar 60000], Comparable bar := by
    unfold Comparable
    decide +kernel
  have oldValid : validateBars [digitBar 0] = .ok () := eq_ok_of_toOption (by decide +kernel)
  have newValid : validateBars [digitBar 0, digitBar 60000] = .ok () := eq_ok_of_toOption (by decide +kernel)
  have oldPrintable : ∀ number ∈ writtenNumbers [digitBar 0] none none, Printable number := by
    unfold Printable
    decide +kernel
  have newPrintable : ∀ number ∈ writtenNumbers [digitBar 0, digitBar 60000] none none,
      Printable number := by
    unfold Printable
    decide +kernel
  have distinct : (checksumInput [digitBar 0]).toOption.map Sha256.digest ≠
      (checksumInput [digitBar 0, digitBar 60000]).toOption.map Sha256.digest := by decide +kernel
  obtain ⟨oldMetadata, oldReturned⟩ : ∃ metadata,
      ((writeCacheSegment "cache" [digitBar 0] cacheKey none none).run fun _ => none).1 = .ok metadata :=
    (local_cache_segment oldComparable).1.mpr ⟨oldValid, ⟨_, found⟩, oldPrintable⟩
  have oldRan : (writeCacheSegment "cache" [digitBar 0] cacheKey none none).run (fun _ => none) =
      (.ok oldMetadata, oldFiles) := by
    rw [oldFiles]
    exact eq_of_fst oldReturned
  have oldRead : readCacheSegment "cache" cacheKey none none none oldFiles = .ok [digitBar 0] := by
    rw [(local_cache_segment oldComparable).2.1 oldMetadata oldFiles oldRan none none none, selectBars_all]
  obtain ⟨newMetadata, newReturned⟩ : ∃ metadata,
      ((writeCacheSegment "cache" [digitBar 0, digitBar 60000] cacheKey none none).run oldFiles).1 =
        .ok metadata :=
    (local_cache_segment newComparable).1.mpr ⟨newValid, ⟨_, found⟩, newPrintable⟩
  have newRan : (writeCacheSegment "cache" [digitBar 0, digitBar 60000] cacheKey none none).run oldFiles =
      (.ok newMetadata, newFiles) := by
    rw [newFiles]
    exact eq_of_fst newReturned
  have torn : TornBy (writeCacheSegment "cache" [digitBar 0, digitBar 60000] cacheKey none none) oldFiles
      mixedFiles := by
    intro path
    by_cases document : path = ["cache", "binance", "spot", "BTCUSDT", "1m", "metadata.json"]
    · refine ⟨oldFiles, Prog.start_mem_visits _ _, ?_⟩
      rw [mixedFiles, if_pos document]
    · refine ⟨newFiles, ?_, ?_⟩
      · have last := Prog.final_mem_visits
          (writeCacheSegment "cache" [digitBar 0, digitBar 60000] cacheKey none none) oldFiles
        rw [newRan] at last
        dsimp only at last
        exact last
      · rw [mixedFiles, if_neg document]
  -- The data file is complete, so that the reader finds the new bars in it.
  obtain ⟨-, records, text, written, -, data, -⟩ :=
    (writeCacheSegment_keeps found).2 newMetadata newFiles newRan
  have whole : ∀ content rows, mixedFiles ["cache", "binance", "spot", "BTCUSDT", "1m", "bars.csv"] =
      some content → storedBars Digit content = .ok rows → rows = [digitBar 0, digitBar 60000] := by
    intro content rows held stored
    rw [mixedFiles, if_neg (by decide)] at held
    obtain rfl := Option.some.inj (data.symm.trans held)
    exact Except.ok.inj (stored.symm.trans (storedBars_written newComparable written))
  have injective : Set.InjOn Sha256.digest
      (fedInputs "cache" cacheKey [digitBar 0] [digitBar 0, digitBar 60000] mixedFiles) := by
    rintro first ⟨rows, known, entered⟩ second ⟨others, again, reentered⟩ same
    have either {list : List (Bar Digit)} (possible : list = [digitBar 0] ∨
        list = [digitBar 0, digitBar 60000] ∨ ∃ seg content, cacheSegmentDir "cache" cacheKey = .ok seg ∧
          mixedFiles (barsPath seg) = some content ∧ storedBars Digit content = .ok list) :
        list = [digitBar 0] ∨ list = [digitBar 0, digitBar 60000] := by
      refine possible.imp_right ?_
      rintro (new | ⟨seg, content, named, held, stored⟩)
      · exact new
      · obtain rfl := Except.ok.inj (found.symm.trans named)
        exact whole content list held stored
    rcases either known with rfl | rfl <;> rcases either again with rfl | rfl
    · exact Except.ok.inj (entered.symm.trans reentered)
    · rw [entered, reentered] at distinct
      exact absurd (congrArg some same) distinct
    · rw [entered, reentered] at distinct
      exact absurd (congrArg some same.symm) distinct
    · exact Except.ok.inj (entered.symm.trans reentered)
  exact (local_cache_segment newComparable).2.2 [digitBar 0] mixedFiles oldComparable (.inr oldRead) torn
    injective none none none

end MarketdataProvider.LocalCache
