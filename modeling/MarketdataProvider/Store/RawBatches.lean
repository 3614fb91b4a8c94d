import MarketdataProvider.Foundation.Keyed
import MarketdataProvider.Store.SeriesIsolation

namespace MarketdataProvider

open Foundation

section Lines

/-- Lines without line breaks are read back one by one. -/
theorem splitLines_line {line : List Char} (plain : ∀ character ∈ line, isLineBreak character = false)
    (read rest : List Char) :
    splitLines read (line ++ '\n' :: rest) = (read.reverse ++ line) :: splitLines [] rest := by
  induction line generalizing read with
  | nil => simp [splitLines, isLineBreak]
  | cons character line ih =>
      have here := plain character List.mem_cons_self
      have later := ih (fun other member => plain other (List.mem_cons_of_mem _ member)) (character :: read)
      have notReturn : character ≠ '\r' := by
        rintro rfl
        revert here
        decide
      rw [List.cons_append, splitLines]
      · rw [if_neg (by simp [here]), later]
        simp
      · intro tail same
        exact absurd same notReturn

theorem splitLines_lines {lines : List (List Char)}
    (plain : ∀ line ∈ lines, ∀ character ∈ line, isLineBreak character = false) :
    splitLines [] (lines.flatMap fun line => line ++ ['\n']) = lines := by
  induction lines with
  | nil => rfl
  | cons line lines ih =>
      rw [List.flatMap_cons, List.append_assoc, List.singleton_append,
        splitLines_line (plain line List.mem_cons_self),
        ih fun other member => plain other (List.mem_cons_of_mem _ member)]
      rfl

end Lines

section Batches

variable [PyText] {Payload : Type} [RawJson Payload]

/-- A payload that `json.dumps` and `json.loads` carry over; its text is one line. -/
structure Dumped (payload : Payload) : Prop where
  loads : RawJson.loads (RawJson.dumps payload) = .ok payload
  oneLine : ∀ character ∈ (RawJson.dumps payload).toList, isLineBreak character = false
  visible : strip (RawJson.dumps payload).toList ≠ []

theorem rawPayloads_of_dumped {payloads : List Payload} (dumped : ∀ payload ∈ payloads, Dumped payload) :
    rawPayloads Payload (payloads.flatMap fun payload => (RawJson.dumps payload).toList ++ ['\n']) =
      .ok payloads := by
  have lines : (payloads.flatMap fun payload => (RawJson.dumps payload).toList ++ ['\n']) =
      (payloads.map fun payload => (RawJson.dumps payload).toList).flatMap fun line => line ++ ['\n'] := by
    rw [List.flatMap_map]
  have plain : ∀ line ∈ payloads.map (fun payload => (RawJson.dumps payload).toList),
      ∀ character ∈ line, isLineBreak character = false := by
    intro line member
    obtain ⟨payload, inside, rfl⟩ := List.mem_map.mp member
    exact (dumped payload inside).oneLine
  have visible : (payloads.map fun payload => (RawJson.dumps payload).toList).filter (strip · ≠ []) =
      payloads.map fun payload => (RawJson.dumps payload).toList := by
    rw [List.filter_eq_self]
    intro line member
    obtain ⟨payload, inside, rfl⟩ := List.mem_map.mp member
    exact decide_eq_true (dumped payload inside).visible
  rw [rawPayloads, lines, splitLines_lines plain, visible, mapM_eq_ok, List.forall₂_map_left_iff,
    List.forall₂_same]
  intro payload member
  rw [String.ofList_toList]
  exact (dumped payload member).loads

variable [Zstandard] [Sha256] {tree : RawTree} {key : RawKey} {payloads : List Payload}

/-- The last batch of a directory is read back. -/
theorem readBatch_writeBatch_self (dumped : ∀ payload ∈ payloads, Dumped payload) {other : RawKey}
    (same : rawDirectory other = rawDirectory key) :
    (tree.writeBatch .plain key payloads).readBatch Payload other = .ok payloads := by
  have text : decodeText (rawBody payloads) =
      .ok (payloads.flatMap fun payload => (RawJson.dumps payload).toList ++ ['\n']) := by
    rw [decodeText, rawBody, decodeUtf8_encodeUtf8]
  simp only [RawTree.readBatch, same, RawTree.writeBatch, Function.update_self, rawManifest,
    Compression.pack, Compression.unpack, ok_bind, text, if_true]
  exact rawPayloads_of_dumped dumped

end Batches

section Paths

/-- A text whose first and last character are no edges is not trimmed. -/
theorem trim_eq_self (edge : Char → Bool) {text front back : List Char} {first last : Char}
    (starts : text = first :: back) (ends : text = front ++ [last]) (inner : edge first = false)
    (innerLast : edge last = false) : ((text.dropWhile edge).reverse.dropWhile edge).reverse = text := by
  have left : text.dropWhile edge = text := by
    rw [starts, List.dropWhile_cons, inner]
    simp
  have right : text.reverse.dropWhile edge = text.reverse := by
    rw [ends, List.reverse_append, List.reverse_singleton, List.singleton_append,
      List.dropWhile_cons, innerLast]
    simp
  rw [left, right, List.reverse_reverse]

theorem collapseUnsafe_safe {text : List Char}
    (safe : ∀ character ∈ text, safeCharacter character = true) (inRun : Bool) :
    collapseUnsafe inRun text = text := by
  induction text generalizing inRun with
  | nil => rfl
  | cons character text ih =>
      rw [collapseUnsafe, if_pos (safe character List.mem_cons_self),
        ih fun other member => safe other (List.mem_cons_of_mem _ member)]

/-- A text that starts and ends with a letter or a digit, as far as the sanitizer goes. -/
structure PathText (text : List Char) (first last : Char) : Prop where
  starts : ∃ back, text = first :: back
  ends : ∃ front, text = front ++ [last]
  ascii : text.all (·.toNat < 128) = true
  firstPlain : first.isAlphanum = true
  lastPlain : last.isAlphanum = true

variable [PyText]

theorem safePathPart_of_collapsed {text part : List Char} {first last head tail : Char}
    (path : PathText text first last)
    (collapsed : collapseUnsafe false (text.map Char.toUpper) = part) (sane : PathText part head tail) :
    safePathPart (String.ofList text) = String.ofList part := by
  obtain ⟨back, starts⟩ := path.starts
  obtain ⟨front, ends⟩ := path.ends
  have stripped : strip text = text :=
    strip_eq_self starts ends (PyText.isSpace_ascii _ path.firstPlain)
      (PyText.isSpace_ascii _ path.lastPlain)
  have upper : PyText.upper (String.ofList text) = String.ofList (text.map Char.toUpper) := by
    rw [PyText.upper_ascii _ (by rw [String.toList_ofList]; exact path.ascii), String.toList_ofList]
  have noEdge (character : Char) (plain : character.isAlphanum = true) :
      (decide (character = '.') || decide (character = '_')) = false := by
    rw [Bool.or_eq_false_iff, decide_eq_false_iff_not, decide_eq_false_iff_not]
    constructor
    · rintro rfl
      exact absurd plain (by decide)
    · rintro rfl
      exact absurd plain (by decide)
  obtain ⟨partBack, partStarts⟩ := sane.starts
  obtain ⟨partFront, partEnds⟩ := sane.ends
  have trimmed := trim_eq_self (fun c => decide (c = '.') || decide (c = '_')) partStarts partEnds
    (noEdge head sane.firstPlain) (noEdge tail sane.lastPlain)
  have nonempty : part ≠ [] := by simp [partStarts]
  unfold safePathPart
  simp only [String.toList_ofList, stripped, upper, collapsed]
  rw [trimmed, if_neg nonempty]

end Paths

section Partitions

variable [PyText] {Payload : Type} [RawJson Payload] [Zstandard] [Sha256]

/-- A batch of one partition of a raw series. -/
abbrev RawBatch (Payload : Type) : Type := String × List Payload

def RawKey.within (key : RawKey) (partition : String) : RawKey := { key with partition := some partition }

/-- The directory name that a batch goes to. -/
def RawBatch.part (batch : RawBatch Payload) : String := safePathPart batch.1

def RawTree.storeBatch (key : RawKey) (tree : RawTree) (batch : RawBatch Payload) : RawTree :=
  tree.writeBatch .plain (key.within batch.1) batch.2

/-- The payloads that were last written to a directory. -/
def lastBatch (batches : List (RawBatch Payload)) (part : String) : List Payload :=
  (Keyed.find RawBatch.part batches.reverse part).elim [] Prod.snd

/-- A batch with a partition name that comes back from its directory, and with payloads that come
back from their text. -/
structure StorableBatch (batch : RawBatch Payload) : Prop where
  named : batch.1 ≠ ""
  stable : safePathPart batch.part = batch.part
  part : batch.part ≠ ""
  dumped : ∀ payload ∈ batch.2, Dumped payload

/-- What the directories of one raw series hold after some batches. -/
structure HoldsBatches (key : RawKey) (batches : List (RawBatch Payload)) (tree : RawTree) : Prop where
  distinct : tree.places.Nodup
  places : ∀ place, place ∈ tree.places ↔ ∃ batch ∈ batches, place = rawDirectory (key.within batch.1)
  manifest : ∀ batch ∈ batches, (tree.directory (rawDirectory (key.within batch.1))).manifest.isSome
  root : tree.readBatch Payload { key with partition := none } = .ok []
  batch : ∀ name, name ≠ "" →
    tree.readBatch Payload (key.within name) = .ok (lastBatch batches (safePathPart name))

variable {key : RawKey} {batches : List (RawBatch Payload)} {tree : RawTree}

omit [RawJson Payload] [Zstandard] [Sha256] in
theorem rawDirectory_within {name : String} (named : name ≠ "") :
    rawDirectory (key.within name) = rawRoot key ++ ["partition=" ++ safePathPart name] := by
  simp [rawDirectory, RawKey.within, RawKey.namedPartition, rawRoot, Option.filter, named]

omit [RawJson Payload] [Zstandard] [Sha256] in
theorem rawDirectory_within_inj {name other : String} (named : name ≠ "") (otherNamed : other ≠ "") :
    rawDirectory (key.within name) = rawDirectory (key.within other) ↔
      safePathPart name = safePathPart other := by
  rw [rawDirectory_within named, rawDirectory_within otherNamed]
  simp

omit [RawJson Payload] [Zstandard] [Sha256] in
theorem lastBatch_concat (batch : RawBatch Payload) (part : String) :
    lastBatch (batches ++ [batch]) part = if batch.part = part then batch.2 else lastBatch batches part := by
  rw [lastBatch, List.reverse_append, List.reverse_singleton, Keyed.find_append]
  by_cases own : batch.part = part
  · simp [Keyed.find, own]
  · simp [Keyed.find, own, lastBatch]

theorem holdsBatches_empty (key : RawKey) :
    HoldsBatches key ([] : List (RawBatch Payload)) RawTree.empty where
  distinct := List.nodup_nil
  places place := by simp [RawTree.empty]
  manifest batch member := absurd member List.not_mem_nil
  root := rfl
  batch name _ := rfl

/-- One more batch is stored. -/
theorem HoldsBatches.step (holds : HoldsBatches key batches tree) {batch : RawBatch Payload}
    (storable : StorableBatch batch) :
    HoldsBatches key (batches ++ [batch]) (tree.storeBatch key batch) := by
  have directory (place : List String) (away : place ≠ rawDirectory (key.within batch.1)) :
      (tree.storeBatch key batch).directory place = tree.directory place :=
    directory_writeBatch_of_ne .plain batch.2 away
  constructor
  · rw [RawTree.storeBatch, RawTree.writeBatch]
    dsimp only
    split
    · exact holds.distinct
    · rename_i fresh
      exact List.nodup_cons.mpr ⟨fresh, holds.distinct⟩
  · intro place
    have known := holds.places place
    rw [RawTree.storeBatch, RawTree.writeBatch]
    dsimp only
    simp only [List.mem_append, List.mem_singleton, or_and_right, exists_or, exists_eq_left]
    split
    · rename_i old
      rw [known]
      refine ⟨.inl, ?_⟩
      rintro (member | rfl)
      · exact member
      · exact (holds.places _).mp old
    · rw [List.mem_cons, known, or_comm]
  · intro other member
    by_cases same : rawDirectory (key.within other.1) = rawDirectory (key.within batch.1)
    · rw [same]
      simp [RawTree.storeBatch, RawTree.writeBatch]
    · rw [directory _ same]
      rcases List.mem_append.mp member with old | new
      · exact holds.manifest other old
      · rw [List.mem_singleton.mp new] at same
        exact absurd rfl same
  · have away : rawDirectory { key with partition := none } ≠ rawDirectory (key.within batch.1) := by
      rw [rawDirectory_within storable.named]
      simp [rawDirectory, RawKey.namedPartition, rawRoot]
    exact (readBatch_writeBatch_of_ne .plain batch.2 away).trans holds.root
  · intro name named
    rw [lastBatch_concat]
    by_cases same : batch.part = safePathPart name
    · rw [if_pos same]
      exact readBatch_writeBatch_self storable.dumped
        ((rawDirectory_within_inj named storable.named).mpr same.symm)
    · rw [if_neg same]
      have away : rawDirectory (key.within name) ≠ rawDirectory (key.within batch.1) := by
        rw [Ne, rawDirectory_within_inj named storable.named]
        exact fun equal => same equal.symm
      exact (readBatch_writeBatch_of_ne .plain batch.2 away).trans (holds.batch name named)

/-- All batches are stored one after the other. -/
theorem holdsBatches_foldl (storable : ∀ batch ∈ batches, StorableBatch batch) :
    HoldsBatches key batches (batches.foldl (RawTree.storeBatch key) RawTree.empty) := by
  induction batches using List.reverseRecOn with
  | nil => exact holdsBatches_empty key
  | append_singleton batches batch ih =>
      rw [List.foldl_append]
      exact (ih fun other member => storable other (List.mem_append_left _ member)).step
        (storable batch (List.mem_append_right _ List.mem_cons_self))

omit [RawJson Payload] [Zstandard] [Sha256] in
theorem partitionName_within {name : String} (named : name ≠ "") :
    partitionName (rawRoot key) (rawDirectory (key.within name)) = some (safePathPart name) := by
  have size : "partition=".length = 10 := rfl
  rw [rawDirectory_within named, partitionName, List.drop_left, List.take_left]
  simp [size]

theorem HoldsBatches.partitions (holds : HoldsBatches key batches tree)
    (storable : ∀ batch ∈ batches, StorableBatch batch) :
    (tree.partitions (rawRoot key)).Nodup ∧
      ∀ part, part ∈ tree.partitions (rawRoot key) ↔ ∃ batch ∈ batches, batch.part = part := by
  have listed : (tree.places.filter fun place => (tree.directory place).manifest.isSome) = tree.places := by
    rw [List.filter_eq_self]
    intro place member
    obtain ⟨batch, inside, rfl⟩ := (holds.places place).mp member
    exact holds.manifest batch inside
  have names (place : List String) (member : place ∈ tree.places) : ∃ batch ∈ batches,
      place = rawDirectory (key.within batch.1) ∧
        partitionName (rawRoot key) place = some batch.part := by
    obtain ⟨batch, inside, rfl⟩ := (holds.places place).mp member
    exact ⟨batch, inside, rfl, partitionName_within (storable batch inside).named⟩
  rw [RawTree.partitions, listed]
  constructor
  · apply (List.perm_insertionSort _ _).nodup_iff.mpr
    rw [List.Nodup, List.pairwise_filterMap]
    apply holds.distinct.imp_of_mem
    intro first second firstMember secondMember different part found other foundOther
    obtain ⟨batch, inside, rfl, named⟩ := names first firstMember
    obtain ⟨again, insideAgain, rfl, namedAgain⟩ := names second secondMember
    rintro rfl
    rw [named] at found
    rw [namedAgain] at foundOther
    have same := Option.some.inj (found.trans foundOther.symm)
    exact different ((rawDirectory_within_inj (storable batch inside).named
      (storable again insideAgain).named).mpr same)
  · intro part
    rw [List.mem_insertionSort, List.mem_filterMap]
    constructor
    · rintro ⟨place, member, found⟩
      obtain ⟨batch, inside, -, named⟩ := names place member
      exact ⟨batch, inside, Option.some.inj (named.symm.trans found)⟩
    · rintro ⟨batch, inside, rfl⟩
      exact ⟨rawDirectory (key.within batch.1), (holds.places _).mpr ⟨batch, inside, rfl⟩,
        partitionName_within (storable batch inside).named⟩

/-- A read delivers the last batch of each directory. -/
theorem HoldsBatches.readPartitions (holds : HoldsBatches key batches tree)
    (storable : ∀ batch ∈ batches, StorableBatch batch) :
    tree.readPartitions Payload key =
      .ok ((tree.partitions (rawRoot key)).flatMap (lastBatch batches)) := by
  have parts : (tree.partitions (rawRoot key)).mapM (fun name =>
      tree.readBatch Payload { key with partition := some name }) =
      .ok ((tree.partitions (rawRoot key)).map (lastBatch batches)) := by
    rw [mapM_eq_ok, List.forall₂_map_right_iff, List.forall₂_same]
    intro part member
    obtain ⟨batch, inside, rfl⟩ := ((holds.partitions storable).2 part).mp member
    have read := holds.batch batch.part (storable batch inside).part
    rwa [(storable batch inside).stable] at read
  rw [RawTree.readPartitions, holds.root, ok_bind, parts, ok_bind, List.nil_append, List.flatMap]
  rfl

end Partitions

end MarketdataProvider
