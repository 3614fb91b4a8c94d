import MarketdataProvider.Store.SegmentCsv
import MarketdataProvider.Store.SegmentManifest

namespace MarketdataProvider

open Foundation

def unsupportedAlgorithm (algorithm : String) : PyError :=
  .mdInvalidExchangeResponse "Unsupported segment checksum algorithm" [("algorithm", .text algorithm)]

def checksumMismatch (expected actual : String) : PyError :=
  .mdInvalidExchangeResponse "Segment checksum mismatch"
    [("expected", .text expected), ("actual", .text actual)]

section Validate

variable [PyText] {F : Type} [PyFloat F]

/-- The tail metadata that a tail chain needs; a canonical digest has none. -/
structure TailBase where
  rows : Nat
  checksum : String

/-- The validator digests the base rows and extends the chain by the rows after them. -/
structure DigestState where
  digest : List UInt8
  chain : String
  rowsCount : Nat

variable [Sha256]

def tailBase (manifest : RawManifest) : Except PyError TailBase :=
  match manifest.baseRowsCount.join, manifest.baseChecksum.join with
  | some rows, some checksum =>
      if rows < 0 then
        .error (.mdInvalidExchangeResponse "Invalid tail-chain checksum metadata" [])
      else .ok ⟨rows.toNat, checksum⟩
  | _, _ => .error (.mdInvalidExchangeResponse "Invalid tail-chain checksum metadata" [])

/-- A bar goes into the digest of the base, or extends the chain; `base` is the base's row count. -/
def digestBar (version : ChecksumVersion) (base : Option Nat) (state : DigestState)
    (bar : MarketBar F) : Except PyError DigestState :=
  if base.all (state.rowsCount < ·) then do
    let update ← updateChecksum version bar
    return { state with digest := state.digest ++ update, rowsCount := state.rowsCount + 1 }
  else do
    let chain ← extendTailChain version state.chain bar
    return { state with chain := chain, rowsCount := state.rowsCount + 1 }

/-- One row of the validation loop. -/
def validateRow (F : Type) [PyFloat F] (version : ChecksumVersion) (base : Option Nat)
    (state : DigestState) (row : CsvRow) : Except PyError DigestState := do
  let bar : MarketBar F ← rowToBar row
  validatePersistedBarSemantics bar
  digestBar version base state bar

def digestRows (F : Type) [PyFloat F] (version : ChecksumVersion) (base : Option TailBase)
    (bytes : List UInt8) : Except PyError DigestState := do
  let stream ← csvStream bytes
  let state ← (dictRows stream).foldlM (validateRow F version (base.map TailBase.rows))
    ⟨[], (base.map TailBase.checksum).getD "", 0⟩
  endOfStream stream
  return state

/-- `validate_csv_checksum` with the manifest that the reader found. -/
def validateCsvChecksum (F : Type) [PyFloat F] (bytes : List UInt8) (manifest : RawManifest) :
    Except PyError Unit := do
  let name := manifest.checksumAlgorithm.getD legacyCanonicalChecksum
  match ChecksumAlgorithm.ofName name with
  | none => .error (unsupportedAlgorithm name)
  | some (.canonical version) =>
      let state ← digestRows F version none bytes
      let actual := hexDigest state.digest
      if actual = manifest.checksum then .ok () else .error (checksumMismatch manifest.checksum actual)
  | some (.tailChain version) =>
      let base ← tailBase manifest
      let state ← digestRows F version (some base) bytes
      let actual := hexDigest state.digest
      if state.rowsCount < base.rows ∨ actual ≠ base.checksum then
        .error (checksumMismatch base.checksum actual)
      else if state.chain = manifest.checksum then .ok ()
      else .error (checksumMismatch manifest.checksum state.chain)

/-- `csv_canonical_checksum` -/
def csvCanonicalChecksum (F : Type) [PyFloat F] (bytes : List UInt8) : Except PyError String := do
  let state ← digestRows F .v4 none bytes
  return hexDigest state.digest

/-- The bars of the base: their bytes are collected in order. -/
theorem foldlM_digestBar_base {version : ChecksumVersion} {base : Option Nat}
    {bars : List (MarketBar F)} {state final : DigestState}
    (inBase : ∀ count, base = some count → state.rowsCount + bars.length ≤ count) :
    bars.foldlM (digestBar version base) state = .ok final ↔
      ∃ updates, bars.mapM (updateChecksum version) = .ok updates ∧
        final = ⟨state.digest ++ updates.flatten, state.chain, state.rowsCount + bars.length⟩ := by
  induction bars generalizing state with
  | nil => simp [eq_comm (a := final)]
  | cons bar bars ih =>
      have first : base.all (state.rowsCount < ·) = true := by
        cases base with
        | none => rfl
        | some count =>
            have := inBase count rfl
            rw [List.length_cons] at this
            simp only [Option.all_some, decide_eq_true_eq]
            omega
      have later (digest : List UInt8) (count : Nat) (same : base = some count) :
          (⟨digest, state.chain, state.rowsCount + 1⟩ : DigestState).rowsCount + bars.length ≤ count := by
        have := inBase count same
        rw [List.length_cons] at this
        simp only
        omega
      simp only [List.foldlM_cons, List.mapM_cons, digestBar, first, if_true, bind_eq_ok, pure_eq_ok]
      constructor
      · rintro ⟨_, ⟨update, updated, rfl⟩, folded⟩
        obtain ⟨updates, rest, rfl⟩ := (ih (later _)).mp folded
        exact ⟨_, ⟨update, updated, updates, rest, rfl⟩, by simp [Nat.add_comm, Nat.add_left_comm]⟩
      · rintro ⟨_, ⟨update, updated, updates, rest, rfl⟩, rfl⟩
        refine ⟨_, ⟨update, updated, rfl⟩, (ih (later _)).mpr ⟨updates, rest, ?_⟩⟩
        simp [Nat.add_comm, Nat.add_left_comm]

/-- The bars after the base: the chain is extended by one after the other. -/
theorem foldlM_digestBar_chain {version : ChecksumVersion} {count : Nat} {bars : List (MarketBar F)}
    {state final : DigestState} (afterBase : bars ≠ [] → count ≤ state.rowsCount) :
    bars.foldlM (digestBar version (some count)) state = .ok final ↔
      ∃ chain, extendTailChainAll version state.chain bars = .ok chain ∧
        final = ⟨state.digest, chain, state.rowsCount + bars.length⟩ := by
  induction bars generalizing state with
  | nil => simp [extendTailChainAll, eq_comm (a := final)]
  | cons bar bars ih =>
      have reached := afterBase (by simp)
      have first : (some count).all (state.rowsCount < ·) = false := by
        simpa using reached
      have later (chain : String) (_ : bars ≠ []) :
          count ≤ (⟨state.digest, chain, state.rowsCount + 1⟩ : DigestState).rowsCount :=
        Nat.le_succ_of_le reached
      simp only [List.foldlM_cons, extendTailChainAll, digestBar, first, Bool.false_eq_true, if_false,
        bind_eq_ok, pure_eq_ok]
      constructor
      · rintro ⟨_, ⟨link, linked, rfl⟩, folded⟩
        obtain ⟨chain, rest, rfl⟩ := (ih (later _)).mp folded
        exact ⟨chain, ⟨link, linked, rest⟩, by simp [Nat.add_comm, Nat.add_left_comm]⟩
      · rintro ⟨chain, ⟨link, linked, rest⟩, rfl⟩
        refine ⟨_, ⟨link, linked, rfl⟩, (ih (later _)).mpr ⟨chain, rest, ?_⟩⟩
        simp [Nat.add_comm, Nat.add_left_comm]

/-- The manifest's checksum is the digest of the bars under its algorithm. -/
def ChecksumAgrees (manifest : RawManifest) (bars : List (MarketBar F)) : Prop :=
  match ChecksumAlgorithm.ofName (manifest.checksumAlgorithm.getD legacyCanonicalChecksum) with
  | none => False
  | some (.canonical version) => rowsDigest version bars = .ok manifest.checksum
  | some (.tailChain version) =>
      ∃ base, tailBase manifest = .ok base ∧ base.rows ≤ bars.length ∧
        rowsDigest version (bars.take base.rows) = .ok base.checksum ∧
        extendTailChainAll version base.checksum (bars.drop base.rows) = .ok manifest.checksum

theorem digestRows_eq_ok {version : ChecksumVersion} {base : Option TailBase} {bytes : List UInt8}
    {final : DigestState} :
    digestRows F version base bytes = .ok final ↔
      ∃ bars : List (MarketBar F), readCsv F bytes = .ok bars ∧
        (∀ bar ∈ bars, validatePersistedBarSemantics bar = .ok ()) ∧
        bars.foldlM (digestBar version (base.map TailBase.rows))
          ⟨[], (base.map TailBase.checksum).getD "", 0⟩ = .ok final := by
  have parsing : validateRow F version (base.map TailBase.rows) = fun state row =>
      rowToBar row >>= fun bar : MarketBar F => validatePersistedBarSemantics bar >>= fun _ =>
        digestBar version (base.map TailBase.rows) state bar := rfl
  simp only [digestRows, readCsv, parsing, bind_eq_ok, pure_eq_ok, foldlM_parse_eq_ok,
    foldlM_check_eq_ok, mapM_eq_ok]
  constructor
  · rintro ⟨stream, parsed, _, ⟨bars, reads, checked, folded⟩, ⟨⟩, complete, rfl⟩
    exact ⟨bars, ⟨stream, parsed, bars, reads, (), complete, rfl⟩, checked, folded⟩
  · rintro ⟨_, ⟨stream, parsed, bars, reads, ⟨⟩, complete, rfl⟩, checked, folded⟩
    exact ⟨stream, parsed, _, ⟨bars, reads, checked, folded⟩, (), complete, rfl⟩

theorem digestRows_canonical {version : ChecksumVersion} {bytes : List UInt8} {final : DigestState} :
    digestRows F version none bytes = .ok final ↔
      ∃ bars : List (MarketBar F), readCsv F bytes = .ok bars ∧
        (∀ bar ∈ bars, validatePersistedBarSemantics bar = .ok ()) ∧
        ∃ updates, bars.mapM (updateChecksum version) = .ok updates ∧
          final = ⟨updates.flatten, "", bars.length⟩ := by
  rw [digestRows_eq_ok]
  simp only [Option.map_none, Option.getD_none]
  refine exists_congr fun bars => and_congr_right fun _ => and_congr_right fun _ => ?_
  rw [foldlM_digestBar_base (by simp)]
  simp

/-- Over the whole list: first the base, then the chain over what is left. -/
theorem foldlM_digestBar_tail {version : ChecksumVersion} {count : Nat} {bars : List (MarketBar F)}
    {chain : String} {final : DigestState} :
    bars.foldlM (digestBar version (some count)) ⟨[], chain, 0⟩ = .ok final ↔
      ∃ updates, (bars.take count).mapM (updateChecksum version) = .ok updates ∧
        ∃ last, extendTailChainAll version chain (bars.drop count) = .ok last ∧
          final = ⟨updates.flatten, last, bars.length⟩ := by
  have whole : (bars.take count).length + (bars.drop count).length = bars.length := by
    rw [← List.length_append, List.take_append_drop]
  nth_rewrite 1 [← List.take_append_drop count bars]
  rw [foldlM_append_eq_ok]
  have base (middle : DigestState) :
      (bars.take count).foldlM (digestBar version (some count)) ⟨[], chain, 0⟩ = .ok middle ↔ _ :=
    foldlM_digestBar_base (by simp)
  have rest (digest : List UInt8) :
      (bars.drop count).foldlM (digestBar version (some count))
        ⟨digest, chain, (bars.take count).length⟩ = .ok final ↔ _ :=
    foldlM_digestBar_chain fun more => by
      have := List.length_pos_of_ne_nil more
      simp only [List.length_drop, List.length_take] at this ⊢
      omega
  simp only [base, List.nil_append, Nat.zero_add]
  constructor
  · rintro ⟨_, ⟨updates, updated, rfl⟩, folded⟩
    obtain ⟨last, linked, rfl⟩ := (rest _).mp folded
    exact ⟨updates, updated, last, linked, by rw [whole]⟩
  · rintro ⟨updates, updated, last, linked, rfl⟩
    exact ⟨_, ⟨updates, updated, rfl⟩, (rest _).mpr ⟨last, linked, by rw [whole]⟩⟩

/-- The validator accepts a file that can be read, whose bars pass the sentinel check, and whose
digest is the manifest's. -/
theorem validateCsvChecksum_ok_iff {bytes : List UInt8} {manifest : RawManifest} :
    validateCsvChecksum F bytes manifest = .ok () ↔
      ∃ bars : List (MarketBar F), readCsv F bytes = .ok bars ∧
        (∀ bar ∈ bars, validatePersistedBarSemantics bar = .ok ()) ∧
        ChecksumAgrees manifest bars := by
  unfold validateCsvChecksum ChecksumAgrees
  split
  · rename_i unsupported
    simp [unsupported]
  · rename_i version found
    simp only [found, bind_eq_ok, digestRows_canonical, rowsDigest, pure_eq_ok]
    constructor
    · rintro ⟨_, ⟨bars, read, checked, updates, updated, rfl⟩, accepted⟩
      split at accepted
      · rename_i same
        exact ⟨bars, read, checked, updates, updated, same⟩
      · cases accepted
    · rintro ⟨bars, read, checked, updates, updated, same⟩
      exact ⟨_, ⟨bars, read, checked, updates, updated, rfl⟩, if_pos same⟩
  · rename_i version found
    simp only [found, bind_eq_ok, digestRows_eq_ok, Option.map_some, Option.getD_some,
      foldlM_digestBar_tail, rowsDigest, pure_eq_ok]
    constructor
    · rintro ⟨base, based, _, ⟨bars, read, checked, updates, updated, last, linked, rfl⟩, accepted⟩
      split_ifs at accepted with short same
      simp only [not_or, Nat.not_lt, not_not] at short
      exact ⟨bars, read, checked, base, based, short.1, ⟨updates, updated, short.2⟩, same ▸ linked⟩
    · rintro ⟨bars, read, checked, base, based, long, ⟨updates, updated, same⟩, linked⟩
      refine ⟨base, based, _, ⟨bars, read, checked, updates, updated, _, linked, rfl⟩, ?_⟩
      simp [same, Nat.not_lt.mpr long]

end Validate

end MarketdataProvider
