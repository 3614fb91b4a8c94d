import MarketdataProvider.Foundation.Encoding
import MarketdataProvider.Store.Agreement

namespace MarketdataProvider

open Foundation

section Primitives

theorem bigEndian_injective {width left right : Nat} (small : left < 256 ^ width)
    (smaller : right < 256 ^ width) (equal : bigEndian width left = bigEndian width right) :
    left = right := by
  induction width generalizing left right with
  | zero => omega
  | succ width ih =>
      rw [bigEndian, bigEndian, List.cons.injEq] at equal
      obtain ⟨digit, rest⟩ := equal
      have positive : 0 < 256 ^ width := Nat.pow_pos (by decide)
      have low := ih (Nat.mod_lt _ positive) (Nat.mod_lt _ positive) rest
      have bound : ∀ value < 256 ^ (width + 1), value / 256 ^ width < 256 := by
        intro value less
        rw [Nat.pow_succ] at less
        exact Nat.div_lt_of_lt_mul less
      have high : left / 256 ^ width = right / 256 ^ width := by
        have digits := congrArg UInt8.toNat digit
        simpa [UInt8.toNat_ofNat', Nat.mod_eq_of_lt (bound left small),
          Nat.mod_eq_of_lt (bound right smaller)] using digits
      rw [← Nat.div_add_mod left (256 ^ width), ← Nat.div_add_mod right (256 ^ width), high, low]

theorem hexOfBytes_injective {left right : List UInt8} (equal : hexOfBytes left = hexOfBytes right) :
    left = right := by
  have decoded := congrArg bytesOfHex equal
  rw [bytesOfHex_hexOfBytes, bytesOfHex_hexOfBytes] at decoded
  exact Option.some.inj decoded

/-- A text with its length in front of it. -/
theorem updateText_code : PrefixCode updateText Eq := by
  intro left right first second after later wrote again equal
  unfold updateText at wrote again
  dsimp only at wrote again
  split_ifs at wrote with small
  split_ifs at again with smaller
  obtain rfl := Except.ok.inj wrote
  obtain rfl := Except.ok.inj again
  simp only [List.append_assoc] at equal
  obtain ⟨lengths, rest⟩ := List.append_inj equal (by simp [length_bigEndian])
  have same := bigEndian_injective (by simpa using small) (by simpa using smaller) lengths
  obtain ⟨texts, rest⟩ := List.append_inj rest same
  exact ⟨String.toList_inj.mp (encodeUtf8_injective texts), rest⟩

theorem updateOptionalText_code : PrefixCode updateOptionalText Eq := by
  intro left right first second after later wrote again equal
  cases left with
  | none =>
      obtain rfl := Except.ok.inj wrote
      cases right with
      | none =>
          obtain rfl := Except.ok.inj again
          exact ⟨rfl, (List.cons.inj equal).2⟩
      | some text =>
          obtain ⟨_, -, rfl⟩ := map_eq_ok.mp again
          cases (List.cons.inj equal).1
  | some text =>
      obtain ⟨body, wroteText, rfl⟩ := map_eq_ok.mp wrote
      cases right with
      | none =>
          obtain rfl := Except.ok.inj again
          cases (List.cons.inj equal).1
      | some other =>
          obtain ⟨_, againText, rfl⟩ := map_eq_ok.mp again
          obtain ⟨rfl, rest⟩ := updateText_code wroteText againText (List.cons.inj equal).2
          exact ⟨rfl, rest⟩

theorem packInt_code : PrefixCode packInt Eq := by
  refine PrefixCode.ofLength 8 (fun value bytes packed => ?_) fun left right bytes packed again => ?_
  · unfold packInt at packed
    split_ifs at packed
    rw [← Except.ok.inj packed, length_bigEndian]
  · unfold packInt at packed again
    split_ifs at packed with range
    split_ifs at again with limits
    have same := (Except.ok.inj packed).trans (Except.ok.inj again).symm
    have words := bigEndian_injective (by omega) (by omega) same
    omega

theorem packInts_code {left right : List Int} {first second after later : List UInt8}
    (lengths : left.length = right.length) (wrote : packInts left = .ok first)
    (again : packInts right = .ok second) (equal : first ++ after = second ++ later) :
    left = right ∧ after = later := by
  induction left generalizing right first second with
  | nil =>
      obtain rfl := List.length_eq_zero_iff.mp lengths.symm
      obtain rfl := Except.ok.inj (wrote.symm.trans again)
      exact ⟨rfl, List.append_cancel_left equal⟩
  | cons value rest ih =>
      obtain ⟨other, others, rfl⟩ := List.exists_cons_of_length_eq_add_one lengths.symm
      simp only [packInts, List.mapM_cons, map_eq_ok, bind_eq_ok, pure_eq_ok] at wrote again
      obtain ⟨_, ⟨head, wroteHead, tail, wroteTail, rfl⟩, rfl⟩ := wrote
      obtain ⟨_, ⟨front, againHead, back, againTail, rfl⟩, rfl⟩ := again
      simp only [List.flatten_cons, List.append_assoc] at equal
      obtain ⟨rfl, equal⟩ := packInt_code wroteHead againHead equal
      obtain ⟨rfl, equal⟩ := ih (Nat.succ.inj lengths) (map_eq_ok.mpr ⟨tail, wroteTail, rfl⟩)
        (map_eq_ok.mpr ⟨back, againTail, rfl⟩) equal
      exact ⟨rfl, equal⟩

theorem packBools_injective {left right : List Bool} (equal : packBools left = packBools right) :
    left = right := by
  refine List.map_injective_iff.mpr ?_ equal
  intro first second same
  cases first <;> cases second <;> simp_all

/-- A default under a presence flag stands for the optional value. -/
theorem eq_of_presence {Value : Type} {left right : Option Value} {default : Value}
    (present : left.isSome = right.isSome) (equal : left.getD default = right.getD default) :
    left = right := by
  cases left <;> cases right <;> simp_all

end Primitives

section Rows

variable [PyText] {F : Type} [PyFloat F]

def samePattern (left right : Option F) : Prop := left.map PyFloat.pack = right.map PyFloat.pack

structure SameIdentity (left right : MarketBar F) : Prop where
  exchange : PyText.lower left.exchange = PyText.lower right.exchange
  market : PyText.lower left.market = PyText.lower right.market
  symbol : PyText.upper left.symbol = PyText.upper right.symbol
  sourceKind : left.sourceKind = right.sourceKind
  sourceTransport : left.sourceTransport = right.sourceTransport
  timeframe : canonicalTimeframe left.timeframe = canonicalTimeframe right.timeframe

structure SameProvenance (left right : MarketBar F) : Prop where
  provider : left.provider = right.provider
  providerRevision : left.providerRevision.getD "" = right.providerRevision.getD ""
  revisionState : left.revisionState = right.revisionState
  revision : left.revision = right.revision

structure SameDecimalTexts (left right : MarketBar F) : Prop where
  openText : left.openText = right.openText
  highText : left.highText = right.highText
  lowText : left.lowText = right.lowText
  closeText : left.closeText = right.closeText
  volumeText : left.volumeText = right.volumeText

structure SameValues (left right : MarketBar F) : Prop where
  time : left.time = right.time
  timeClose : left.timeClose = right.timeClose
  tradesCount : left.tradesCount = right.tradesCount
  downloadedAt : left.downloadedAt = right.downloadedAt
  openPrice : PyFloat.pack left.openPrice = PyFloat.pack right.openPrice
  high : PyFloat.pack left.high = PyFloat.pack right.high
  low : PyFloat.pack left.low = PyFloat.pack right.low
  close : PyFloat.pack left.close = PyFloat.pack right.close
  volume : PyFloat.pack left.volume = PyFloat.pack right.volume
  quoteVolume : samePattern left.quoteVolume right.quoteVolume
  turnover : samePattern left.turnover right.turnover
  takerBuyBaseVolume : samePattern left.takerBuyBaseVolume right.takerBuyBaseVolume
  takerBuyQuoteVolume : samePattern left.takerBuyQuoteVolume right.takerBuyQuoteVolume
  isClosed : left.isClosed = right.isClosed

/-- Every persisted field has the same value: floats by their bits, names up to case and the
timeframe up to its canonical form. -/
structure SamePersisted (left right : MarketBar F) : Prop extends
  SameIdentity left right, SameProvenance left right, SameDecimalTexts left right,
  SameValues left right

omit [PyText] [PyFloat F] in
theorem RevisionState.value_injective {left right : RevisionState} (equal : left.value = right.value) :
    left = right := by
  have decoded := congrArg RevisionState.ofValue equal
  rw [ofValue_value, ofValue_value] at decoded
  exact Option.some.inj decoded

omit [PyText] in
theorem packFloats_code (packs : ∀ value : F, (PyFloat.pack value).length = 8)
    {left right : List F} {after later : List UInt8} (lengths : left.length = right.length)
    (equal : packFloats left ++ after = packFloats right ++ later) :
    left.map PyFloat.pack = right.map PyFloat.pack ∧ after = later := by
  induction left generalizing right with
  | nil =>
      obtain rfl := List.length_eq_zero_iff.mp lengths.symm
      exact ⟨rfl, equal⟩
  | cons value rest ih =>
      obtain ⟨other, others, rfl⟩ := List.exists_cons_of_length_eq_add_one lengths.symm
      simp only [packFloats, List.flatMap_cons, List.append_assoc] at equal
      obtain ⟨same, equal⟩ := List.append_inj equal ((packs value).trans (packs other).symm)
      obtain ⟨patterns, tail⟩ := ih (Nat.succ.inj lengths) equal
      exact ⟨by rw [List.map_cons, List.map_cons, same, patterns], tail⟩

omit [PyText] in
theorem samePattern_of_presence {left right : Option F} {default : F}
    (present : left.isSome = right.isSome)
    (equal : PyFloat.pack (left.getD default) = PyFloat.pack (right.getD default)) :
    samePattern left right := by
  cases left <;> cases right <;> simp_all [samePattern]

omit [PyFloat F] in
theorem updateChecksumIdentity_code :
    PrefixCode (updateChecksumIdentity (F := F)) SameIdentity := by
  intro left right first second after later wrote again equal
  simp only [updateChecksumIdentity, bind_eq_ok, pure_eq_ok] at wrote again
  obtain ⟨_, exchange, _, market, _, symbol, _, kind, _, transport, _, named, _, timeframe, rfl⟩ := wrote
  obtain ⟨_, exchange', _, market', _, symbol', _, kind', _, transport', _, named', _, timeframe', rfl⟩ :=
    again
  simp only [List.append_assoc] at equal
  obtain ⟨sameExchange, equal⟩ := updateText_code exchange exchange' equal
  obtain ⟨sameMarket, equal⟩ := updateText_code market market' equal
  obtain ⟨sameSymbol, equal⟩ := updateText_code symbol symbol' equal
  obtain ⟨sameKind, equal⟩ := updateText_code kind kind' equal
  obtain ⟨sameTransport, equal⟩ := updateText_code transport transport' equal
  obtain ⟨rfl, equal⟩ := updateText_code timeframe timeframe' equal
  exact ⟨⟨sameExchange, sameMarket, sameSymbol, sameKind, sameTransport, named.trans named'.symm⟩, equal⟩

omit [PyText] [PyFloat F] in
theorem updateChecksumProvenance_code :
    PrefixCode (updateChecksumProvenance (F := F)) SameProvenance := by
  intro left right first second after later wrote again equal
  simp only [updateChecksumProvenance, bind_eq_ok, pure_eq_ok] at wrote again
  obtain ⟨_, provider, _, revised, _, state, _, revision, rfl⟩ := wrote
  obtain ⟨_, provider', _, revised', _, state', _, revision', rfl⟩ := again
  simp only [List.append_assoc] at equal
  obtain ⟨sameProvider, equal⟩ := updateText_code provider provider' equal
  obtain ⟨sameRevised, equal⟩ := updateText_code revised revised' equal
  obtain ⟨sameState, equal⟩ := updateText_code state state' equal
  obtain ⟨sameRevision, equal⟩ := packInt_code revision revision' equal
  exact ⟨⟨sameProvider, sameRevised, RevisionState.value_injective sameState, sameRevision⟩, equal⟩

omit [PyText] [PyFloat F] in
theorem updateDecimalTexts_code : PrefixCode (updateDecimalTexts (F := F)) SameDecimalTexts := by
  intro left right first second after later wrote again equal
  simp only [updateDecimalTexts, bind_eq_ok, pure_eq_ok] at wrote again
  obtain ⟨_, opened, _, high, _, low, _, close, _, volume, rfl⟩ := wrote
  obtain ⟨_, opened', _, high', _, low', _, close', _, volume', rfl⟩ := again
  simp only [List.append_assoc] at equal
  obtain ⟨sameOpen, equal⟩ := updateOptionalText_code opened opened' equal
  obtain ⟨sameHigh, equal⟩ := updateOptionalText_code high high' equal
  obtain ⟨sameLow, equal⟩ := updateOptionalText_code low low' equal
  obtain ⟨sameClose, equal⟩ := updateOptionalText_code close close' equal
  obtain ⟨sameVolume, equal⟩ := updateOptionalText_code volume volume' equal
  exact ⟨⟨sameOpen, sameHigh, sameLow, sameClose, sameVolume⟩, equal⟩

omit [PyText] in
/-- The binary part has one width, and a flag for each value that can be absent. -/
theorem packPresenceAware_code (packs : ∀ value : F, (PyFloat.pack value).length = 8) :
    PrefixCode (packPresenceAware (F := F)) SameValues := by
  intro left right first second after later wrote again equal
  simp only [packPresenceAware, bind_eq_ok, pure_eq_ok] at wrote again
  obtain ⟨_, times, rfl⟩ := wrote
  obtain ⟨_, times', rfl⟩ := again
  simp only [List.append_assoc] at equal
  obtain ⟨integers, equal⟩ := packInts_code (by rfl) times times' equal
  obtain ⟨floats, equal⟩ := packFloats_code packs (by rfl) equal
  obtain ⟨flags, equal⟩ := List.append_inj equal (by rfl)
  have flags := packBools_injective flags
  simp only [List.cons.injEq, and_true] at integers flags
  simp only [prices, optionalVolumes, List.cons_append, List.nil_append, List.map_cons, List.map_nil,
    List.cons.injEq, and_true] at floats
  obtain ⟨time, timeClose, tradesCount, downloadedAt⟩ := integers
  obtain ⟨closeFlag, tradesFlag, downloadFlag, quoteFlag, turnoverFlag, baseFlag, takerFlag, closed⟩ :=
    flags
  obtain ⟨opened, high, low, close, volume, quote, turnover, base, taker⟩ := floats
  exact ⟨⟨time, eq_of_presence closeFlag timeClose, eq_of_presence tradesFlag tradesCount,
    eq_of_presence downloadFlag downloadedAt, opened, high, low, close, volume,
    samePattern_of_presence quoteFlag quote, samePattern_of_presence turnoverFlag turnover,
    samePattern_of_presence baseFlag base, samePattern_of_presence takerFlag taker, closed⟩, equal⟩

/-- A v4 row can be read off the front of a digest's input. -/
theorem updateChecksumV4_code (packs : ∀ value : F, (PyFloat.pack value).length = 8) :
    PrefixCode (updateChecksum (F := F) .v4) SamePersisted := by
  intro left right first second after later wrote again equal
  simp only [updateChecksum, updateChecksumV4, bind_eq_ok, pure_eq_ok] at wrote again
  obtain ⟨_, identity, _, provenance, _, texts, _, values, rfl⟩ := wrote
  obtain ⟨_, identity', _, provenance', _, texts', _, values', rfl⟩ := again
  simp only [List.append_assoc] at equal
  obtain ⟨sameIdentity, equal⟩ := updateChecksumIdentity_code identity identity' equal
  obtain ⟨sameProvenance, equal⟩ := updateChecksumProvenance_code provenance provenance' equal
  obtain ⟨sameTexts, equal⟩ := updateDecimalTexts_code texts texts' equal
  obtain ⟨sameValues, equal⟩ := packPresenceAware_code packs values values' equal
  exact ⟨⟨sameIdentity, sameProvenance, sameTexts, sameValues⟩, (List.cons.inj equal).2⟩

theorem updateChecksumV4_filled (bar : MarketBar F) (bytes : List UInt8)
    (wrote : updateChecksum .v4 bar = .ok bytes) : bytes ≠ [] := by
  simp only [updateChecksum, updateChecksumV4, bind_eq_ok, pure_eq_ok] at wrote
  obtain ⟨_, -, _, -, _, -, _, -, rfl⟩ := wrote
  simp

end Rows

section Digests

variable [PyText] {F : Type} [PyFloat F] [Sha256]

/-- What a link of the v4 tail chain hashes. -/
def linkInput (previous row : List UInt8) : List UInt8 :=
  encodeUtf8 tailChainChecksum.toList ++ [0] ++ previous ++ Sha256.digest row

def rowsInput (bars : List (MarketBar F)) : List UInt8 :=
  ((bars.mapM (updateChecksum .v4)).toOption.getD []).flatten

def chainInputs : List UInt8 → List (MarketBar F) → List (List UInt8)
  | _, [] => []
  | previous, bar :: rest =>
      match updateChecksum .v4 bar with
      | .error _ => []
      | .ok row =>
          row :: linkInput previous row :: chainInputs (Sha256.digest (linkInput previous row)) rest

/-- The byte strings that SHA-256 is fed when these bars are validated under a v4 manifest. -/
def hashInputs (manifest : RawManifest) (bars : List (MarketBar F)) : List (List UInt8) :=
  if manifest.checksumAlgorithm = some tailChainChecksum then
    match tailBase manifest with
    | .error _ => []
    | .ok base =>
        rowsInput (bars.take base.rows) ::
          chainInputs ((bytesOfHex base.checksum).getD []) (bars.drop base.rows)
  else [rowsInput bars]

def fileInputs (F : Type) [PyFloat F] (manifest : RawManifest) (bytes : List UInt8) :
    List (List UInt8) :=
  match readCsv F bytes with
  | .error _ => []
  | .ok bars => hashInputs (F := F) manifest bars

/-- A link whose inputs are among those that SHA-256 is fed. -/
def TailLink (F : Type) [PyFloat F] (fed : Set (List UInt8)) (previous : List UInt8)
    (bar : MarketBar F) (next : List UInt8) : Prop :=
  ∃ row, updateChecksum .v4 bar = .ok row ∧ previous.length = 32 ∧ row ∈ fed ∧
    linkInput previous row ∈ fed ∧ next = Sha256.digest (linkInput previous row)

variable {fed : Set (List UInt8)}

omit [PyText] [PyFloat F] in
theorem linkInput_injective {previous other row again : List UInt8} (length : previous.length = 32)
    (same : other.length = 32) (equal : linkInput previous row = linkInput other again) :
    previous = other ∧ Sha256.digest row = Sha256.digest again := by
  simp only [linkInput, List.append_assoc] at equal
  exact List.append_inj (List.append_cancel_left (List.append_cancel_left equal))
    (length.trans same.symm)

omit [PyText] [PyFloat F] in
theorem length_linkInput {previous row : List UInt8} (length : previous.length = 32) :
    (linkInput previous row).length = 85 := by
  have name : (encodeUtf8 tailChainChecksum.toList).length = 20 := by decide +kernel
  simp only [linkInput, List.length_append, name, length, Sha256.length_digest, List.length_singleton]

omit [PyText] [PyFloat F] in
/-- Read as a length, the first letters of the algorithm's name are a number far beyond a link. -/
theorem linkInput_prefix (previous row : List UInt8) :
    ∃ rest, linkInput previous row = bigEndian 4 1936220466 ++ rest := by
  have name : encodeUtf8 tailChainChecksum.toList =
      bigEndian 4 1936220466 ++ (encodeUtf8 tailChainChecksum.toList).drop 4 := by decide +kernel
  refine ⟨(encodeUtf8 tailChainChecksum.toList).drop 4 ++ ([0] ++ (previous ++ Sha256.digest row)), ?_⟩
  rw [linkInput, name]
  simp only [List.append_assoc]
  rfl

omit [PyFloat F] [Sha256] in
theorem updateChecksumIdentity_prefix {bar : MarketBar F} {bytes : List UInt8}
    (wrote : updateChecksumIdentity bar = .ok bytes) :
    ∃ length rest, length < 2 ^ 32 ∧ bytes = bigEndian 4 length ++ rest ∧ length ≤ rest.length := by
  simp only [updateChecksumIdentity, bind_eq_ok, pure_eq_ok] at wrote
  obtain ⟨exchange, wrote, market, -, symbol, -, kind, -, transport, -, _, -, timeframe, -, rfl⟩ := wrote
  unfold updateText at wrote
  dsimp only at wrote
  split_ifs at wrote with small
  obtain rfl := Except.ok.inj wrote
  refine ⟨_, encodeUtf8 (PyText.lower bar.exchange).toList ++
    (market ++ (symbol ++ (kind ++ (transport ++ timeframe)))), small, by simp only [List.append_assoc], ?_⟩
  simp

/-- The input of a base digest is never the input of a link. -/
theorem linkInput_ne_rows {previous row : List UInt8} {bars : List (MarketBar F)}
    {updates : List (List UInt8)} (length : previous.length = 32)
    (updated : bars.mapM (updateChecksum .v4) = .ok updates) :
    linkInput previous row ≠ updates.flatten := by
  intro equal
  have total : (linkInput previous row).length = 85 := length_linkInput length
  rw [mapM_eq_ok] at updated
  cases updated with
  | nil =>
      rw [equal] at total
      cases total
  | cons wrote rest =>
      simp only [updateChecksum, updateChecksumV4, bind_eq_ok, pure_eq_ok] at wrote
      obtain ⟨identity, wrote, _, -, _, -, _, -, rfl⟩ := wrote
      obtain ⟨count, tail, small, rfl, inside⟩ := updateChecksumIdentity_prefix wrote
      obtain ⟨other, begins⟩ := linkInput_prefix previous row
      rw [equal] at total
      rw [begins] at equal
      simp only [List.flatten_cons, List.append_assoc] at equal
      obtain ⟨same, -⟩ := List.append_inj equal (by simp [length_bigEndian])
      have large := bigEndian_injective (by decide) (by simpa using small) same
      simp only [List.flatten_cons, List.length_append] at total
      omega

theorem TailLink.injective (packs : ∀ value : F, (PyFloat.pack value).length = 8)
    (injective : Set.InjOn Sha256.digest fed) {previous other next : List UInt8}
    {bar again : MarketBar F} (linked : TailLink F fed previous bar next)
    (relinked : TailLink F fed other again next) : previous = other ∧ SamePersisted bar again := by
  obtain ⟨row, wrote, length, fedRow, fedLink, rfl⟩ := linked
  obtain ⟨second, rewrote, same, fedSecond, fedOther, equal⟩ := relinked
  obtain ⟨rfl, digests⟩ := linkInput_injective length same (injective fedLink fedOther equal)
  obtain rfl := injective fedRow fedSecond digests
  exact ⟨rfl, (updateChecksumV4_code packs wrote rewrote (rfl : row ++ [] = row ++ [])).1⟩

/-- A chain that returns is a chain of links. -/
theorem chain_of_extendTailChainAll {bars : List (MarketBar F)} {previous : List UInt8}
    {checksum : String} (feeds : ∀ input ∈ chainInputs previous bars, input ∈ fed)
    (linked : extendTailChainAll .v4 (hexOfBytes previous) bars = .ok checksum) :
    ∃ last, checksum = hexOfBytes last ∧ Chain (TailLink F fed) previous bars last := by
  induction bars generalizing previous with
  | nil => exact ⟨previous, (Except.ok.inj linked).symm, .nil⟩
  | cons bar rest ih =>
      rw [extendTailChainAll, List.foldlM_cons, bind_eq_ok] at linked
      obtain ⟨middle, extended, linked⟩ := linked
      simp only [extendTailChain, bytesOfHex_hexOfBytes] at extended
      split at extended
      · cases extended
      · rename_i length
        obtain ⟨row, wrote, made⟩ := bind_eq_ok.mp extended
        obtain rfl := Except.ok.inj made
        simp only [chainInputs, wrote, List.mem_cons, forall_eq_or_imp] at feeds
        obtain ⟨fedRow, fedLink, feeds⟩ := feeds
        obtain ⟨last, ended, chain⟩ := ih feeds linked
        exact ⟨last, ended, .cons ⟨row, wrote, by simpa using length, fedRow, fedLink, rfl⟩ chain⟩

theorem rowsDigest_inputs {bars : List (MarketBar F)} {checksum : String}
    (digested : rowsDigest .v4 bars = .ok checksum) :
    ∃ updates, bars.mapM (updateChecksum .v4) = .ok updates ∧
      rowsInput bars = updates.flatten ∧ checksum = hexOfBytes (Sha256.digest (rowsInput bars)) := by
  obtain ⟨updates, updated, made⟩ := bind_eq_ok.mp digested
  have input : rowsInput bars = updates.flatten := by
    rw [rowsInput, updated]
    rfl
  exact ⟨updates, updated, input, by rw [input]; exact (Except.ok.inj made).symm⟩

/-- One digest of two lists of rows is a digest of the same rows. -/
theorem same_of_rowsDigest (packs : ∀ value : F, (PyFloat.pack value).length = 8)
    (injective : Set.InjOn Sha256.digest fed) {bars others : List (MarketBar F)} {checksum : String}
    (digested : rowsDigest .v4 bars = .ok checksum) (again : rowsDigest .v4 others = .ok checksum)
    (feeds : rowsInput bars ∈ fed) (refeeds : rowsInput others ∈ fed) :
    List.Forall₂ SamePersisted bars others := by
  obtain ⟨updates, updated, input, rfl⟩ := rowsDigest_inputs digested
  obtain ⟨seconds, reupdated, reinput, same⟩ := rowsDigest_inputs again
  have equal := injective feeds refeeds (hexOfBytes_injective same)
  rw [input, reinput] at equal
  exact PrefixCode.flatten (updateChecksumV4_code packs) updateChecksumV4_filled updated reupdated equal

/-- One tail of a chain from one base is a chain over the same rows. -/
theorem same_of_tailChain (packs : ∀ value : F, (PyFloat.pack value).length = 8)
    (injective : Set.InjOn Sha256.digest fed) {base bars others : List (MarketBar F)}
    {first last : String} (digested : rowsDigest .v4 base = .ok first) (feedsBase : rowsInput base ∈ fed)
    (linked : extendTailChainAll .v4 first bars = .ok last)
    (relinked : extendTailChainAll .v4 first others = .ok last)
    (feeds : ∀ input ∈ chainInputs ((bytesOfHex first).getD []) bars, input ∈ fed)
    (refeeds : ∀ input ∈ chainInputs ((bytesOfHex first).getD []) others, input ∈ fed) :
    List.Forall₂ SamePersisted bars others := by
  obtain ⟨updates, updated, input, rfl⟩ := rowsDigest_inputs digested
  simp only [bytesOfHex_hexOfBytes, Option.getD_some] at feeds refeeds
  obtain ⟨ended, rfl, chain⟩ := chain_of_extendTailChainAll feeds linked
  obtain ⟨again, same, rechain⟩ := chain_of_extendTailChainAll refeeds relinked
  obtain rfl := hexOfBytes_injective same
  have fresh (previous : List UInt8) (bar : MarketBar F) :
      ¬ TailLink F fed previous bar (Sha256.digest (rowsInput base)) := by
    rintro ⟨row, -, length, -, fedLink, equal⟩
    exact linkInput_ne_rows length updated ((injective feedsBase fedLink equal).symm.trans input)
  exact chain.committed (fun _ _ _ _ _ one other => one.injective packs injective other) fresh rechain

theorem mem_fileInputs {manifest : RawManifest} {bytes input : List UInt8}
    {bars : List (MarketBar F)} (read : readCsv F bytes = .ok bars)
    (member : input ∈ hashInputs manifest bars) : input ∈ fileInputs F manifest bytes := by
  rw [fileInputs, read]
  exact member

omit [Sha256] in
/-- The reader refuses a row without a provider revision. -/
theorem providerRevision_of_rowToBar {row : CsvRow} {bar : MarketBar F} (read : rowToBar row = .ok bar) :
    ∃ text, bar.providerRevision = some text ∧ text ≠ "" := by
  simp only [rowToBar, bind_eq_ok, pure_eq_ok] at read
  obtain ⟨provenance, checked, _, -, _, -, _, -, _, -, _, -, _, -, _, -, _, -, _, -, _, -, _, -, _, -,
    _, -, _, -, _, -, _, -, _, -, _, -, rfl⟩ := read
  refine ⟨provenance.providerRevision, rfl, ?_⟩
  unfold rowProvenance at checked
  split_ifs at checked with closes provider filled state revision
  split at checked
  · cases checked
  · obtain rfl := Except.ok.inj checked
    exact filled

omit [Sha256] in
theorem providerRevision_of_readCsv {bytes : List UInt8} {bars : List (MarketBar F)}
    (read : readCsv F bytes = .ok bars) {bar : MarketBar F} (member : bar ∈ bars) :
    ∃ text, bar.providerRevision = some text ∧ text ≠ "" := by
  simp only [readCsv, bind_eq_ok, pure_eq_ok] at read
  obtain ⟨stream, -, _, parsed, -, -, rfl⟩ := read
  obtain ⟨row, -, made⟩ := of_mem_mapM parsed _ member
  exact providerRevision_of_rowToBar made

/-- Two files that a v4 manifest accepts hold the same bars, if SHA-256 tells apart what it is fed. -/
theorem csvChecksum_tamper_evident (packs : ∀ value : F, (PyFloat.pack value).length = 8)
    (manifest : RawManifest) (left right : List UInt8)
    (v4 : manifest.checksumAlgorithm = some canonicalChecksum ∨
      manifest.checksumAlgorithm = some tailChainChecksum)
    (injective : Set.InjOn Sha256.digest
      {input | input ∈ fileInputs F manifest left ∨ input ∈ fileInputs F manifest right})
    (accepts : validateCsvChecksum F left manifest = .ok ())
    (reaccepts : validateCsvChecksum F right manifest = .ok ()) :
    ∃ bars others : List (MarketBar F), readCsv F left = .ok bars ∧ readCsv F right = .ok others ∧
      List.Forall₂ SamePersisted bars others ∧
        ∀ bar ∈ bars ++ others, ∃ text, bar.providerRevision = some text ∧ text ≠ "" := by
  obtain ⟨bars, read, -, agrees⟩ := validateCsvChecksum_ok_iff.mp accepts
  obtain ⟨others, reread, -, reagrees⟩ := validateCsvChecksum_ok_iff.mp reaccepts
  have feeds {input : List UInt8} (member : input ∈ hashInputs manifest bars) :
      input ∈ {input | input ∈ fileInputs F manifest left ∨ input ∈ fileInputs F manifest right} :=
    .inl (mem_fileInputs read member)
  have refeeds {input : List UInt8} (member : input ∈ hashInputs manifest others) :
      input ∈ {input | input ∈ fileInputs F manifest left ∨ input ∈ fileInputs F manifest right} :=
    .inr (mem_fileInputs reread member)
  refine ⟨bars, others, read, reread, ?_, fun bar member => ?_⟩
  · rcases v4 with canonical | tail
    · have name : ChecksumAlgorithm.ofName canonicalChecksum = some (.canonical .v4) :=
        ChecksumAlgorithm.ofName_name _
      have other : ¬ manifest.checksumAlgorithm = some tailChainChecksum := by
        rw [canonical]
        decide
      simp only [ChecksumAgrees, canonical, Option.getD_some, name] at agrees reagrees
      simp only [hashInputs, if_neg other, List.mem_singleton, forall_eq] at feeds refeeds
      exact same_of_rowsDigest packs injective agrees reagrees feeds refeeds
    · have name : ChecksumAlgorithm.ofName tailChainChecksum = some (.tailChain .v4) :=
        ChecksumAlgorithm.ofName_name _
      simp only [ChecksumAgrees, tail, Option.getD_some, name] at agrees reagrees
      obtain ⟨base, based, -, digested, linked⟩ := agrees
      obtain ⟨again, rebased, -, redigested, relinked⟩ := reagrees
      obtain rfl := Except.ok.inj (based.symm.trans rebased)
      simp only [hashInputs, if_pos tail, based, List.mem_cons, forall_eq_or_imp] at feeds refeeds
      have front := same_of_rowsDigest packs injective digested redigested feeds.1 refeeds.1
      have back := same_of_tailChain packs injective digested feeds.1 linked relinked feeds.2 refeeds.2
      rw [← List.take_append_drop base.rows bars, ← List.take_append_drop base.rows others]
      exact List.rel_append front back
  · rcases List.mem_append.mp member with first | second
    · exact providerRevision_of_readCsv read first
    · exact providerRevision_of_readCsv reread second

end Digests

section Example

open scoped Reference
open Reference

/-- A file that differs in the case of a name passes under the same manifest. -/
theorem csvChecksum_tamper_evident_oneCandle : ∃ bars others : List (MarketBar Whole),
    readCsv Whole (csvFile [candle 0]) = .ok bars ∧
      readCsv Whole (csvFile [{ candle 0 with exchange := "BINANCE" }]) = .ok others ∧
        List.Forall₂ SamePersisted bars others := by
  have storable : ∀ bar ∈ [{ candle 0 with exchange := "BINANCE" }], bar.Storable := by
    simp only [List.mem_singleton, forall_eq]
    exact ⟨survives_of_rowToBar "1m" (eq_ok_of_toOption (by decide +kernel)),
      by unfold MarketBar.Fits; decide +kernel, eq_ok_of_toOption (by decide +kernel)⟩
  have normal : [{ candle 0 with exchange := "BINANCE" }].mapM normalizedBar = .ok [candle 0] :=
    eq_ok_of_toOption (by decide +kernel)
  have inputs : hashInputs manifest.asdict [candle 0] = [rowsInput [candle 0]] := rfl
  have read := readCsv_of_storable candle_normal candles_storable
  have reread := readCsv_of_storable normal storable
  have feeds {bytes : List UInt8} (reads : readCsv Whole bytes = .ok [candle 0]) :
      fileInputs Whole manifest.asdict bytes = [rowsInput [candle 0]] := by
    rw [fileInputs, reads]
    exact inputs
  have single (input : List UInt8)
      (fed : input ∈ fileInputs Whole manifest.asdict (csvFile [candle 0]) ∨
        input ∈ fileInputs Whole manifest.asdict (csvFile [{ candle 0 with exchange := "BINANCE" }])) :
      input = rowsInput [candle 0] := by
    rw [feeds read, feeds reread, or_self] at fed
    exact List.mem_singleton.mp fed
  obtain ⟨bars, others, first, second, same, -⟩ := csvChecksum_tamper_evident
    (fun _ => Foundation.Sha256.length_bytesOf _ _) manifest.asdict
    (csvFile [candle 0]) (csvFile [{ candle 0 with exchange := "BINANCE" }]) (.inr rfl)
    (fun _ fed _ again _ => (single _ fed).trans (single _ again).symm)
    ((validateCsvChecksum_csvFile_iff _ candle_normal candles_storable).mpr oneCandle_agrees)
    ((validateCsvChecksum_csvFile_iff _ normal storable).mpr
      ((checksumAgrees_congr (sameDigest_normalized normal) _).mp oneCandle_agrees))
  exact ⟨bars, others, first, second, same⟩

end Example

end MarketdataProvider
