import MarketdataProvider.Core.Exact
import MarketdataProvider.Foundation.Runs
import MarketdataProvider.Store.LegacyRollback

namespace MarketdataProvider

open Foundation Foundation.Crash

section Lines

/-- No line break. -/
def Unbroken (text : List Char) : Prop := '\n' ∉ text ∧ '\r' ∉ text

theorem takeLine_append {plain rest : List Char} (unbroken : Unbroken plain) :
    takeLine (plain ++ rest) = plain ++ takeLine rest := by
  induction plain with
  | nil => rfl
  | cons character plain ih =>
      obtain ⟨feed, carriage⟩ := unbroken
      rw [List.mem_cons, not_or] at feed carriage
      rw [List.cons_append, takeLine, if_neg (Ne.symm feed.1), if_neg (Ne.symm carriage.1),
        ih ⟨feed.2, carriage.2⟩]
      rfl

theorem takeLine_prefix (text : List Char) : takeLine text <+: text := by
  induction text with
  | nil => exact List.prefix_refl _
  | cons character rest ih =>
      unfold takeLine
      split_ifs with feed carriage next
      · rw [feed]
        simp
      · cases rest with
        | nil => cases next
        | cons head tail =>
            rw [List.head?_cons, Option.some.injEq] at next
            rw [carriage, next]
            simp
      · rw [carriage]
        simp
      · simpa using ih

/-- A line with its break at the end. -/
def Terminated (line : List Char) : Prop := ∃ body, Unbroken body ∧ line = body ++ ['\r', '\n']

theorem Unbroken.suffix {text after : List Char} (unbroken : Unbroken text) (part : after <:+ text) :
    Unbroken after :=
  ⟨fun member => unbroken.1 (part.subset member), fun member => unbroken.2 (part.subset member)⟩

theorem takeLine_part {line part : List Char} (terminated : Terminated line) (inside : part <:+ line)
    (filled : part ≠ []) (rest : List Char) : takeLine (part ++ rest) = part := by
  obtain ⟨body, unbroken, rfl⟩ := terminated
  rw [show body ++ ['\r', '\n'] = (body ++ ['\r']) ++ ['\n'] by simp] at inside
  obtain ⟨front, rfl, carriage⟩ := (List.suffix_concat_iff.mp inside).resolve_left filled
  obtain rfl | ⟨plain, rfl, inner⟩ := List.suffix_concat_iff.mp carriage
  · rfl
  · simp only [List.append_assoc]
    rw [takeLine_append (unbroken.suffix inner)]
    rfl

/-- From within a line its rest is read first. -/
theorem drop_takeLine {lines : List (List Char)} (terminated : ∀ line ∈ lines, Terminated line)
    {after : List Char} (part : after <:+ lines.flatten) :
    ∃ count, count ≤ lines.length ∧
      after.drop (takeLine after).length = (lines.drop count).flatten := by
  induction lines generalizing after with
  | nil =>
      obtain rfl := List.suffix_nil.mp part
      exact ⟨0, Nat.le_refl _, rfl⟩
  | cons line lines ih =>
      have later {after : List Char} (part : after <:+ lines.flatten) :
          ∃ count, count ≤ (line :: lines).length ∧
            after.drop (takeLine after).length = ((line :: lines).drop count).flatten := by
        obtain ⟨count, bound, dropped⟩ :=
          ih (fun line member => terminated line (List.mem_cons_of_mem _ member)) part
        exact ⟨count + 1, Nat.succ_le_succ bound, dropped⟩
      obtain ⟨front, whole⟩ := part
      rw [List.flatten_cons] at whole
      rcases List.append_eq_append_iff.mp whole with ⟨middle, split, rfl⟩ | ⟨middle, rfl, split⟩
      · by_cases empty : middle = []
        · rw [empty]
          exact later (List.suffix_refl _)
        · refine ⟨1, by simp, ?_⟩
          rw [takeLine_part (terminated line List.mem_cons_self) ⟨_, split.symm⟩ empty]
          simp
      · exact later ⟨middle, split.symm⟩

theorem takeLine_row {line : List Char} (terminated : Terminated line) (rest : List Char) :
    takeLine (line ++ rest) = line := by
  refine takeLine_part terminated (List.suffix_refl _) ?_ rest
  obtain ⟨body, -, rfl⟩ := terminated
  simp

/-- A written record has a break at its end, and another one only inside a field. -/
theorem encodeRecord_terminated {fields : List String}
    (unbroken : ∀ field ∈ fields, Unbroken field.toList) : Terminated (Csv.encodeRecord fields) := by
  refine ⟨_, ?_, rfl⟩
  have doubled : ∀ text : List Char, Unbroken text → Unbroken (Csv.doubled text) := by
    intro text
    induction text with
    | nil => exact id
    | cons character rest ih =>
        rintro ⟨feed, carriage⟩
        rw [List.mem_cons, not_or] at feed carriage
        have tail := ih ⟨feed.2, carriage.2⟩
        unfold Csv.doubled
        split
        · exact ⟨by simp [tail.1], by simp [tail.2]⟩
        · exact ⟨by simp [tail.1, feed.1], by simp [tail.2, carriage.1]⟩
  have field {text : String} (plain : Unbroken text.toList) : Unbroken (Csv.encodeField text) := by
    unfold Csv.encodeField
    split
    · have inner := doubled _ plain
      exact ⟨by simp [inner.1], by simp [inner.2]⟩
    · exact plain
  have all : ∀ fields : List String, (∀ field ∈ fields, Unbroken field.toList) →
      Unbroken (Csv.encodeFields fields) := by
    intro fields
    induction fields with
    | nil => exact fun _ => ⟨List.not_mem_nil, List.not_mem_nil⟩
    | cons first rest ih =>
        intro plain
        have head := field (plain first List.mem_cons_self)
        have tail := ih fun other member => plain other (List.mem_cons_of_mem _ member)
        cases rest with
        | nil => exact head
        | cons next others =>
            rw [Csv.encodeFields]
            · exact ⟨by simp [head.1, tail.1], by simp [head.2, tail.2]⟩
            · simp
  split
  · exact ⟨by decide, by decide⟩
  · exact all fields unbroken

end Lines

section Segment

variable {F : Type} [PyFloat F] {bars : List (MarketBar F)}

def rowsText (bars : List (MarketBar F)) : List Char :=
  bars.flatMap fun bar => Csv.encodeRecord (persistedRecord bar)

/-- The byte position at which a row starts; the last one is the end of the file. -/
def rowStart (bars : List (MarketBar F)) (count : Nat) : Nat := (csvFile (bars.take count)).length

theorem csvFile_eq (bars : List (MarketBar F)) :
    csvFile bars = encodeUtf8 (Csv.encodeRecord persistedMarketBarFields ++ rowsText bars) := by
  rw [csvFile, rowsText, List.flatMap_cons, List.flatMap_map]

theorem csvFile_drop (bars : List (MarketBar F)) (count : Nat) :
    (csvFile bars).drop (rowStart bars count) = encodeUtf8 (rowsText (bars.drop count)) := by
  have whole := csvFile_append (bars.take count) (bars.drop count)
  rw [List.take_append_drop] at whole
  rw [whole, rowStart, List.drop_left]
  rfl

theorem rowStart_le (bars : List (MarketBar F)) (count : Nat) :
    rowStart bars count ≤ (csvFile bars).length := by
  have whole := csvFile_append (bars.take count) (bars.drop count)
  rw [List.take_append_drop] at whole
  rw [whole, rowStart, List.length_append]
  exact Nat.le_add_right _ _

/-- Two positions with the same text behind them are the same position. -/
theorem eq_rowStart {position count : Nat} (inside : position ≤ (csvFile bars).length)
    (same : (csvFile bars).drop position = encodeUtf8 (rowsText (bars.drop count))) :
    position = rowStart bars count := by
  have lengths := congrArg List.length (same.trans (csvFile_drop bars count).symm)
  have other := rowStart_le bars count
  simp only [List.length_drop] at lengths
  omega

theorem header_line : takeLine (Csv.encodeRecord persistedMarketBarFields) =
      Csv.encodeRecord persistedMarketBarFields ∧
    csvLine (Csv.encodeRecord persistedMarketBarFields) = .ok persistedMarketBarFields :=
  ⟨by decide +kernel, eq_ok_of_toOption (by decide +kernel)⟩

theorem header_terminated : Terminated (Csv.encodeRecord persistedMarketBarFields) :=
  encodeRecord_terminated (by unfold Unbroken; decide)

theorem readLineAt_header (bars : List (MarketBar F)) :
    readLineAt (csvFile bars) 0 =
      .ok (Csv.encodeRecord persistedMarketBarFields, rowStart bars 0) := by
  rw [readLineAt, List.drop_zero, csvFile_eq, decodeText, decodeUtf8_encodeUtf8, ok_bind,
    takeLine_row header_terminated]
  rw [rowStart, csvFile_eq, rowsText, List.take_zero, List.flatMap_nil, List.append_nil]
  exact congrArg Except.ok (Prod.ext rfl (Nat.zero_add _))

theorem toString_plain (time : Int) :
    ∀ character ∈ (toString time).toList, Csv.special character = false := by
  have digits (count : Nat) : ∀ character ∈ Nat.toDigits 10 count, Csv.special character = false := by
    intro character member
    have digit := Nat.isDigit_of_mem_toDigits (by decide) (by decide) member
    by_contra special
    simp only [Csv.special, Bool.not_eq_false, Bool.or_eq_true, decide_eq_true_eq] at special
    rcases special with ((rfl | rfl) | rfl) | rfl <;> cases digit
  cases time with
  | ofNat count =>
      rw [show (toString (Int.ofNat count)).toList = Nat.toDigits 10 count by
        simp [toString, Int.repr, Nat.repr]]
      exact digits count
  | negSucc count =>
      rw [show (toString (Int.negSucc count)).toList = '-' :: Nat.toDigits 10 (count + 1) by
        simp [toString, Int.repr, Nat.repr]]
      rintro character (_ | ⟨_, member⟩)
      · decide
      · exact digits _ character member

/-- A row begins with the text of its time and a comma. -/
theorem encodeRecord_time (bar : MarketBar F) :
    ∃ rest, Csv.encodeRecord (persistedRecord bar) = (toString bar.time).toList ++ ',' :: rest := by
  have plain : Csv.encodeField (toString bar.time) = (toString bar.time).toList := by
    rw [Csv.encodeField, if_neg]
    simpa using toString_plain bar.time
  have record : ∃ next others, persistedRecord bar = toString bar.time :: next :: others := ⟨_, _, rfl⟩
  obtain ⟨next, others, same⟩ := record
  rw [same, Csv.encodeRecord, if_neg (by simp), Csv.encodeFields, plain, List.append_assoc,
    List.cons_append]
  · exact ⟨_, rfl⟩
  · simp

theorem firstCell_row (bar : MarketBar F) (rest : List Char) :
    takeLine (Csv.encodeRecord (persistedRecord bar) ++ rest) ≠ [] ∧
      firstCell (takeLine (Csv.encodeRecord (persistedRecord bar) ++ rest)) =
        (toString bar.time).toList := by
  obtain ⟨others, begins⟩ := encodeRecord_time bar
  have plain := toString_plain bar.time
  have unbroken : Unbroken (toString bar.time).toList :=
    ⟨fun member => absurd (plain _ member) (by decide), fun member => absurd (plain _ member) (by decide)⟩
  rw [begins, List.append_assoc, takeLine_append unbroken, List.cons_append, takeLine,
    if_neg (by decide), if_neg (by decide)]
  refine ⟨by simp, ?_⟩
  rw [firstCell, List.takeWhile_append_of_pos]
  · simp
  · intro character member
    have ordinary := plain character member
    by_contra comma
    simp only [ne_eq, decide_not, Bool.not_eq_true', Bool.not_eq_false, decide_eq_true_eq] at comma
    subst comma
    cases ordinary

end Segment

section Search

variable [PyText] {F : Type} [PyFloat F] {bars : List (MarketBar F)} {pending : Nat → Bool}
  {bytes : List UInt8} {headerEnd : Nat} {start : Int}

/-- Each probe that the bisection makes is good. -/
def Probes (good : Nat → Prop) (pending : Nat → Bool) (bytes : List UInt8) (headerEnd : Nat)
    (start : Int) : Nat → Nat → Nat → Prop
  | 0, _, _ => True
  | fuel + 1, low, high =>
      low < high → good ((low + high) / 2) ∧
        match probeAt pending bytes headerEnd ((low + high) / 2) with
        | .error _ => True
        | .ok .text => True
        | .ok .past => Probes good pending bytes headerEnd start fuel low
            (max headerEnd ((low + high) / 2 - 1))
        | .ok (.row time _ next) =>
            if time ≤ start then Probes good pending bytes headerEnd start fuel next high
            else Probes good pending bytes headerEnd start fuel low
              (max headerEnd ((low + high) / 2 - 1))

/-- The position is the start of a character. -/
def Unsplit (bytes : List UInt8) (position : Nat) : Prop :=
  (decodeUtf8 (bytes.drop position)).isSome

/-- The position is the start of a character, and a line that is taken for a row is one. -/
def Aligned (pending : Nat → Bool) (bars : List (MarketBar F)) (start : Int) (position : Nat) : Prop :=
  Unsplit (csvFile bars) position ∧ ∀ time candidate next,
    probeAt pending (csvFile bars) (rowStart bars 0) position = .ok (.row time candidate next) →
      time ≤ start → ∃ count, candidate = rowStart bars count

/-- What a whole bisection of the file is asked for. -/
def Searches (good : Int → Nat → Prop) (pending : Nat → Bool) (raw : RawManifest)
    (bars : List (MarketBar F)) (start : Option Int) : Prop :=
  ∀ first, start = some first → searched raw (csvFile bars).length (rowStart bars 0) first →
    Probes (good first) pending (csvFile bars) (rowStart bars 0) first 24 (rowStart bars 0)
      ((csvFile bars).length - 1)

omit [PyText] in
theorem unsplit_iff {position : Nat} :
    Unsplit bytes position ↔ ∃ text, decodeText (bytes.drop position) = .ok text := by
  rw [Unsplit, decodeText]
  cases decodeUtf8 (bytes.drop position) <;> simp

omit [PyText] in
theorem readLineAt_eq_ok {position : Nat} {line : List Char} {next : Nat} :
    readLineAt bytes position = .ok (line, next) ↔
      ∃ text, bytes.drop position = encodeUtf8 text ∧ line = takeLine text ∧
        next = position + (encodeUtf8 line).length := by
  simp only [readLineAt, bind_eq_ok, pure_eq_ok, Prod.mk.injEq]
  constructor
  · rintro ⟨text, decoded, rfl, rfl⟩
    refine ⟨text, ?_, rfl, rfl⟩
    unfold decodeText at decoded
    split at decoded
    · cases decoded
    · rename_i found
      obtain rfl := Except.ok.inj decoded
      exact (encodeUtf8_of_decodeUtf8 found).symm
  · rintro ⟨text, same, rfl, rfl⟩
    exact ⟨text, by rw [same, decodeText, decodeUtf8_encodeUtf8], rfl, rfl⟩

omit [PyText] in
/-- After a line the rest of the text begins. -/
theorem drop_readLineAt {position : Nat} {text : List Char}
    (same : bytes.drop position = encodeUtf8 text) :
    bytes.drop (position + (encodeUtf8 (takeLine text)).length) =
      encodeUtf8 (text.drop (takeLine text).length) := by
  obtain ⟨rest, split⟩ := takeLine_prefix text
  have remaining : text.drop (takeLine text).length = rest := by
    nth_rewrite 2 [← split]
    exact List.drop_left
  have whole : encodeUtf8 text = encodeUtf8 (takeLine text) ++ encodeUtf8 rest := by
    rw [← encodeUtf8_append, split]
  rw [remaining, ← List.drop_drop, same, whole, List.drop_left]

omit [PyText] in
theorem readLineAt_text {position : Nat} {text : List Char}
    (same : bytes.drop position = encodeUtf8 text) :
    readLineAt bytes position =
      .ok (takeLine text, position + (encodeUtf8 (takeLine text)).length) :=
  readLineAt_eq_ok.mpr ⟨text, same, rfl, rfl⟩

omit [PyText] in
theorem text_of_unsplit {position : Nat} (unsplit : Unsplit bytes position) :
    ∃ text, bytes.drop position = encodeUtf8 text := by
  obtain ⟨text, found⟩ := Option.isSome_iff_exists.mp unsplit
  exact ⟨text, (encodeUtf8_of_decodeUtf8 found).symm⟩

omit [PyText] in
theorem unsplit_of_text {position : Nat} {text : List Char}
    (same : bytes.drop position = encodeUtf8 text) : Unsplit bytes position := by
  rw [Unsplit, same, decodeUtf8_encodeUtf8]
  rfl

omit [PyText] in
/-- A probe at the start of a character has a candidate: itself, or the line after it. -/
theorem candidateAt_unsplit (headerEnd : Nat) {mid : Nat} (unsplit : Unsplit bytes mid) :
    ∃ candidate text, candidateAt bytes headerEnd mid = .ok candidate ∧
      bytes.drop candidate = encodeUtf8 text ∧
      ∃ before, bytes.drop mid = encodeUtf8 before ∧
        text = if headerEnd < mid then before.drop (takeLine before).length else before := by
  obtain ⟨before, same⟩ := text_of_unsplit unsplit
  unfold candidateAt
  by_cases later : headerEnd < mid
  · rw [if_pos later, readLineAt_text same]
    exact ⟨_, _, rfl, drop_readLineAt same, before, same, (if_pos later).symm⟩
  · rw [if_neg later]
    exact ⟨_, _, rfl, same, before, same, (if_neg later).symm⟩

theorem probeAt_candidate (pending : Nat → Bool) {mid candidate : Nat} {text : List Char}
    (found : candidateAt bytes headerEnd mid = .ok candidate)
    (same : bytes.drop candidate = encodeUtf8 text) :
    probeAt pending bytes headerEnd mid = .ok (probeLine pending candidate (takeLine text)
      (candidate + (encodeUtf8 (takeLine text)).length)) := by
  rw [probeAt, found, ok_bind, readLineAt_text same]
  rfl

theorem unsplit_of_probeAt {mid : Nat} {probe : Probe}
    (probed : probeAt pending bytes headerEnd mid = .ok probe) : Unsplit bytes mid := by
  simp only [probeAt, candidateAt, bind_eq_ok, pure_eq_ok] at probed
  obtain ⟨candidate, looked, ⟨line, next⟩, read, -⟩ := probed
  split at looked
  · obtain ⟨⟨line, next⟩, read, -⟩ := map_eq_ok.mp looked
    obtain ⟨text, same, -⟩ := readLineAt_eq_ok.mp read
    exact unsplit_of_text same
  · obtain rfl := Except.ok.inj looked
    obtain ⟨text, same, -⟩ := readLineAt_eq_ok.mp read
    exact unsplit_of_text same

omit [PyText] in
/-- Every position of an ASCII text is the start of a character. -/
theorem unsplit_ascii {text : List Char} (ascii : ∀ character ∈ text, character.toNat < 128)
    (position : Nat) : Unsplit (encodeUtf8 text) position := by
  have dropped : ∀ position, (encodeUtf8 text).drop position = encodeUtf8 (text.drop position) := by
    induction text with
    | nil => simp [encodeUtf8]
    | cons character rest ih =>
        rw [List.forall_mem_cons] at ascii
        have single : (String.utf8EncodeChar character).length = 1 := by
          rw [String.length_utf8EncodeChar, Char.utf8Size_eq_one_iff]
          simpa [UInt32.le_iff_toNat_le] using Nat.le_of_lt_succ ascii.1
        intro position
        cases position with
        | zero => rfl
        | succ position =>
            rw [List.drop_succ_cons, ← ih ascii.2, encodeUtf8, List.flatMap_cons, Nat.add_comm,
              ← List.drop_drop, ← single, List.drop_left]
            rfl
  exact unsplit_of_text (dropped position)

omit [PyText] in
theorem not_unsplit {position : Nat} {byte : UInt8} {rest : List UInt8}
    (found : bytes.drop position = byte :: rest) (continues : ¬ byte.IsUTF8FirstByte) :
    ¬ Unsplit bytes position := by
  intro unsplit
  obtain ⟨text, same⟩ := text_of_unsplit unsplit
  rw [found] at same
  cases text with
  | nil => cases same
  | cons character later =>
      cases begun : String.utf8EncodeChar character with
      | nil => exact absurd begun String.utf8EncodeChar_ne_nil
      | cons head others =>
          have starts := (firstByte_of_utf8EncodeChar (show _ = [] ++ head :: others from begun)).mpr rfl
          have heads : byte :: rest = String.utf8EncodeChar character ++ encodeUtf8 later := same
          rw [begun] at heads
          rw [← (List.cons.inj heads).1] at starts
          exact continues starts

theorem Probes.all {good : Nat → Prop} (fine : ∀ mid, good mid) (fuel low high : Nat) :
    Probes good pending bytes headerEnd start fuel low high := by
  induction fuel generalizing low high with
  | zero => exact trivial
  | succ fuel ih =>
      refine fun _ => ⟨fine _, ?_⟩
      split
      · trivial
      · trivial
      · exact ih _ _
      · split
        · exact ih _ _
        · exact ih _ _

/-- A bisection that returns split no character. -/
theorem unsplit_of_bisect {fuel low high best found : Nat}
    (returned : bisect pending bytes headerEnd start fuel low high best = .ok found) :
    Probes (Unsplit bytes) pending bytes headerEnd start fuel low high := by
  induction fuel generalizing low high best with
  | zero => exact trivial
  | succ fuel ih =>
      intro open_
      rw [bisect, if_neg (Nat.not_le.mpr open_), bind_eq_ok] at returned
      obtain ⟨probe, probed, returned⟩ := returned
      refine ⟨unsplit_of_probeAt probed, ?_⟩
      rw [probed]
      cases probe with
      | text => exact trivial
      | past => exact ih returned
      | row time position next =>
          dsimp only at returned ⊢
          split
          · rename_i early
            rw [if_pos early] at returned
            exact ih returned
          · rename_i late
            rw [if_neg late] at returned
            exact ih returned

/-- What a probe says of a row. -/
theorem row_of_probeAt {mid position next : Nat} {time : Int}
    (probed : probeAt pending bytes headerEnd mid = .ok (.row time position next)) :
    candidateAt bytes headerEnd mid = .ok position ∧ position ≤ next ∧
      ∃ text, bytes.drop position = encodeUtf8 text ∧ takeLine text ≠ [] ∧
        pyInt (firstCell (takeLine text)) = some time := by
  simp only [probeAt, bind_eq_ok, pure_eq_ok] at probed
  obtain ⟨candidate, found, ⟨line, after⟩, read, made⟩ := probed
  obtain ⟨text, same, rfl, rfl⟩ := readLineAt_eq_ok.mp read
  unfold probeLine at made
  split_ifs at made with empty
  split at made
  · cases made
  · rename_i value parsed
    cases made
    refine ⟨found, ?_, text, same, empty, parsed⟩
    unfold tell
    split <;> omega

omit [PyText] in
theorem candidateAt_le {mid candidate : Nat} (found : candidateAt bytes headerEnd mid = .ok candidate) :
    mid ≤ candidate := by
  unfold candidateAt at found
  split at found
  · obtain ⟨⟨line, next⟩, read, rfl⟩ := map_eq_ok.mp found
    obtain ⟨text, -, -, rfl⟩ := readLineAt_eq_ok.mp read
    exact Nat.le_add_right _ _
  · exact (Except.ok.inj found).le

/-- The bisection stays behind the header. -/
theorem Probes.imp {good better : Nat → Prop}
    (improves : ∀ mid, headerEnd ≤ mid → good mid → better mid) {fuel low high : Nat}
    (behindLow : headerEnd ≤ low) (behindHigh : headerEnd ≤ high)
    (probes : Probes good pending bytes headerEnd start fuel low high) :
    Probes better pending bytes headerEnd start fuel low high := by
  induction fuel generalizing low high with
  | zero => exact trivial
  | succ fuel ih =>
      intro narrower
      obtain ⟨fine, rest⟩ := probes narrower
      refine ⟨improves _ (by omega) fine, ?_⟩
      split at rest
      · trivial
      · trivial
      · exact ih behindLow (Nat.le_max_left _ _) rest
      · rename_i time position next probed
        obtain ⟨found, after, -⟩ := row_of_probeAt probed
        have before := candidateAt_le found
        split_ifs at rest ⊢
        · exact ih (by omega) behindHigh rest
        · exact ih behindLow (Nat.le_max_left _ _) rest

/-- The position is that of the first row, or of a row that is not behind the start. -/
def Skips (bars : List (MarketBar F)) (start : Int) (position : Nat) : Prop :=
  ∃ count, position = rowStart bars count ∧
    (count = 0 ∨ ∃ bar rest, bars.drop count = bar :: rest ∧ bar.time ≤ start)

/-- A probe at the start of a row reads its time. -/
theorem time_of_probeAt {mid count next : Nat} {time : Int}
    (probed : probeAt pending (csvFile bars) headerEnd mid = .ok (.row time (rowStart bars count) next)) :
    ∃ bar rest, bars.drop count = bar :: rest ∧ time = bar.time := by
  obtain ⟨-, -, text, same, filled, parsed⟩ := row_of_probeAt probed
  obtain rfl := encodeUtf8_injective (same.symm.trans (csvFile_drop bars count))
  cases remaining : bars.drop count with
  | nil =>
      rw [remaining] at filled
      exact absurd rfl filled
  | cons bar rest =>
      have text : rowsText (bars.drop count) =
          Csv.encodeRecord (persistedRecord bar) ++ rowsText rest := by
        rw [remaining, rowsText, List.flatMap_cons, rowsText]
      rw [text, (firstCell_row bar _).2] at parsed
      exact ⟨bar, rest, rfl, pyInt_toString parsed⟩

theorem bisect_aligned {fuel low high best : Nat}
    (probes : Probes (Aligned pending bars start) pending (csvFile bars) (rowStart bars 0) start fuel
      low high) (kept : Skips bars start best) :
    ∃ found, bisect pending (csvFile bars) (rowStart bars 0) start fuel low high best = .ok found ∧
      Skips bars start found := by
  induction fuel generalizing low high best with
  | zero => exact ⟨best, rfl, kept⟩
  | succ fuel ih =>
      by_cases narrow : high ≤ low
      · exact ⟨best, if_pos narrow, kept⟩
      · obtain ⟨⟨unsplit, aligned⟩, rest⟩ := probes (Nat.lt_of_not_le narrow)
        obtain ⟨candidate, text, found, same, -⟩ :=
          candidateAt_unsplit (rowStart bars 0) unsplit
        have probed := probeAt_candidate pending found same
        rw [bisect, if_neg narrow]
        dsimp only
        rw [probed] at rest aligned ⊢
        rw [ok_bind]
        cases probe : probeLine pending candidate (takeLine text)
            (candidate + (encodeUtf8 (takeLine text)).length) with
        | past =>
            rw [probe] at rest
            exact ih rest kept
        | text => exact ⟨_, rfl, 0, rfl, .inl rfl⟩
        | row time position next =>
            rw [probe] at rest aligned probed
            dsimp only at rest ⊢
            split_ifs at rest ⊢ with early
            · obtain ⟨count, rfl⟩ := aligned time position next rfl early
              obtain ⟨bar, others, remaining, rfl⟩ := time_of_probeAt probed
              exact ih rest ⟨count, rfl, .inr ⟨bar, others, remaining, early⟩⟩
            · exact ih rest kept

/-- Where no field has a line break, every probe that can be decoded finds the start of a row. -/
theorem aligned_of_unsplit
    (unbroken : ∀ bar ∈ bars, ∀ field ∈ persistedRecord bar, Unbroken field.toList) {mid : Nat}
    (behind : rowStart bars 0 ≤ mid) (unsplit : Unsplit (csvFile bars) mid) :
    Aligned pending bars start mid := by
  refine ⟨unsplit, fun time position next probed _ => ?_⟩
  obtain ⟨found, -, text, same, filled, -⟩ := row_of_probeAt probed
  obtain ⟨candidate, other, again, reread, before, behindMid, chosen⟩ :=
    candidateAt_unsplit (rowStart bars 0) unsplit
  obtain rfl := Except.ok.inj (found.symm.trans again)
  obtain rfl := encodeUtf8_injective (same.symm.trans reread)
  have inside : position ≤ (csvFile bars).length := by
    by_contra outside
    rw [List.drop_eq_nil_of_le (by omega)] at same
    have empty := encodeUtf8_injective (show encodeUtf8 [] = encodeUtf8 text from same)
    rw [← empty] at filled
    exact filled rfl
  by_cases later : rowStart bars 0 < mid
  · rw [if_pos later] at chosen
    have part : before <:+ rowsText bars := by
      have rows := csvFile_drop bars 0
      have split : encodeUtf8 (rowsText bars) =
          (encodeUtf8 (rowsText bars)).take (mid - rowStart bars 0) ++ encodeUtf8 before := by
        rw [List.drop_zero] at rows
        rw [← behindMid, ← rows, show mid = rowStart bars 0 + (mid - rowStart bars 0) by omega,
          ← List.drop_drop, Nat.add_sub_cancel_left, List.take_append_drop]
      exact suffix_of_encodeUtf8 split
    have lines : rowsText bars =
        (bars.map fun bar => Csv.encodeRecord (persistedRecord bar)).flatten := by
      rw [rowsText, List.flatMap_def]
    rw [lines] at part
    obtain ⟨count, -, dropped⟩ := drop_takeLine (fun line member => by
      obtain ⟨bar, inBars, rfl⟩ := List.mem_map.mp member
      exact encodeRecord_terminated (unbroken bar inBars)) part
    refine ⟨count, eq_rowStart inside (same.trans (congrArg encodeUtf8 (chosen.trans ?_)))⟩
    rw [dropped, ← List.map_drop, rowsText, List.flatMap_def]
  · have first : mid = rowStart bars 0 := by omega
    rw [candidateAt, if_neg later, Except.ok.injEq] at found
    exact ⟨0, found.symm.trans first⟩

end Search

section Range

variable [PyText] {F : Type} [PyFloat F] {bars parsed : List (MarketBar F)} {pending : Nat → Bool}
  {start stop : Option Int} {raw : RawManifest}

/-- `int(float(text))` keeps the order of the numbers, and what it has read it reads again. -/
structure IntRounding (F : Type) [PyFloat F] : Prop where
  mono : ∀ left right low high : Int, PyFloat.parseInt F (toString left) = .ok low →
    PyFloat.parseInt F (toString right) = .ok high → left ≤ right → low ≤ high
  stable : ∀ value read : Int, PyFloat.parseInt F (toString value) = .ok read →
    PyFloat.parseInt F (toString read) = .ok read

/-- The time of a row is read from its text as a float. -/
theorem time_of_rowToBar {bar back : MarketBar F} (read : rowToBar (writtenRow bar) = .ok back) :
    PyFloat.parseInt F (toString bar.time) = .ok back.time := by
  simp only [rowToBar, bind_eq_ok, pure_eq_ok] at read
  obtain ⟨_, -, text, found, time, parsed, _, -, _, -, _, -, _, -, _, -, _, -, _, -, _, -, _, -, _, -,
    _, -, _, -, _, -, _, -, _, -, _, -, rfl⟩ := read
  have column : (writtenRow bar).get "time" = some (some (toString bar.time)) :=
    get_writtenRow bar List.mem_cons_self
  rw [CsvRow.requiredNumber, column, Except.ok.injEq] at found
  subst found
  exact parsed

/-- Over ascending rows the loop keeps exactly the bars of the range. -/
theorem rangeRows_filter (start stop : Option Int) {rows : List CsvRow}
    (read : List.Forall₂ (fun row bar => rowToBar row = .ok bar) rows parsed)
    (sorted : parsed.Pairwise (·.time < ·.time)) :
    rangeRows start stop (.ok ()) rows = .ok (parsed.filter (inRange start stop)) := by
  induction read with
  | nil => rfl
  | cons made rest ih =>
      rename_i row bar rows others
      obtain ⟨after, sorted⟩ := List.pairwise_cons.mp sorted
      rw [rangeRows, made, ok_bind]
      by_cases early : start.any (bar.time < ·) = true
      · rw [if_pos early, ih sorted, List.filter_cons, if_neg]
        obtain ⟨first, same, before⟩ := (Option.any_eq_true _ _).mp early
        simp only [decide_eq_true_eq] at before
        simp [inRange, same, before]
      · rw [if_neg early]
        have begun : start.all (· ≤ bar.time) = true := by
          cases start with
          | none => rfl
          | some first => simpa using early
        by_cases ended : stop.any (· ≤ bar.time) = true
        · rw [if_pos ended]
          refine congrArg Except.ok (List.filter_eq_nil_iff.mpr fun other member => ?_).symm
          obtain ⟨last, same, before⟩ := (Option.any_eq_true _ _).mp ended
          simp only [decide_eq_true_eq] at before
          have later : last ≤ other.time := by
            rcases List.mem_cons.mp member with rfl | inside
            · exact before
            · exact before.trans (after other inside).le
          simp [inRange, same, later]
        · rw [if_neg ended, ih sorted, List.filter_cons, if_pos]
          · rfl
          · have open_ : stop.all (bar.time < ·) = true := by
              cases stop with
              | none => rfl
              | some last => simpa using ended
            simp [inRange, begun, open_]

omit [PyText] in
theorem csvStream_rowStart (fits : ∀ bar ∈ bars, bar.Fits) (count : Nat) :
    csvStream ((csvFile bars).drop (rowStart bars count)) =
      .ok ⟨(bars.drop count).map persistedRecord, none⟩ := by
  have records : rowsText (bars.drop count) =
      ((bars.drop count).map persistedRecord).flatMap Csv.encodeRecord := by
    rw [rowsText, List.flatMap_map]
  rw [csvStream, csvFile_drop, decodeUtf8_encodeUtf8, records]
  refine congrArg Except.ok (Csv.parse_encodeRecords _ fun record member => ?_)
  obtain ⟨bar, inside, rfl⟩ := List.mem_map.mp member
  exact fits bar (List.mem_of_mem_drop inside)

/-- The rows before one that is not behind the start are read before the start. -/
theorem read_before_start (rounding : IntRounding F) {count : Nat} {first : Int} {bar : MarketBar F}
    {rest : List (MarketBar F)} (ascending : parsed.Pairwise (·.time < ·.time))
    (reads : List.Forall₂ (fun bar back => rowToBar (writtenRow bar) = .ok back) bars parsed)
    (remaining : bars.drop count = bar :: rest) (early : bar.time ≤ first) :
    ∀ back ∈ parsed.take count, back.time < first := by
  have behind := List.forall₂_drop count reads
  rw [remaining] at behind
  obtain ⟨best, others, row, -, rows⟩ := List.forall₂_cons_left_iff.mp behind
  rw [← List.take_append_drop count parsed, rows, List.pairwise_append] at ascending
  intro back member
  have before := ascending.2.2 back member best List.mem_cons_self
  obtain ⟨source, -, own⟩ := Runs.exists_of_forall₂ (List.forall₂_take count reads).flip member
  by_contra late
  -- a time that is read behind the start is not rounded below the row at the start
  have rounded := rounding.mono bar.time back.time best.time back.time (time_of_rowToBar row)
    (rounding.stable source.time back.time (time_of_rowToBar own)) (by omega)
  omega

theorem fits_of_readCsv (read : readCsv F (csvFile bars) = .ok parsed) : ∀ bar ∈ bars, bar.Fits := by
  simp only [readCsv, bind_eq_ok] at read
  obtain ⟨stream, parsed, _, _, _, complete, _⟩ := read
  exact fits_of_csvStream_csvFile parsed complete

/-- A range that begins at a row, with all rows before it before the start, is the filtered file. -/
theorem iterCsvRange_of_rowStart (read : readCsv F (csvFile bars) = .ok parsed)
    (ascending : parsed.Pairwise (·.time < ·.time)) {manifest : Option RawManifest} {count : Nat}
    (position : rangePosition pending (csvFile bars) (rowStart bars 0) start manifest =
      .ok (rowStart bars count))
    (skipped : ∀ back ∈ parsed.take count, ∃ first, start = some first ∧ back.time < first) :
    iterCsvRange F pending (csvFile bars) start stop manifest =
      .ok (parsed.filter (inRange start stop)) := by
  have fits := fits_of_readCsv read
  have reads := (readCsv_csvFile fits).mp read
  have rows := dictRows_written (bars.drop count)
  have filtered := rangeRows_filter start stop
    (List.forall₂_map_left_iff.mpr (List.forall₂_drop count reads))
    (ascending.sublist (List.drop_sublist count parsed))
  have early : (parsed.take count).filter (inRange start stop) = [] := by
    refine List.filter_eq_nil_iff.mpr fun back member => ?_
    obtain ⟨first, rfl, before⟩ := skipped back member
    simp [inRange, before]
  rw [iterCsvRange, readLineAt_header, ok_bind]
  dsimp only
  rw [header_line.2, ok_bind, position, ok_bind, csvStream_rowStart fits, ok_bind]
  change rangeRows start stop (.ok ()) (dictRows ⟨persistedMarketBarFields :: (bars.drop count).map
    persistedRecord, none⟩) = _
  rw [rows, filtered]
  nth_rewrite 2 [← List.take_append_drop count parsed]
  rw [List.filter_append, early, List.nil_append]

theorem rangePosition_searched (pending : Nat → Bool) (raw : RawManifest) (first : Int)
    (bars : List (MarketBar F)) :
    rangePosition pending (csvFile bars) (rowStart bars 0) (some first) (some raw) =
      if searched raw (csvFile bars).length (rowStart bars 0) first then
        bisect pending (csvFile bars) (rowStart bars 0) first 24 (rowStart bars 0)
          ((csvFile bars).length - 1) (rowStart bars 0)
      else .ok (rowStart bars 0) := rfl

theorem iterCsvRange_of_aligned (rounding : IntRounding F)
    (read : readCsv F (csvFile bars) = .ok parsed) (ascending : parsed.Pairwise (·.time < ·.time))
    (aligned : Searches (Aligned pending bars) pending raw bars start) :
    iterCsvRange F pending (csvFile bars) start stop (some raw) =
      .ok (parsed.filter (inRange start stop)) := by
  have first : ∀ back ∈ parsed.take 0, ∃ first, start = some first ∧ back.time < first := by simp
  cases start with
  | none => exact iterCsvRange_of_rowStart read ascending rfl first
  | some begin_ =>
      have position := rangePosition_searched pending raw begin_ bars
      split at position
      · rename_i search
        obtain ⟨found, bisected, count, rfl, skipped⟩ := bisect_aligned
          (aligned begin_ rfl search) ⟨0, rfl, .inl rfl⟩
        refine iterCsvRange_of_rowStart read ascending (position.trans bisected) ?_
        rcases skipped with rfl | ⟨bar, rest, remaining, early⟩
        · exact first
        · have reads := (readCsv_csvFile (fits_of_readCsv read)).mp read
          intro back member
          exact ⟨begin_, rfl, read_before_start rounding ascending reads remaining early back member⟩
      · exact iterCsvRange_of_rowStart read ascending position first

/-- A range read that returns split no character on its way. -/
theorem unsplit_of_iterCsvRange {found : List (MarketBar F)}
    (returned : iterCsvRange F pending (csvFile bars) start stop (some raw) = .ok found) :
    Searches (fun _ => Unsplit (csvFile bars)) pending raw bars start := by
  rintro first rfl search
  rw [iterCsvRange, readLineAt_header, ok_bind] at returned
  dsimp only at returned
  rw [header_line.2, ok_bind, rangePosition_searched, if_pos search, bind_eq_ok] at returned
  obtain ⟨position, bisected, -⟩ := returned
  exact unsplit_of_bisect bisected

/-- Without line breaks in fields it is enough that no probe splits a character. -/
theorem Searches.aligned
    (unbroken : ∀ bar ∈ bars, ∀ field ∈ persistedRecord bar, Unbroken field.toList)
    (unsplit : Searches (fun _ => Unsplit (csvFile bars)) pending raw bars start) :
    Searches (Aligned pending bars) pending raw bars start := by
  intro first same search
  have size : rowStart bars 0 ≤ (csvFile bars).length - 1 := by
    unfold searched at search
    split at search
    · simp only [Bool.and_eq_true, decide_eq_true_eq] at search
      omega
    · cases search
  exact (unsplit first same search).imp (fun mid behind fine => aligned_of_unsplit unbroken behind fine)
    (Nat.le_refl _) size

end Range

section Streams

variable [PyText] {F : Type} [PyFloat F] [Sha256] [Parquet] {bars : List (MarketBar F)}
  {pending : Nat → Bool} {start stop : Int} {store : SegmentStore} {state : SeriesState}

omit [Sha256] [Parquet] in
/-- A streamed range has the times of the range only, whatever the rows are. -/
theorem rangeRows_inside {failure : Except PyError Unit} {rows : List CsvRow}
    (read : rangeRows (some start) (some stop) failure rows = .ok bars) :
    ∀ bar ∈ bars, start ≤ bar.time ∧ bar.time < stop := by
  induction rows generalizing bars with
  | nil =>
      obtain ⟨_, -, rfl⟩ := map_eq_ok.mp read
      exact List.forall_mem_nil _
  | cons row rest ih =>
      obtain ⟨bar, -, read⟩ := bind_eq_ok.mp read
      simp only [Option.any_some, decide_eq_true_eq] at read
      split_ifs at read with before after
      · exact ih read
      · obtain rfl := Except.ok.inj read
        exact List.forall_mem_nil _
      · obtain ⟨more, streamed, rfl⟩ := map_eq_ok.mp read
        exact List.forall_mem_cons.mpr ⟨⟨not_lt.mp before, not_le.mp after⟩, ih streamed⟩

/-- What a ranged read returns is in time order and in the range, and the streaming read yields it too. -/
theorem readRangeLocked_streams
    (read : ((readRangeLocked F pending store (some start) (some stop)).run state).1 = .ok bars) :
    ((iterAllLocked F pending store (some start) (some stop)).run state).1 = .ok bars ∧
      bars.Pairwise (·.time < ·.time) ∧ ∀ bar ∈ bars, start ≤ bar.time ∧ bar.time < stop := by
  have parquet := read
  rw [readRangeLocked, Prog.read_bind, Prog.run_step] at read
  rw [iterAllLocked, Prog.read_bind, Prog.run_step]
  dsimp only [id] at read ⊢
  split at read
  · rename_i unnamed
    split_ifs at read ⊢
    · cases read
    · obtain rfl := Except.ok.inj read
      exact ⟨rfl, List.Pairwise.nil, List.forall_mem_nil _⟩
  · rename_i manifest named
    obtain ⟨contract, read⟩ := Prog.run_check_bind_eq_ok.mp read
    rw [Prog.run_check_bind_eq_ok, and_assoc]
    refine ⟨contract, ?_⟩
    split at read
    · cases read
    rename_i alone
    rw [if_neg alone]
    generalize state.data (.bars (manifest.dataFormat.getD store.dataFormat)) = data at read ⊢
    cases data with
    | none =>
        obtain rfl := Except.ok.inj read
        exact ⟨rfl, List.Pairwise.nil, List.forall_mem_nil _⟩
    | some bytes =>
        cases format : manifest.dataFormat.getD store.dataFormat with
        | csv =>
            simp only [format] at read ⊢
            obtain ⟨_, after, trusted, read⟩ := Prog.run_bind_eq_ok.mp read
            rw [if_pos (.inl rfl)] at read
            obtain ⟨found, ranged, read⟩ := Prog.run_ofExcept_bind_eq_ok.mp read
            obtain ⟨valid, returned⟩ := Prog.run_check_bind_eq_ok.mp read
            obtain rfl := Except.ok.inj returned
            refine ⟨Prog.run_bind_eq_ok.mpr ⟨(), after, trusted, ?_⟩, validateMarketBars_sorted valid, ?_⟩
            · rw [ranged]
              rfl
            · obtain ⟨_, -, ranged⟩ := bind_eq_ok.mp ranged
              obtain ⟨_, -, ranged⟩ := bind_eq_ok.mp ranged
              obtain ⟨_, -, ranged⟩ := bind_eq_ok.mp ranged
              obtain ⟨_, -, ranged⟩ := bind_eq_ok.mp ranged
              exact rangeRows_inside ranged
        | parquet =>
            simp only [format] at read ⊢
            obtain ⟨whole, parsed, read⟩ := Prog.run_ofExcept_bind_eq_ok.mp read
            obtain ⟨valid, read⟩ := Prog.run_check_bind_eq_ok.mp read
            obtain ⟨actual, -, read⟩ := Prog.run_ofExcept_bind_eq_ok.mp read
            split_ifs at read
            · obtain rfl := Except.ok.inj read
              refine ⟨parquet, (validateMarketBars_sorted valid).filter _, ?_⟩
              intro bar member
              have inside := (List.mem_filter.mp member).2
              simpa [inRange] using inside
            · cases read

end Streams

section Reads

variable [PyText] {F : Type} [PyFloat F] [Sha256] [Parquet] {bars parsed : List (MarketBar F)}
  {pending : Nat → Bool} {start stop : Option Int} {raw : RawManifest} {store : SegmentStore}
  {state : SeriesState}

/-- The ranged reads of a series return the bars of the full read that lie in the range. -/
structure RangesAgree (pending : Nat → Bool) (store : SegmentStore) (state : SeriesState)
    (raw : RawManifest) (bars parsed : List (MarketBar F)) (start stop : Option Int) : Prop where
  range : iterCsvRange F pending (csvFile bars) start stop (some raw) =
    .ok (parsed.filter (inRange start stop))
  readAll : ((readRangeLocked F pending store start stop).run state).1 =
    .ok (parsed.filter (inRange start stop))
  iterAll : ((iterAllLocked F pending store start stop).run state).1 =
    .ok (parsed.filter (inRange start stop))
  get : ∀ openTime, start = some openTime → stop = some (openTime + 1) →
    ((getLocked F pending store openTime).run state).1 = .ok (parsed.find? (·.time = openTime))

omit [Parquet] in
/-- What a full read of a CSV series checks before it returns. -/
theorem readAllLocked_csv {bytes : List UInt8} [Parquet] (named : state.manifest = some raw)
    (data : state.data (.bars .csv) = some bytes)
    (read : ((readAllLocked F store).run state).1 = .ok parsed) :
    validateManifestContract raw = .ok () ∧ raw.dataFormat.getD store.dataFormat = .csv ∧
      state.data (.bars .parquet) = none ∧
      (∃ after, (validateOrTrustCsvGeneration F raw bytes).run state = (.ok (), after)) ∧
      readCsv F bytes = .ok parsed ∧ validateMarketBars parsed = .ok () := by
  rw [readAllLocked, Prog.read_bind, Prog.run_step] at read
  dsimp only [id] at read
  rw [named] at read
  dsimp only at read
  rw [Prog.run_check_bind_eq_ok] at read
  obtain ⟨contract, read⟩ := read
  split at read
  · cases read
  · rename_i alone
    cases format : raw.dataFormat.getD store.dataFormat with
    | parquet =>
        rw [format] at alone
        simp [otherFormat, data] at alone
    | csv =>
        rw [format] at alone read
        simp only [data] at read
        rw [Prog.run_bind_eq_ok] at read
        obtain ⟨_, after, trusted, read⟩ := read
        obtain ⟨found, parses, read⟩ := Prog.run_ofExcept_bind_eq_ok.mp read
        obtain ⟨valid, returned⟩ := Prog.run_check_bind_eq_ok.mp read
        obtain rfl := Except.ok.inj returned
        exact ⟨contract, rfl, by simpa [otherFormat] using alone, ⟨after, trusted⟩, parses, valid⟩

omit [PyText] [Sha256] [Parquet] in
theorem validateMarketBars_filter (keep : MarketBar F → Bool)
    (valid : validateMarketBars bars = .ok ()) : validateMarketBars (bars.filter keep) = .ok () := by
  rw [validateMarketBars, validateBars_ok_iff] at valid ⊢
  have part : (bars.filter keep).map MarketBar.toBar |>.Sublist (bars.map MarketBar.toBar) :=
    List.filter_sublist.map _
  exact ⟨valid.1.sublist part, fun bar member => valid.2 bar (part.subset member)⟩

omit [PyText] [PyFloat F] [Sha256] [Parquet] in
theorem find_inRange (openTime : Int) :
    (parsed.filter (inRange (some openTime) (some (openTime + 1)))).find? (·.time = openTime) =
      parsed.find? (·.time = openTime) := by
  have own (bar : MarketBar F) :
      inRange (some openTime) (some (openTime + 1)) bar = decide (bar.time = openTime) := by
    rw [Bool.eq_iff_iff]
    simp only [inRange, Option.all_some, Bool.and_eq_true, decide_eq_true_eq]
    omega
  rw [List.find?_filter]
  simp only [own, decide_eq_true_eq, and_self]

/-- The readers that check the series return what the range iterator returns. -/
theorem RangesAgree.of_range (named : state.manifest = some raw)
    (data : state.data (.bars .csv) = some (csvFile bars))
    (read : ((readAllLocked F store).run state).1 = .ok parsed)
    (range : iterCsvRange F pending (csvFile bars) start stop (some raw) =
      .ok (parsed.filter (inRange start stop))) :
    RangesAgree pending store state raw bars parsed start stop := by
  obtain ⟨contract, format, alone, ⟨after, trusted⟩, parses, valid⟩ := readAllLocked_csv named data read
  have filtered := validateMarketBars_filter (inRange start stop) valid
  have readAll : ((readRangeLocked F pending store start stop).run state).1 =
      .ok (parsed.filter (inRange start stop)) := by
    rw [readRangeLocked, Prog.read_bind, Prog.run_step]
    dsimp only [id]
    rw [named]
    dsimp only
    refine Prog.run_check_bind_eq_ok.mpr ⟨contract, ?_⟩
    simp only [format, otherFormat, alone, data, Option.isSome_none, Bool.false_eq_true, if_false]
    refine Prog.run_bind_eq_ok.mpr ⟨(), after, trusted, ?_⟩
    split
    · exact Prog.run_ofExcept_bind_eq_ok.mpr ⟨_, range, Prog.run_check_bind_eq_ok.mpr ⟨filtered, rfl⟩⟩
    · exact Prog.run_ofExcept_bind_eq_ok.mpr ⟨_, parses, Prog.run_check_bind_eq_ok.mpr ⟨valid, rfl⟩⟩
  refine ⟨range, readAll, ?_, ?_⟩
  · rw [iterAllLocked, Prog.read_bind, Prog.run_step]
    dsimp only [id]
    rw [named]
    dsimp only
    refine Prog.run_check_bind_eq_ok.mpr ⟨contract, ?_⟩
    simp only [format, otherFormat, alone, data, Option.isSome_none, Bool.false_eq_true, if_false]
    refine Prog.run_bind_eq_ok.mpr ⟨(), after, trusted, ?_⟩
    rw [range]
    rfl
  · rintro openTime rfl rfl
    refine Prog.run_bind_eq_ok.mpr ⟨_, _, Prod.ext readAll rfl, ?_⟩
    rw [find_inRange]
    rfl

/-- A ranged read agrees with the filtered full read when the bisection meets starts of rows only;
where no field has a line break this is when no probe splits a character. -/
theorem rangedRead_agrees (pending : Nat → Bool) (rounding : IntRounding F)
    (store : SegmentStore) (state : SeriesState) (raw : RawManifest) (bars parsed : List (MarketBar F))
    (start stop : Option Int) :
    (readCsv F (csvFile bars) = .ok parsed → parsed.Pairwise (·.time < ·.time) →
      (Searches (Aligned pending bars) pending raw bars start →
        iterCsvRange F pending (csvFile bars) start stop (some raw) =
          .ok (parsed.filter (inRange start stop))) ∧
      ((∀ bar ∈ bars, ∀ field ∈ persistedRecord bar, Unbroken field.toList) →
        (iterCsvRange F pending (csvFile bars) start stop (some raw) =
            .ok (parsed.filter (inRange start stop)) ↔
          Searches (fun _ => Unsplit (csvFile bars)) pending raw bars start))) ∧
    (StoredCsv state raw bars → ((readAllLocked F store).run state).1 = .ok parsed →
      (Searches (Aligned pending bars) pending raw bars start →
        RangesAgree pending store state raw bars parsed start stop) ∧
      ((∀ bar ∈ bars, ∀ field ∈ persistedRecord bar, Unbroken field.toList) →
        (RangesAgree pending store state raw bars parsed start stop ↔
          Searches (fun _ => Unsplit (csvFile bars)) pending raw bars start))) := by
  constructor
  · intro read ascending
    have agrees (aligned : Searches (Aligned pending bars) pending raw bars start) :
        iterCsvRange F pending (csvFile bars) start stop (some raw) = .ok (parsed.filter (inRange start stop)) :=
      iterCsvRange_of_aligned rounding read ascending aligned
    exact ⟨agrees, fun unbroken => ⟨unsplit_of_iterCsvRange, fun unsplit =>
      agrees (unsplit.aligned unbroken)⟩⟩
  · intro stored read
    obtain ⟨-, -, -, -, parses, valid⟩ := readAllLocked_csv stored.named stored.data read
    have agrees (aligned : Searches (Aligned pending bars) pending raw bars start) :
        RangesAgree pending store state raw bars parsed start stop :=
      .of_range stored.named stored.data read
        (iterCsvRange_of_aligned rounding parses (validateMarketBars_sorted valid) aligned)
    exact ⟨agrees, fun unbroken => ⟨fun agreed => unsplit_of_iterCsvRange agreed.range,
      fun unsplit => agrees (unsplit.aligned unbroken)⟩⟩

end Reads

section Example

open scoped Reference
open Reference

namespace Reference

/-- A candle with a revision of letters that take two bytes each. -/
def accented : MarketBar Whole :=
  { candle 0 with providerRevision := some (String.ofList (List.replicate 36 'é')) }

theorem accented_storable : ∀ bar ∈ [accented], bar.Storable := by
  simp only [List.mem_singleton, forall_eq]
  exact ⟨survives_of_rowToBar "1m" (eq_ok_of_toOption (by decide +kernel)),
    by unfold MarketBar.Fits; decide +kernel, eq_ok_of_toOption (by decide +kernel)⟩

end Reference

namespace Reference

def threeCandles : List (MarketBar Whole) := [candle 0, candle 60000, candle 120000]

/-- A series of these bars, under the manifest of this digest. -/
def storedRows (bars : List (MarketBar Whole)) (checksum : String) : SeriesState :=
  { (SeriesState.empty ((seriesDirectory series).toOption.getD [])).createData (.bars .csv) (csvFile bars) with
    manifest := some (generationManifest series .csv bars checksum).asdict }

theorem storedRows_read {bars : List (MarketBar Whole)} {checksum : String}
    (digested : rowsDigest .v4 bars = .ok checksum) (normal : bars.mapM normalizedBar = .ok bars)
    (storable : ∀ bar ∈ bars, bar.Storable) (valid : validateMarketBars bars = .ok ()) :
    StoredCsv (storedRows bars checksum) (generationManifest series .csv bars checksum).asdict bars ∧
      ((readAllLocked Whole ⟨.csv, true, false⟩).run (storedRows bars checksum)).1 = .ok bars := by
  have made := generationManifest_csvSeries series (validateMarketBars_sorted valid) digested
  have disk : OnDisk (storedRows bars checksum) (generationManifest series .csv bars checksum).asdict .csv
      (0, ⟨csvFile bars, 0⟩) := by
    refine ⟨⟨rfl, rfl⟩, rfl, fun other => ?_⟩
    cases other
    · rfl
    · rfl
  refine ⟨⟨made, ⟨rfl, rfl⟩, rfl, rfl⟩, disk.readAllLocked_iff.mpr ⟨if_pos rfl, rfl, ?_, valid, ?_⟩⟩
  · exact readCsv_of_storable normal storable
  · exact .inr ((validateCsvChecksum_csvFile_iff _ normal storable).mpr (made.agrees storable))

theorem parseInt_whole (value : Int) : PyFloat.parseInt Whole (toString value) = .ok value := by
  rw [PyFloat.parseInt, PyFloat.parse]
  simp only [show PyFloat.ofStr (toString value) = some (⟨value⟩ : Whole) from ofText_toString value]
  rfl

theorem wholeRoundings : IntRounding Whole where
  mono left right low high first second below := by
    cases (parseInt_whole left).symm.trans first
    cases (parseInt_whole right).symm.trans second
    exact below
  stable value read parsed := by
    cases (parseInt_whole value).symm.trans parsed
    exact parsed

theorem threeCandles_storable : ∀ bar ∈ threeCandles, bar.Storable := by
  have codec : ∀ bar ∈ threeCandles, rowToBar (writtenRow bar) = .ok (bar.persisted "1m") := by
    simp only [threeCandles, List.forall_mem_cons]
    exact ⟨eq_ok_of_toOption (by decide +kernel), eq_ok_of_toOption (by decide +kernel),
      eq_ok_of_toOption (by decide +kernel), List.forall_mem_nil _⟩
  have fits : ∀ bar ∈ threeCandles, bar.Fits := by
    unfold MarketBar.Fits
    decide +kernel
  intro bar member
  refine ⟨survives_of_rowToBar "1m" (codec bar member), fits bar member, ?_⟩
  simp only [threeCandles, List.mem_cons, List.not_mem_nil, or_false] at member
  rcases member with rfl | rfl | rfl <;> rfl

end Reference

theorem rangedRead_agrees_threeCandles : ∃ state raw, StoredCsv state raw threeCandles ∧
    RangesAgree (fun _ => false) ⟨.csv, true, false⟩ state raw threeCandles threeCandles (some 60000)
      (some 180000) ∧
    threeCandles.filter (inRange (some 60000) (some 180000)) = [candle 60000, candle 120000] := by
  obtain ⟨checksum, digested⟩ : ∃ checksum, rowsDigest .v4 threeCandles = .ok checksum :=
    eq_ok_of_toBool (by decide +kernel)
  obtain ⟨stored, read⟩ := storedRows_read digested (eq_ok_of_toOption (by decide +kernel))
    threeCandles_storable (eq_ok_of_toOption (by decide +kernel))
  refine ⟨_, _, stored, ?_, rfl⟩
  have plain : (Csv.encodeRecord persistedMarketBarFields ++ rowsText threeCandles).all
      (·.toNat < 128) = true := by decide +kernel
  have ascii : ∀ character ∈ Csv.encodeRecord persistedMarketBarFields ++ rowsText threeCandles,
      character.toNat < 128 := by simpa only [List.all_eq_true, decide_eq_true_eq] using plain
  have unbroken : ∀ bar ∈ threeCandles, ∀ field ∈ persistedRecord bar, Unbroken field.toList := by
    unfold Unbroken
    decide +kernel
  refine (((rangedRead_agrees (fun _ => false) wholeRoundings ⟨.csv, true, false⟩ _ _ threeCandles
    threeCandles (some 60000) (some 180000)).2 stored read).2 unbroken).mpr ?_
  intro first _ _
  refine Probes.all (fun mid => ?_) _ _ _
  rw [csvFile_eq]
  exact unsplit_ascii ascii mid

/-- The first probe falls into a letter: the range cannot be read, the whole file can. -/
theorem accented_range_fails : ∃ raw parsed, CsvSeries raw [accented] ∧
    readCsv Whole (csvFile [accented]) = .ok parsed ∧
      iterCsvRange Whole (fun _ => false) (csvFile [accented]) (some 1) none (some raw) ≠
        .ok (parsed.filter (inRange (some 1) none)) := by
  obtain ⟨checksum, digested⟩ : ∃ checksum, rowsDigest .v4 [accented] = .ok checksum :=
    eq_ok_of_toBool (by decide +kernel)
  have normal : [accented].mapM normalizedBar = .ok [accented] :=
    eq_ok_of_toOption (by decide +kernel)
  refine ⟨_, _, generationManifest_csvSeries series (by simp) digested,
    readCsv_of_storable normal accented_storable, fun returned => ?_⟩
  have size : (csvFile [accented]).length = 491 := by decide +kernel
  have header : rowStart [accented] 0 = 313 := by decide +kernel
  have duration : timeframeMs series.timeframe = .ok 60000 := eq_ok_of_toOption (by decide +kernel)
  have search : searched (generationManifest series .csv [accented] checksum).asdict
      (csvFile [accented]).length (rowStart [accented] 0) 1 = true := by
    rw [size, header]
    simp only [searched, generationManifest, SegmentManifest.asdict, duration]
    rfl
  have probed := (unsplit_of_iterCsvRange returned 1 rfl search (by rw [size, header]; decide)).1
  rw [size, header] at probed
  have letter : (csvFile [accented])[401]? = some 169 := by decide +kernel
  obtain ⟨bound, same⟩ := List.getElem?_eq_some_iff.mp letter
  have dropped := List.drop_eq_getElem_cons bound
  rw [same] at dropped
  exact not_unsplit dropped (by decide) probed

end Example

end MarketdataProvider
