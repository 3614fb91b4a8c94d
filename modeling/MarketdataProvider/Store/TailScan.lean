import MarketdataProvider.Foundation.CsvLine
import MarketdataProvider.Store.RangedRead

namespace MarketdataProvider

open Foundation

/-- No character at which `str.splitlines` breaks. -/
def LineFree (text : List Char) : Prop := ∀ character ∈ text, character ∉ lineBreaks

instance LineFree.decidable (text : List Char) : Decidable (LineFree text) :=
  List.decidableBAll (· ∉ lineBreaks) text

/-- What Python's numbers and case mappings do about lines, and that no comma and no quote is a blank
or a digit. -/
class LineTexts (F : Type) [PyText] [PyFloat F] : Prop where
  str_lineFree : ∀ value : F, LineFree (PyFloat.str value).toList
  ofStr_plain : ∀ (text : String) (value : F), PyFloat.ofStr text = some value →
    ∀ character ∈ text.toList, ¬ (character = ',' ∨ character = '"')
  lower_lineFree : ∀ text : String, LineFree (PyText.lower text).toList ↔ LineFree text.toList
  upper_lineFree : ∀ text : String, LineFree (PyText.upper text).toList ↔ LineFree text.toList
  isSpace_mark : ∀ mark, mark = ',' ∨ mark = '"' → PyText.isSpace mark = false
  isDigit_mark : ∀ mark, mark = ',' ∨ mark = '"' → PyText.isDigit mark = false

section Bytes

theorem lineFeed_of_utf8EncodeChar {character : Char}
    (member : (10 : UInt8) ∈ String.utf8EncodeChar character) : character = '\n' := by
  have high (low mark : UInt8) (large : 10 < mark.toNat) : (10 : UInt8) ≠ low ||| mark := by
    intro same
    have value : (10 : UInt8).toNat = low.toNat ||| mark.toNat := by rw [same, UInt8.toNat_or]
    have bound : mark.toNat ≤ low.toNat ||| mark.toNat := Nat.right_le_or
    have ten : (10 : UInt8).toNat = 10 := rfl
    omega
  rcases character.utf8Size_eq with one | two | three | four
  · rw [String.utf8EncodeChar_eq_singleton one, List.mem_singleton] at member
    have small := Char.utf8Size_eq_one_iff.mp one
    have value := congrArg UInt8.toNat member
    rw [UInt32.le_iff_toNat_le] at small
    rw [UInt32.toNat_toUInt8] at value
    have ten : (10 : UInt8).toNat = 10 := rfl
    have limit : (127 : UInt32).toNat = 127 := rfl
    apply Char.toNat_inj.mp
    change character.val.toNat = 10
    omega
  · simp [String.utf8EncodeChar_eq_cons_cons two, high] at member
  · simp [String.utf8EncodeChar_eq_cons_cons_cons three, high] at member
  · simp [String.utf8EncodeChar_eq_cons_cons_cons_cons four, high] at member

theorem lineFeed_of_encodeUtf8 {text : List Char} (member : (10 : UInt8) ∈ encodeUtf8 text) :
    '\n' ∈ text := by
  obtain ⟨character, inside, encoded⟩ := List.mem_flatMap.mp member
  exact lineFeed_of_utf8EncodeChar encoded ▸ inside

theorem LineFree.lineFeed {text : List Char} (free : LineFree text) : (10 : UInt8) ∉ encodeUtf8 text :=
  fun member => free '\n' (lineFeed_of_encodeUtf8 member) (by decide)

/-- The scan goes one block to the front. -/
theorem tailSuffix_step {bytes : List UInt8} {fuel position : Nat} (later : position ≠ 0)
    (few : (bytes.drop position).count 10 < 2) :
    tailSuffix bytes (fuel + 1) position (bytes.drop position) =
      if 1048576 < bytes.length - (position - 4096) then
        .error (.mdInvalidExchangeResponse "Segment CSV tail row is too large" [])
      else tailSuffix bytes fuel (position - 4096) (bytes.drop (position - 4096)) := by
  have start : position - min 4096 position = position - 4096 := by omega
  have grown : (bytes.drop (position - 4096)).take (min 4096 position) ++ bytes.drop position =
      bytes.drop (position - 4096) := by
    have rest : bytes.drop position = (bytes.drop (position - 4096)).drop (min 4096 position) := by
      rw [List.drop_drop]
      congr 1
      omega
    rw [rest, List.take_append_drop]
  rw [tailSuffix, if_neg (by omega)]
  dsimp only
  rw [start, grown, List.length_drop]

/-- The scan ends at the front of the file or in front of two line feeds. -/
theorem tailSuffix_found {bytes found : List UInt8} {fuel position : Nat}
    (enough : position ≤ fuel)
    (scanned : tailSuffix bytes fuel position (bytes.drop position) = .ok found) :
    ∃ stop, found = bytes.drop stop ∧ (stop = 0 ∨ 2 ≤ (bytes.drop stop).count 10) := by
  induction fuel generalizing position with
  | zero =>
      obtain rfl := Except.ok.inj scanned
      exact ⟨position, rfl, .inl (Nat.le_zero.mp enough)⟩
  | succ fuel ih =>
      by_cases done : position = 0 ∨ 2 ≤ (bytes.drop position).count 10
      · rw [tailSuffix, if_pos done] at scanned
        obtain rfl := Except.ok.inj scanned
        exact ⟨position, rfl, done⟩
      · rw [not_or, Nat.not_le] at done
        rw [tailSuffix_step done.1 done.2] at scanned
        split_ifs at scanned
        exact ih (by omega) scanned

/-- Where the scan for a last row of the given size stops. -/
def tailStop (bytes : List UInt8) (size : Nat) : Nat := bytes.length - 4096 * (size / 4096 + 1)

/-- The scan reads as many blocks as the last row and the line feed before it take. -/
theorem tailSuffix_stop {front row : List UInt8} {bytes : List UInt8}
    (file : bytes = front ++ 10 :: (row ++ [13, 10])) (plain : (10 : UInt8) ∉ row)
    (short : (row ++ [13, 10]).length < 1048576) :
    tailSuffix bytes bytes.length bytes.length [] =
      .ok (bytes.drop (tailStop bytes (row ++ [13, 10]).length)) := by
  have size : bytes.length = front.length + 1 + (row ++ [13, 10]).length := by
    rw [file, List.length_append, List.length_cons]
    omega
  have one : (row ++ [13, 10]).count 10 = 1 := by
    rw [List.count_append, List.count_eq_zero.mpr plain]
    decide
  have behind (position : Nat) (before : position ≤ front.length) :
      2 ≤ (bytes.drop position).count 10 := by
    rw [file, List.drop_append_of_le_length before, List.count_append, List.count_cons_self, one]
    omega
  have within (position : Nat) (inside : front.length + 1 ≤ position) :
      (bytes.drop position).count 10 < 2 := by
    obtain ⟨skipped, rfl⟩ := Nat.exists_eq_add_of_le inside
    have rest : bytes.drop (front.length + 1 + skipped) = (row ++ [13, 10]).drop skipped := by
      rw [← List.drop_drop, file, ← List.drop_drop, List.drop_left]
      rfl
    rw [rest]
    exact Nat.lt_succ_of_le (one ▸ (List.drop_sublist _ _).count_le 10)
  have blocks : ∀ left count fuel, count + left = (row ++ [13, 10]).length / 4096 + 1 →
      bytes.length - 4096 * count ≤ fuel →
      tailSuffix bytes fuel (bytes.length - 4096 * count) (bytes.drop (bytes.length - 4096 * count)) =
        .ok (bytes.drop (tailStop bytes (row ++ [13, 10]).length)) := by
    intro left
    induction left with
    | zero =>
        intro count fuel total _
        have stop : bytes.length - 4096 * count = tailStop bytes (row ++ [13, 10]).length := by
          unfold tailStop
          omega
        have two := behind (tailStop bytes (row ++ [13, 10]).length) (by unfold tailStop; omega)
        rw [stop]
        cases fuel with
        | zero => rfl
        | succ fuel => rw [tailSuffix, if_pos (.inr two)]
    | succ left ih =>
        intro count fuel total enough
        have inside : front.length + 1 ≤ bytes.length - 4096 * count := by omega
        have few := within (bytes.length - 4096 * count) inside
        obtain ⟨fuel, rfl⟩ : ∃ less, fuel = less + 1 := ⟨fuel - 1, by omega⟩
        have next : bytes.length - 4096 * count - 4096 = bytes.length - 4096 * (count + 1) := by omega
        rw [tailSuffix_step (by omega) few, next, if_neg (by omega)]
        exact ih (count + 1) fuel (by omega) (by omega)
  have whole := blocks ((row ++ [13, 10]).length / 4096 + 1) 0 bytes.length (Nat.zero_add _) (Nat.sub_le _ _)
  rwa [Nat.mul_zero, Nat.sub_zero, List.drop_length] at whole

end Bytes

section Lines

/-- The last line is what stands between the break in front of it and its own. -/
theorem lastLine_behind {front body : List Char} {mark : Char} (breaks : mark ∈ lineBreaks)
    (free : LineFree body) (filled : body ≠ []) :
    lastLine (front ++ mark :: (body ++ ['\r', '\n'])) = body := by
  have order : (front ++ mark :: (body ++ ['\r', '\n'])).reverse =
      '\n' :: '\r' :: (body.reverse ++ mark :: front.reverse) := by simp
  have kept : (body.reverse ++ mark :: front.reverse).dropWhile (· ∈ lineBreaks) =
      body.reverse ++ mark :: front.reverse := by
    obtain ⟨before, last, rfl⟩ := (List.eq_nil_or_concat' body).resolve_left filled
    have plain := free last (by simp)
    rw [List.reverse_append, List.reverse_singleton, List.singleton_append, List.cons_append,
      List.dropWhile_cons, if_neg (by simpa using plain)]
  have taken : (body.reverse ++ mark :: front.reverse).takeWhile (· ∉ lineBreaks) = body.reverse := by
    rw [List.takeWhile_append_of_pos, List.takeWhile_cons, if_neg (by simpa using breaks), List.append_nil]
    intro character member
    simpa using free character (List.mem_reverse.mp member)
  rw [lastLine, order, List.dropWhile_cons, if_pos (by decide), List.dropWhile_cons, if_pos (by decide),
    kept, taken, List.reverse_reverse]

theorem lineFeeds_of_body {body : List Char} (free : LineFree body) :
    (encodeUtf8 (body ++ ['\r', '\n'])).count 10 = 1 := by
  rw [encodeUtf8_append, List.count_append, List.count_eq_zero.mpr free.lineFeed]
  decide

/-- Whatever the scan has read, its last line stands behind the last break in front of the file's end. -/
theorem lastLine_of_drop {front body suffix : List Char} {mark : Char} {stop : Nat}
    (breaks : mark ∈ lineBreaks) (free : LineFree body) (filled : body ≠ [])
    (enough : stop = 0 ∨
      2 ≤ ((encodeUtf8 (front ++ mark :: (body ++ ['\r', '\n']))).drop stop).count 10)
    (decoded : decodeText ((encodeUtf8 (front ++ mark :: (body ++ ['\r', '\n']))).drop stop) =
      .ok suffix) :
    lastLine suffix = body := by
  have bytes : encodeUtf8 suffix =
      (encodeUtf8 (front ++ mark :: (body ++ ['\r', '\n']))).drop stop := by
    unfold decodeText at decoded
    split at decoded
    · cases decoded
    · rename_i text found
      obtain rfl := Except.ok.inj decoded
      exact encodeUtf8_of_decodeUtf8 found
  rw [← bytes] at enough
  have part : suffix <:+ front ++ mark :: (body ++ ['\r', '\n']) := by
    have split : encodeUtf8 (front ++ mark :: (body ++ ['\r', '\n'])) =
        (encodeUtf8 (front ++ mark :: (body ++ ['\r', '\n']))).take stop ++ encodeUtf8 suffix := by
      rw [bytes, List.take_append_drop]
    exact suffix_of_encodeUtf8 split
  have longer : ¬ suffix <:+ body ++ ['\r', '\n'] := by
    rintro ⟨skipped, same⟩
    have one := lineFeeds_of_body free
    rw [← same, encodeUtf8_append, List.count_append] at one
    obtain rfl : stop = 0 := by omega
    rw [List.drop_zero] at bytes
    have lengths := congrArg List.length (encodeUtf8_injective bytes)
    have total := congrArg List.length same
    rw [List.length_append, List.length_cons] at lengths
    rw [List.length_append] at total
    omega
  obtain ⟨before, whole⟩ := part
  rw [List.append_cons] at whole
  rcases List.append_eq_append_iff.mp whole with ⟨middle, split, rest⟩ | ⟨middle, -, rest⟩
  · rcases List.eq_nil_or_concat' middle with rfl | ⟨inner, last, rfl⟩
    · exact absurd ⟨[], rest⟩ longer
    · rw [← List.append_assoc] at split
      obtain ⟨-, same⟩ := List.append_inj' split rfl
      obtain rfl := List.singleton_inj.mp same
      rw [rest, List.append_assoc, List.singleton_append]
      exact lastLine_behind breaks free filled
  · exact absurd ⟨middle, rest.symm⟩ longer

end Lines

theorem firstLine_line {line : List UInt8} (plain : (10 : UInt8) ∉ line) (rest : List UInt8) :
    firstLine (line ++ 10 :: rest) = line ++ [10] := by
  induction line with
  | nil => rfl
  | cons byte line ih =>
      rw [List.mem_cons, not_or] at plain
      rw [List.cons_append, firstLine, if_neg (Ne.symm plain.1), ih plain.2]
      rfl

section Reads

variable [PyText] {F : Type} [PyFloat F]

omit [PyText] in
theorem decodeText_encodeUtf8 (text : List Char) : decodeText (encodeUtf8 text) = .ok text := by
  rw [decodeText, decodeUtf8_encodeUtf8]

omit [PyText] in
/-- The header line ends at the first line feed of the file. -/
theorem firstLine_csvFile (bars : List (MarketBar F)) :
    firstLine (csvFile bars) = encodeUtf8 (Csv.encodeRecord persistedMarketBarFields) := by
  have header : encodeUtf8 (Csv.encodeRecord persistedMarketBarFields) =
      (encodeUtf8 (Csv.encodeRecord persistedMarketBarFields)).dropLast ++ [10] := by decide +kernel
  have plain : (10 : UInt8) ∉ (encodeUtf8 (Csv.encodeRecord persistedMarketBarFields)).dropLast := by
    decide +kernel
  rw [csvFile_eq, encodeUtf8_append, header, List.append_assoc, List.singleton_append,
    firstLine_line plain]

theorem readLastCsvBar_nil : readLastCsvBar F (csvFile ([] : List (MarketBar F))) = .ok none := by
  have alone : (csvFile ([] : List (MarketBar F))).length ≤
      (encodeUtf8 (Csv.encodeRecord persistedMarketBarFields)).length := by
    rw [csvFile_eq, rowsText, List.flatMap_nil, List.append_nil]
  unfold readLastCsvBar
  dsimp only
  rw [firstLine_csvFile, decodeText_encodeUtf8, ok_bind, header_line.2, ok_bind, if_pos alone]
  rfl

/-- The bars of a written file are read behind its header. -/
theorem readLastCsvBar_rows {bars : List (MarketBar F)} (filled : bars ≠ []) :
    readLastCsvBar F (csvFile bars) = (do
      let suffix ← tailSuffix (csvFile bars) (csvFile bars).length (csvFile bars).length []
      let line := lastLine (← decodeText suffix)
      if line = [] then return none
      some <$> rowToBar (dictRow persistedMarketBarFields (← csvLine line))) := by
  have longer : ¬ (csvFile bars).length ≤
      (encodeUtf8 (Csv.encodeRecord persistedMarketBarFields)).length := by
    obtain ⟨first, rest, rfl⟩ := List.exists_cons_of_ne_nil filled
    have row : 2 ≤ (encodeUtf8 (Csv.encodeRecord (persistedRecord first))).length := by
      rw [Csv.encodeRecord, encodeUtf8_append, List.length_append]
      exact Nat.le_add_left 2 _
    rw [csvFile_eq, rowsText, List.flatMap_cons, encodeUtf8_append, encodeUtf8_append,
      List.length_append, List.length_append]
    omega
  unfold readLastCsvBar
  dsimp only
  rw [firstLine_csvFile, decodeText_encodeUtf8, ok_bind, header_line.2, ok_bind, if_neg longer]

end Reads

end MarketdataProvider
