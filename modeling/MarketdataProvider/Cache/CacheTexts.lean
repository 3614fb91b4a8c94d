import MarketdataProvider.Cache.Local
import MarketdataProvider.Foundation.Encoding
import MarketdataProvider.Foundation.JsonObjects
import MarketdataProvider.Store.TamperEvidence

namespace MarketdataProvider.LocalCache

open Foundation

/-- The texts of Python's floats: the shortest one that is read as the same number, which is also a number
of JSON. -/
class FloatTexts (F : Type) [PyText] [PyFloat F] : Prop where
  read : ∀ value : F, PyFloat.str value ≠ "nan" → PyFloat.ofStr (PyFloat.str value) = some value
  json : ∀ value : F, PyFloat.str value ∈ ["nan", "inf", "-inf"] ∨
    Json.isNumber (PyFloat.str value).toList = true
  short : ∀ value : F, (PyFloat.str value).toList.length ≤ 24

/-- The prices of the bar and its volume. -/
def floats {F : Type} (bar : Bar F) : List F := [bar.openPrice, bar.high, bar.low, bar.close, bar.volume]

/-- No float of the bar is a NaN, which would not be equal to itself. -/
def Comparable {F : Type} [PyFloat F] (bar : Bar F) : Prop :=
  ∀ value ∈ floats bar, PyFloat.str value ≠ "nan"

/-- The number has at most 4300 digits. -/
def Printable (value : Int) : Prop := (Nat.toDigits 10 value.natAbs).length ≤ 4300

theorem intText_eq_ok {value : Int} {text : String} :
    intText value = .ok text ↔ Printable value ∧ toString value = text := by
  unfold intText Printable
  split_ifs with long
  · constructor
    · intro refused
      cases refused
    · rintro ⟨short, -⟩
      omega
  · rw [Except.ok.injEq]
    exact ⟨fun same => ⟨by omega, same⟩, fun found => found.2⟩

section Numbers

variable [PyText] {F : Type} [PyFloat F] [FloatTexts F]

theorem read_str {left right : F} (comparable : PyFloat.str right ≠ "nan")
    (same : PyFloat.str left = PyFloat.str right) : left = right := by
  have first := FloatTexts.read left (same ▸ comparable)
  rw [same, FloatTexts.read right comparable] at first
  exact (Option.some.inj first).symm

/-- The text of the float behind a number of JSON. -/
def strOfToken (token : List Char) : String :=
  if token = "NaN".toList then "nan"
  else if token = "Infinity".toList then "inf"
  else if token = "-Infinity".toList then "-inf"
  else String.ofList token

theorem jsonFloat_token (value : F) : ∃ token, jsonFloat value = .number token ∧
    Json.isNumeral token = true ∧ strOfToken token = PyFloat.str value := by
  unfold jsonFloat
  split_ifs with nan inf negative
  · exact ⟨_, rfl, by decide, nan.symm⟩
  · exact ⟨_, rfl, by decide, inf.symm⟩
  · exact ⟨_, rfl, by decide, negative.symm⟩
  · have number := (FloatTexts.json value).resolve_left (by simp [nan, inf, negative])
    have others : Json.isNumber "NaN".toList = false ∧ Json.isNumber "Infinity".toList = false ∧
        Json.isNumber "-Infinity".toList = false := by decide
    refine ⟨_, rfl, by simp [Json.isNumeral, number], ?_⟩
    unfold strOfToken
    split_ifs with first second third
    · rw [first, others.1] at number
      cases number
    · rw [second, others.2.1] at number
      cases number
    · rw [third, others.2.2] at number
      cases number
    · exact String.ofList_toList

theorem jsonFloat_valid (value : F) : (jsonFloat value).Valid := by
  obtain ⟨token, same, numeral, -⟩ := jsonFloat_token value
  rw [same]
  exact numeral

theorem jsonFloat_injective {left right : F} (comparable : PyFloat.str right ≠ "nan")
    (same : jsonFloat left = jsonFloat right) : left = right := by
  obtain ⟨token, first, -, strLeft⟩ := jsonFloat_token left
  obtain ⟨other, second, -, strRight⟩ := jsonFloat_token right
  rw [first, second] at same
  obtain rfl := Json.Scalar.number.inj same
  exact read_str comparable (strLeft.symm.trans strRight)

end Numbers

section Integers

theorem head_toDigits {count : Nat} (positive : count ≠ 0) :
    (Nat.toDigits 10 count).head? ≠ some '0' := by
  induction count using Nat.strongRecOn with
  | _ count ih =>
      by_cases small : count < 10
      · rw [Nat.toDigits_of_lt_base small]
        have table : ∀ value < 10, value ≠ 0 → [Nat.digitChar value].head? ≠ some '0' := by decide
        exact table count small positive
      · rw [Nat.toDigits_of_base_le (by decide) (by omega),
          List.head?_append_of_ne_nil _ Nat.toDigits_ne_nil]
        exact ih (count / 10) (by omega) (by omega)

theorem unsigned_toString (value : Int) :
    Json.unsigned (toString value).toList = Nat.toDigits 10 value.natAbs := by
  have split := splitSign_toString value
  rw [toList_toString] at split ⊢
  by_cases negative : value < 0
  · rw [if_pos negative]
    rfl
  · rw [if_neg negative, List.nil_append] at split ⊢
    unfold Json.unsigned
    split
    · rename_i body same
      rw [same] at split
      exact absurd (of_decide_eq_true (Prod.mk.inj split).1.symm) negative
    · rfl

theorem isNumber_toString {value : Int} (short : Printable value) :
    Json.isNumber (toString value).toList = true := by
  have digits : ∀ digit ∈ Nat.toDigits 10 value.natAbs, digit.isDigit = true := fun _ => isDigit_toDigits
  have whole : (Nat.toDigits 10 value.natAbs).takeWhile Char.isDigit = Nat.toDigits 10 value.natAbs :=
    List.takeWhile_eq_self_iff.mpr digits
  have rest : (Nat.toDigits 10 value.natAbs).dropWhile Char.isDigit = [] :=
    List.dropWhile_eq_nil_iff.mpr digits
  have starts : Nat.toDigits 10 value.natAbs = ['0'] ∨
      (Nat.toDigits 10 value.natAbs).head? ≠ some '0' := by
    by_cases zero : value.natAbs = 0
    · exact .inl (by rw [zero, Nat.toDigits_zero])
    · exact .inr (head_toDigits zero)
  have filled : (Nat.toDigits 10 value.natAbs).isEmpty = false := by simp
  unfold Json.isNumber
  rw [unsigned_toString]
  dsimp only
  rw [whole, rest, filled]
  unfold Printable at short
  simp [Json.fraction, Json.exponent, Json.maxDigits, short, starts]

variable {value other : Int} {scalar : Json.Scalar}

theorem jsonInt_eq_ok : jsonInt value = .ok scalar ↔
    Printable value ∧ .number (toString value).toList = scalar := by
  simp only [jsonInt, bind_eq_ok, intText_eq_ok, pure_eq_ok]
  constructor
  · rintro ⟨text, ⟨short, rfl⟩, same⟩
    exact ⟨short, same⟩
  · rintro ⟨short, same⟩
    exact ⟨_, ⟨short, rfl⟩, same⟩

theorem jsonInt_valid (written : jsonInt value = .ok scalar) : scalar.Valid := by
  obtain ⟨short, rfl⟩ := jsonInt_eq_ok.mp written
  exact Bool.or_eq_true_iff.mpr (.inr (isNumber_toString short))

theorem jsonOptInt_valid {value : Option Int} (written : jsonOptInt value = .ok scalar) :
    scalar.Valid := by
  cases value with
  | none =>
      obtain rfl := Except.ok.inj written
      exact trivial
  | some number => exact jsonInt_valid written

variable [PyText]

theorem toString_injective (first : Printable value)
    (second : Printable other) (same : (toString value).toList = (toString other).toList) :
    value = other := by
  have read := pyInt_of_short first
  rw [same, pyInt_of_short second] at read
  exact (Option.some.inj read).symm

theorem jsonInt_injective (first : jsonInt value = .ok scalar)
    (second : jsonInt other = .ok scalar) : value = other := by
  obtain ⟨short, rfl⟩ := jsonInt_eq_ok.mp first
  obtain ⟨brief, same⟩ := jsonInt_eq_ok.mp second
  exact toString_injective short brief (Json.Scalar.number.inj same).symm

theorem jsonOptInt_injective {value other : Option Int}
    (first : jsonOptInt value = .ok scalar) (second : jsonOptInt other = .ok scalar) :
    value = other := by
  have number {found : Int} (null : jsonInt found = .ok .null) : False := by
    obtain ⟨-, same⟩ := jsonInt_eq_ok.mp null
    cases same
  cases value with
  | none =>
      obtain rfl := Except.ok.inj first
      cases other with
      | none => rfl
      | some found => exact (number second).elim
  | some number' =>
      cases other with
      | none =>
          obtain rfl := Except.ok.inj second
          exact (number first).elim
      | some found => exact congrArg some (jsonInt_injective first second)

end Integers

section Checksum

variable [PyText] {F : Type} [PyFloat F] [FloatTexts F] {left right : Bar F}
  {row other : List (List Char × Json.Scalar)}

theorem checksumRow_valid (written : checksumRow left = .ok row) : ∀ member ∈ row, member.2.Valid := by
  simp only [checksumRow, bind_eq_ok, pure_eq_ok] at written
  obtain ⟨time, wroteTime, timeClose, wroteClose, rfl⟩ := written
  simp only [List.forall_mem_cons]
  exact ⟨jsonFloat_valid _, jsonFloat_valid _, jsonFloat_valid _, jsonFloat_valid _,
    jsonInt_valid wroteTime, jsonOptInt_valid wroteClose, jsonFloat_valid _, List.forall_mem_nil _⟩

theorem checksumRow_injective (comparable : Comparable right) (first : checksumRow left = .ok row)
    (second : checksumRow right = .ok row) : left = right := by
  simp only [checksumRow, bind_eq_ok, pure_eq_ok] at first second
  obtain ⟨time, wroteTime, timeClose, wroteClose, rfl⟩ := first
  obtain ⟨otherTime, againTime, otherClose, againClose, same⟩ := second
  simp only [List.cons.injEq, Prod.mk.injEq, true_and, and_true] at same
  obtain ⟨close, high, low, openPrice, rfl, rfl, volume⟩ := same
  have float {value : F} (member : value ∈ floats right) : PyFloat.str value ≠ "nan" :=
    comparable value member
  cases left with
  | mk leftTime leftOpen leftHigh leftLow leftClose leftVolume leftTimeClose =>
      cases right with
      | mk rightTime rightOpen rightHigh rightLow rightClose rightVolume rightTimeClose =>
          have sameTime : leftTime = rightTime := jsonInt_injective wroteTime againTime
          have sameClose : leftTimeClose = rightTimeClose := jsonOptInt_injective wroteClose againClose
          have prices : leftOpen = rightOpen ∧ leftHigh = rightHigh ∧ leftLow = rightLow ∧
              leftClose = rightClose ∧ leftVolume = rightVolume :=
            ⟨jsonFloat_injective (float (by simp [floats])) openPrice.symm,
              jsonFloat_injective (float (by simp [floats])) high.symm,
              jsonFloat_injective (float (by simp [floats])) low.symm,
              jsonFloat_injective (float (by simp [floats])) close.symm,
              jsonFloat_injective (float (by simp [floats])) volume.symm⟩
          obtain ⟨rfl, rfl, rfl, rfl, rfl⟩ := prices
          rw [sameTime, sameClose]

omit [PyText] [PyFloat F] [FloatTexts F] in
theorem documents_injective (same : Json.documents row = Json.documents other) : row = other := by
  unfold Json.documents at same
  refine List.map_injective_iff.mpr ?_ same
  intro first second equal
  obtain ⟨keys, values⟩ := Prod.mk.inj equal
  exact Prod.ext keys (Json.Document.scalar.inj values)

/-- The rows of the checksum are told apart whatever stands behind them. -/
theorem checksumText_code :
    PrefixCode checksumText fun left right : Bar F => Comparable right → left = right := by
  intro left right first second after later wrote again equal
  simp only [checksumText, bind_eq_ok, pure_eq_ok] at wrote again
  obtain ⟨row, wroteRow, rfl⟩ := wrote
  obtain ⟨other, againRow, rfl⟩ := again
  rw [List.append_assoc, List.append_assoc] at equal
  have readLeft := Json.readValue_dumps (checksumRow_valid wroteRow)
    (Nat.lt_succ_self (Json.dumps .compact row ++ (['\n'] ++ after)).length)
  rw [equal, Json.readValue_dumps (checksumRow_valid againRow) (Nat.lt_succ_self _)] at readLeft
  obtain ⟨members, rest⟩ := Prod.mk.inj (Option.some.inj readLeft)
  obtain rfl := documents_injective (Json.Document.object.inj members)
  exact ⟨fun comparable => checksumRow_injective comparable wroteRow againRow,
    (List.cons.inj rest).2.symm⟩

theorem bars_of_checksumInput {found bars : List (Bar F)} {input : List UInt8}
    (comparable : ∀ bar ∈ bars, Comparable bar) (first : checksumInput found = .ok input)
    (second : checksumInput bars = .ok input) : found = bars := by
  simp only [checksumInput, bind_eq_ok, pure_eq_ok] at first second
  obtain ⟨texts, wrote, rfl⟩ := first
  obtain ⟨others, again, same⟩ := second
  have filled (bar : Bar F) (text : List Char) (written : checksumText bar = .ok text) : text ≠ [] := by
    simp only [checksumText, bind_eq_ok, pure_eq_ok] at written
    obtain ⟨row, -, rfl⟩ := written
    simp
  have rows := PrefixCode.flatten checksumText_code filled wrote again (encodeUtf8_injective same).symm
  have equal : List.Forall₂ Eq found bars := by
    clear wrote again
    induction rows with
    | nil => exact .nil
    | cons related _ ih =>
        obtain ⟨own, others⟩ := List.forall_mem_cons.mp comparable
        exact .cons (related own) (ih others)
  exact List.forall₂_eq_eq_eq ▸ equal

/-- A checksum names its bars among those whose input the hash tells apart. -/
theorem bars_of_checksum [Sha256] {found bars : List (Bar F)} {checksum : String}
    {fed : Set (List UInt8)} (injective : Set.InjOn Sha256.digest fed)
    (comparable : ∀ bar ∈ bars, Comparable bar) (first : barsChecksum found = .ok checksum)
    (second : barsChecksum bars = .ok checksum)
    (feeds : ∀ input, checksumInput found = .ok input → input ∈ fed)
    (refeeds : ∀ input, checksumInput bars = .ok input → input ∈ fed) : found = bars := by
  simp only [barsChecksum, bind_eq_ok, pure_eq_ok] at first second
  obtain ⟨input, entered, rfl⟩ := first
  obtain ⟨other, again, same⟩ := second
  obtain rfl := injective (feeds input entered) (refeeds other again) (hexOfBytes_injective same.symm)
  exact bars_of_checksumInput comparable entered again

end Checksum

section Records

variable [PyText] {F : Type} [PyFloat F] [FloatTexts F] {bar : Bar F} {record : List String}

theorem str_ne_empty (value : F) : PyFloat.str value ≠ "" := by
  intro empty
  have known := FloatTexts.json value
  rw [empty] at known
  rcases known with special | number
  · simp at special
  · cases number

omit [PyText] in
theorem short_toString {value : Int} (short : Printable value) :
    (toString value).toList.length ≤ fieldSizeLimit := by
  unfold Printable at short
  rw [toList_toString, List.length_append]
  split_ifs
  · rw [List.length_singleton]
    unfold fieldSizeLimit
    omega
  · rw [List.length_nil]
    unfold fieldSizeLimit
    omega

omit [PyText] in
theorem closeText_eq_ok {timeClose : Option Int} {text : String} : closeText timeClose = .ok text ↔
    (∀ close, timeClose = some close → Printable close) ∧ (timeClose.map toString).getD "" = text := by
  cases timeClose with
  | none => simp [closeText]
  | some close => simp [closeText, intText_eq_ok]

omit [PyText] [FloatTexts F] in
theorem cacheRecord_eq_ok : cacheRecord bar = .ok record ↔
    Printable bar.time ∧ (∀ close, bar.timeClose = some close → Printable close) ∧
      [toString bar.time, PyFloat.str bar.openPrice, PyFloat.str bar.high, PyFloat.str bar.low,
        PyFloat.str bar.close, PyFloat.str bar.volume, (bar.timeClose.map toString).getD ""] = record := by
  simp only [cacheRecord, bind_eq_ok, pure_eq_ok, intText_eq_ok, closeText_eq_ok]
  constructor
  · rintro ⟨time, ⟨short, rfl⟩, text, ⟨brief, rfl⟩, same⟩
    exact ⟨short, brief, same⟩
  · rintro ⟨short, brief, same⟩
    exact ⟨_, ⟨short, rfl⟩, _, ⟨brief, rfl⟩, same⟩

theorem cacheRecord_fits (written : cacheRecord bar = .ok record) :
    ∀ field ∈ record, field.toList.length ≤ fieldSizeLimit := by
  obtain ⟨time, timeClose, rfl⟩ := cacheRecord_eq_ok.mp written
  have float (value : F) : (PyFloat.str value).toList.length ≤ fieldSizeLimit := by
    have short := FloatTexts.short value
    unfold fieldSizeLimit
    omega
  have close : ((bar.timeClose.map toString).getD "").toList.length ≤ fieldSizeLimit := by
    cases found : bar.timeClose with
    | none => exact Nat.zero_le _
    | some close => exact short_toString (timeClose close found)
  simp only [List.forall_mem_cons]
  exact ⟨short_toString time, float _, float _, float _, float _, float _, close, List.forall_mem_nil _⟩

omit [PyFloat F] [FloatTexts F] in
theorem intColumn_printed {row : CsvRow} {name : String} {value : Int}
    (found : row.get name = some (some (toString value))) (short : Printable value) :
    row.intColumn name = .ok value := by
  unfold CsvRow.intColumn
  rw [found]
  dsimp only
  rw [pyInt_of_short short]

theorem floatColumn_printed {row : CsvRow} {name : String} {value : F}
    (found : row.get name = some (some (PyFloat.str value))) (comparable : PyFloat.str value ≠ "nan") :
    row.floatColumn name = .ok value := by
  unfold CsvRow.floatColumn PyFloat.parse
  rw [found]
  dsimp only
  rw [FloatTexts.read value comparable]

theorem volumeColumn_printed {row : CsvRow} {value : F}
    (found : row.get "volume" = some (some (PyFloat.str value)))
    (comparable : PyFloat.str value ≠ "nan") : volumeColumn row = .ok value := by
  unfold volumeColumn CsvRow.optText PyFloat.parse
  rw [found]
  dsimp only
  rw [if_neg (str_ne_empty value)]
  dsimp only
  rw [FloatTexts.read value comparable]

omit [PyFloat F] [FloatTexts F] in
theorem closeColumn_printed {row : CsvRow} {timeClose : Option Int}
    (found : row.get "time_close" = some (some ((timeClose.map toString).getD "")))
    (short : ∀ close, timeClose = some close → Printable close) : closeColumn row = .ok timeClose := by
  unfold closeColumn CsvRow.optText
  rw [found]
  cases timeClose with
  | none => rfl
  | some close =>
      have filled : toString close ≠ "" := by
        intro empty
        have digits := congrArg String.toList empty
        rw [toList_toString] at digits
        exact Nat.toDigits_ne_nil (List.append_eq_nil_iff.mp digits).2
      have read : row.intColumn "time_close" = .ok close := intColumn_printed found (short close rfl)
      simp only [Option.map_some, Option.getD_some]
      rw [if_neg filled, read]
      rfl

/-- A written row is read as its bar. -/
theorem cacheBar_written (comparable : Comparable bar) (written : cacheRecord bar = .ok record) :
    cacheBar (dictRow cacheFields record) = .ok bar := by
  obtain ⟨time, timeClose, rfl⟩ := cacheRecord_eq_ok.mp written
  have float {value : F} (member : value ∈ floats bar) : PyFloat.str value ≠ "nan" :=
    comparable value member
  unfold cacheBar
  rw [intColumn_printed rfl time, ok_bind, floatColumn_printed rfl (float (by simp [floats])),
    ok_bind, floatColumn_printed rfl (float (by simp [floats])), ok_bind,
    floatColumn_printed rfl (float (by simp [floats])), ok_bind,
    floatColumn_printed rfl (float (by simp [floats])), ok_bind,
    volumeColumn_printed rfl (float (by simp [floats])), ok_bind,
    closeColumn_printed rfl timeClose, ok_bind]
  rfl

/-- A written data file is read as its bars. -/
theorem storedBars_written {bars : List (Bar F)} {records : List (List String)}
    (comparable : ∀ bar ∈ bars, Comparable bar) (written : bars.mapM cacheRecord = .ok records) :
    storedBars F (encodeUtf8 ((cacheFields :: records).flatMap Csv.encodeRecord)) = .ok bars := by
  have header : ∀ field ∈ cacheFields, field.toList.length ≤ fieldSizeLimit := by
    simp [cacheFields, fieldSizeLimit]
  have fits : ∀ record ∈ cacheFields :: records, ∀ field ∈ record,
      field.toList.length ≤ fieldSizeLimit := by
    refine List.forall_mem_cons.mpr ⟨header, ?_⟩
    intro record member
    obtain ⟨bar, -, own⟩ := of_mem_mapM written record member
    exact cacheRecord_fits own
  have filled : records.filter (· ≠ []) = records := by
    rw [List.filter_eq_self]
    intro record member
    obtain ⟨bar, -, own⟩ := of_mem_mapM written record member
    obtain ⟨-, -, rfl⟩ := cacheRecord_eq_ok.mp own
    simp
  have rows : (dictRows ⟨cacheFields :: records, none⟩).mapM cacheBar = .ok bars := by
    simp only [dictRows, filled]
    rw [mapM_eq_ok] at written ⊢
    clear fits filled
    induction written with
    | nil => exact .nil
    | cons own _ ih =>
        obtain ⟨first, others⟩ := List.forall_mem_cons.mp comparable
        exact .cons (cacheBar_written first own) (ih others)
  unfold storedBars
  rw [csvStream_records fits, ok_bind]
  exact rows

end Records

end MarketdataProvider.LocalCache
