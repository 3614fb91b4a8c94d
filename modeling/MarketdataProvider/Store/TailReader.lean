import MarketdataProvider.Store.TailScan

namespace MarketdataProvider

open Foundation

section Texts

theorem LineFree.append {front back : List Char} (first : LineFree front) (second : LineFree back) :
    LineFree (front ++ back) := by
  intro character member
  rcases List.mem_append.mp member with inFront | inBack
  · exact first character inFront
  · exact second character inBack

/-- The last break of a text that has one. -/
theorem exists_last_break {text : List Char} (broken : ¬ LineFree text) :
    ∃ front mark rest, text = front ++ mark :: rest ∧ mark ∈ lineBreaks ∧ LineFree rest := by
  induction text with
  | nil => exact absurd (fun _ member => absurd member List.not_mem_nil) broken
  | cons first text ih =>
      by_cases free : LineFree text
      · have breaks : first ∈ lineBreaks := by
          by_contra plain
          apply broken
          intro character member
          rcases List.mem_cons.mp member with rfl | later
          · exact plain
          · exact free character later
        exact ⟨[], first, text, rfl, breaks, free⟩
      · obtain ⟨front, mark, rest, rfl, breaks, after⟩ := ih free
        exact ⟨first :: front, mark, rest, rfl, breaks, after⟩

theorem lineFree_encodeFields {fields : List String} (free : ∀ field ∈ fields, LineFree field.toList) :
    LineFree (Csv.encodeFields fields) := by
  intro character member
  rcases Csv.mem_encodeFields member with rfl | rfl | ⟨field, listed, inside⟩
  · decide
  · decide
  · exact free field listed character inside

theorem lineFree_toString (value : Int) : LineFree (toString value).toList := by
  have digits (count : Nat) : LineFree (Nat.toDigits 10 count) := by
    intro character member breaks
    have digit := Nat.isDigit_of_mem_toDigits (by decide) (by decide) member
    have none : lineBreaks.all (fun mark => !mark.isDigit) = true := by decide
    have refused := List.all_eq_true.mp none character breaks
    rw [digit] at refused
    cases refused
  cases value with
  | ofNat count =>
      rw [show (toString (Int.ofNat count)).toList = Nat.toDigits 10 count by
        simp [toString, Int.repr, Nat.repr]]
      exact digits count
  | negSucc count =>
      rw [show (toString (Int.negSucc count)).toList = ['-'] ++ Nat.toDigits 10 (count + 1) by
        simp [toString, Int.repr, Nat.repr]]
      exact LineFree.append (by decide) (digits _)

theorem lineFree_lastLine (text : List Char) : LineFree (lastLine text) := by
  intro character member
  have taken := List.mem_takeWhile_imp (List.mem_reverse.mp member)
  simpa using taken

end Texts

section Rows

variable [PyText] {F : Type} [PyFloat F]

omit [PyText] in
/-- The text of a field that is written into no line but its own. -/
def MarketBar.OneLine (bar : MarketBar F) : Prop :=
  ∀ field ∈ persistedRecord bar, LineFree field.toList

/-- Every text of a row stands in one line. -/
def CsvRow.OneLine (row : CsvRow) : Prop :=
  ∀ name text, (name, some text) ∈ row → LineFree text.toList

omit [PyText] in
theorem oneLine_dictRow {names values : List String} (free : ∀ value ∈ values, LineFree value.toList) :
    CsvRow.OneLine (dictRow names values) := by
  intro name text member
  induction names generalizing values with
  | nil => cases member
  | cons first names ih =>
      cases values with
      | nil =>
          rcases List.mem_cons.mp member with same | later
          · cases same
          · exact ih free later
      | cons value values =>
          rcases List.mem_cons.mp member with same | later
          · cases same
            exact free text List.mem_cons_self
          · exact ih (fun other listed => free other (List.mem_cons_of_mem _ listed)) later

omit [PyText] in
theorem mem_of_lookup {Value : Type} {row : List (String × Value)} {name : String} {value : Value}
    (found : row.lookup name = some value) : (name, value) ∈ row := by
  induction row with
  | nil => cases found
  | cons head rest ih =>
      rw [List.lookup_cons] at found
      split at found
      · rename_i same
        obtain rfl := Option.some.inj found
        rw [beq_iff_eq.mp same]
        exact List.mem_cons_self
      · exact List.mem_cons_of_mem _ (ih found)

namespace CsvRow.OneLine

variable {row : CsvRow}

omit [PyText] in
theorem optText (free : row.OneLine) (name : String) :
    ∀ text ∈ row.optText name, LineFree text.toList := by
  intro text found
  unfold CsvRow.optText at found
  split at found
  · rename_i value present
    split_ifs at found
    · cases found
    · obtain rfl := Option.some.inj found
      exact free name value (List.mem_reverse.mp (mem_of_lookup present))
  · cases found

omit [PyText] in
theorem text (free : row.OneLine) (name : String) {default : String}
    (plain : LineFree default.toList) : LineFree (row.text name default).toList := by
  unfold CsvRow.text
  cases found : row.optText name with
  | none => exact plain
  | some text => exact free.optText name text found

end CsvRow.OneLine

/-- The texts of a bar as they come out of a row. -/
structure ReadTexts (row : CsvRow) (bar : MarketBar F) : Prop where
  exchange : bar.exchange = PyText.lower (row.text "exchange" "")
  market : bar.market = PyText.lower (row.text "market" "")
  symbol : bar.symbol = PyText.upper (row.text "symbol" "")
  sourceTransport : bar.sourceTransport = row.text "source_transport" "ws"
  sourceKind : bar.sourceKind = row.text "source_kind" "trade_kline"
  provider : bar.provider = row.text "provider" ""
  providerRevision : bar.providerRevision = some (row.text "provider_revision" "")
  openText : bar.openText = row.optText "open_text"
  highText : bar.highText = row.optText "high_text"
  lowText : bar.lowText = row.optText "low_text"
  closeText : bar.closeText = row.optText "close_text"
  volumeText : bar.volumeText = row.optText "volume_text"

omit [PyText] [PyFloat F] in
theorem rowProvenance_ok {row : CsvRow} {provenance : RowProvenance}
    (checked : rowProvenance row = .ok provenance) :
    row.optText "revision" ≠ none ∧ provenance.provider = row.text "provider" "" ∧
      provenance.providerRevision = row.text "provider_revision" "" := by
  unfold rowProvenance at checked
  split_ifs at checked with closes provider revised state revision
  split at checked
  · cases checked
  · obtain rfl := Except.ok.inj checked
    exact ⟨revision, rfl, rfl⟩

/-- What a row that is read as a bar has told of it. -/
theorem readTexts_of_rowToBar {row : CsvRow} {bar : MarketBar F} (read : rowToBar row = .ok bar) :
    ReadTexts row bar ∧ row.optText "revision" ≠ none ∧ (∃ timeframe,
      canonicalTimeframe (row.text "timeframe" "1m") = .ok timeframe) ∧
      ∃ text time, row.requiredNumber "time" = .ok text ∧ PyFloat.parseInt F text = .ok time := by
  simp only [rowToBar, bind_eq_ok, pure_eq_ok] at read
  obtain ⟨provenance, checked, text, required, time, parsed, _, _, _, _, _, _, _, _, _, _, _, _,
    timeframe, accepted, _, _, _, _, _, _, _, _, _, _, _, _, _, _, _, _, _, _, rfl⟩ := read
  obtain ⟨revision, provider, providerRevision⟩ := rowProvenance_ok checked
  exact ⟨⟨rfl, rfl, rfl, rfl, rfl, provider, congrArg some providerRevision, rfl, rfl, rfl, rfl, rfl⟩,
    revision, ⟨timeframe, accepted⟩, text, time, required, parsed⟩

/-- A bar that comes out of a row of one line and out of its own row has its texts in one line,
but for the timeframe, which loses the blanks around it. -/
theorem lineFree_of_readTexts [LineTexts F] {row : CsvRow} {last back : MarketBar F}
    (free : row.OneLine) (found : ReadTexts row back) (written : ReadTexts (writtenRow last) back) :
    (∀ field ∈ (persistedRecord last).take 10, LineFree field.toList) ∧
      ∀ field ∈ (persistedRecord last).drop 11, LineFree field.toList := by
  have columns := writtenColumns last
  have empty : LineFree "".toList := fun _ member => absurd member List.not_mem_nil
  have lowered {text : String} {name : String} (same : PyText.lower (row.text name "") = PyText.lower text) :
      LineFree text.toList := by
    rw [← LineTexts.lower_lineFree F, ← same, LineTexts.lower_lineFree F]
    exact free.text name empty
  have exchange : LineFree last.exchange.toList :=
    lowered (found.exchange.symm.trans (written.exchange.trans (by rw [columns.exchange])))
  have market : LineFree last.market.toList :=
    lowered (found.market.symm.trans (written.market.trans (by rw [columns.market])))
  have symbol : LineFree last.symbol.toList := by
    have same := found.symbol.symm.trans written.symbol
    rw [columns.symbol] at same
    rw [← LineTexts.upper_lineFree F, ← same, LineTexts.upper_lineFree F]
    exact free.text "symbol" empty
  have filled {text default : String} {name : String} (plain : LineFree default.toList)
      (same : row.text name default = (writtenRow last).text name default)
      (column : (writtenRow last).text name default = text ↔ text ≠ "") : LineFree text.toList := by
    by_cases none : text = ""
    · rw [none]
      exact empty
    · rw [← column.mpr none, ← same]
      exact free.text name plain
  have transport : LineFree last.sourceTransport.toList :=
    filled (by decide) (found.sourceTransport.symm.trans written.sourceTransport)
      columns.sourceTransport
  have kind : LineFree last.sourceKind.toList :=
    filled (by decide) (found.sourceKind.symm.trans written.sourceKind) columns.sourceKind
  have provider : LineFree last.provider.toList := by
    have own : (writtenRow last).text "provider" "" = last.provider :=
      CsvRow.text_empty (get_writtenRow last (by simp [persistedRow]))
    rw [← own, ← written.provider, found.provider]
    exact free.text "provider" empty
  have revised : LineFree (cell id last.providerRevision).toList := by
    have own : (writtenRow last).text "provider_revision" "" = cell id last.providerRevision :=
      CsvRow.text_empty (get_writtenRow last (by simp [persistedRow]))
    rw [← own, ← Option.some.inj (found.providerRevision.symm.trans written.providerRevision)]
    exact free.text "provider_revision" empty
  have optional {value : Option String} {name : String}
      (same : row.optText name = (writtenRow last).optText name)
      (column : (writtenRow last).optText name = value ↔ value ≠ some "") :
      LineFree (cell id value).toList := by
    cases value with
    | none => exact empty
    | some text =>
        by_cases none : text = ""
        · rw [none]
          exact empty
        · have read := column.mpr (by simpa using none)
          exact free.optText name text (same.trans read)
  have openText := optional (found.openText.symm.trans written.openText) columns.openText
  have highText := optional (found.highText.symm.trans written.highText) columns.highText
  have lowText := optional (found.lowText.symm.trans written.lowText) columns.lowText
  have closeText := optional (found.closeText.symm.trans written.closeText) columns.closeText
  have volumeText := optional (found.volumeText.symm.trans written.volumeText) columns.volumeText
  have float (value : F) : LineFree (PyFloat.str value).toList := LineTexts.str_lineFree value
  have optFloat (value : Option F) : LineFree (cell PyFloat.str value).toList := by
    cases value with
    | none => exact empty
    | some number => exact float number
  have optInt (value : Option Int) : LineFree (cell toString value).toList := by
    cases value with
    | none => exact empty
    | some number => exact lineFree_toString number
  have closed : LineFree (boolText last.isClosed).toList := by
    cases last.isClosed <;> decide
  have state : LineFree last.revisionState.value.toList := by
    cases last.revisionState <;> decide
  unfold persistedRecord persistedRow
  simp only [List.map_cons, List.map_nil, List.take_succ_cons, List.take_zero, List.drop_succ_cons,
    List.drop_zero, List.forall_mem_cons]
  have nothing : ∀ field ∈ ([] : List String), LineFree field.toList :=
    fun _ member => absurd member List.not_mem_nil
  exact ⟨⟨lineFree_toString _, float _, float _, float _, float _, float _, optInt _, exchange, market,
      symbol, nothing⟩,
    optFloat _, optFloat _, optInt _, optFloat _, optFloat _, transport, kind, closed, provider, revised,
    state, lineFree_toString _, openText, highText, lowText, closeText, volumeText, optInt _, nothing⟩

omit [PyText] in
theorem oneLine_of_parts {bar : MarketBar F}
    (front : ∀ field ∈ (persistedRecord bar).take 10, LineFree field.toList)
    (timeframe : LineFree bar.timeframe.toList)
    (back : ∀ field ∈ (persistedRecord bar).drop 11, LineFree field.toList) : bar.OneLine := by
  have parts : persistedRecord bar =
      (persistedRecord bar).take 10 ++ bar.timeframe :: (persistedRecord bar).drop 11 := rfl
  intro field member
  rw [parts, List.mem_append, List.mem_cons] at member
  rcases member with before | rfl | after
  · exact front field before
  · exact timeframe
  · exact back field after

end Rows

section Timeframes

variable [PyText]

theorem mem_strip {text : List Char} {character : Char} (member : character ∈ text)
    (plain : PyText.isSpace character = false) : character ∈ strip text := by
  have kept {text : List Char} (member : character ∈ text) :
      character ∈ text.dropWhile PyText.isSpace := by
    rw [← List.takeWhile_append_dropWhile (p := PyText.isSpace) (l := text), List.mem_append] at member
    rcases member with blank | rest
    · rw [List.mem_takeWhile_imp blank] at plain
      cases plain
    · exact rest
  exact List.mem_reverse.mpr (kept (List.mem_reverse.mpr (kept member)))

theorem decimal_of_intOfDigits {digits : List Char} {value : Nat}
    (read : intOfDigits digits = some value) : ∀ digit ∈ digits, (PyText.decimal digit).isSome := by
  have all : ∀ (digits : List Char) (start value : Nat),
      digits.foldlM (fun value digit => (PyText.decimal digit).map (10 * value + ·)) start = some value →
        ∀ digit ∈ digits, (PyText.decimal digit).isSome := by
    intro digits
    induction digits with
    | nil => exact fun _ _ _ _ member => absurd member List.not_mem_nil
    | cons first rest ih =>
        intro start value read digit member
        rw [List.foldlM_cons] at read
        cases decimal : PyText.decimal first with
        | none =>
            rw [decimal] at read
            cases read
        | some number =>
            rw [decimal] at read
            rcases List.mem_cons.mp member with rfl | later
            · rw [decimal]
              rfl
            · exact ih _ value read digit later
  exact all digits 0 value read

/-- A timeframe that is accepted holds no comma and no quote, not even around it. -/
theorem unmarked_of_canonicalTimeframe {tf canonical : String} {mark : Char}
    (isMark : mark = ',' ∨ mark = '"') (notSpace : PyText.isSpace mark = false)
    (notDigit : PyText.isDigit mark = false) (accepted : canonicalTimeframe tf = .ok canonical) :
    mark ∉ tf.toList := by
  intro member
  have inside := mem_strip member notSpace
  unfold canonicalTimeframe at accepted
  dsimp only at accepted
  split_ifs at accepted with day week month digits
  · rcases day with same | same | same <;> rw [same] at inside <;>
      rcases isMark with rfl | rfl <;> exact absurd inside (by decide)
  · rcases week with same | same | same <;> rw [same] at inside <;>
      rcases isMark with rfl | rfl <;> exact absurd inside (by decide)
  · rcases month with same | same <;> rw [same] at inside <;>
      rcases isMark with rfl | rfl <;> exact absurd inside (by decide)
  · have digit := List.all_eq_true.mp digits.2 mark inside
    rw [notDigit] at digit
    cases digit
  · unfold fixedTimeframe at accepted
    cases ends : (strip tf.toList).getLast?.bind timeframeUnit with
    | none =>
        rw [ends] at accepted
        cases accepted
    | some unit =>
        obtain ⟨last, final, found⟩ := Option.bind_eq_some_iff.mp ends
        obtain ⟨front, whole⟩ := List.getLast?_eq_some_iff.mp final
        rw [ends] at accepted
        dsimp only at accepted
        rw [whole, List.dropLast_concat] at accepted
        rw [whole] at inside
        rcases List.mem_append.mp inside with inFront | isLast
        · cases read : intOfDigits front with
          | none =>
              rw [read] at accepted
              split_ifs at accepted
              cases accepted
          | some count =>
              obtain ⟨number, decimal⟩ := Option.isSome_iff_exists.mp (decimal_of_intOfDigits read mark inFront)
              rw [PyText.isDigit_decimal mark number decimal] at notDigit
              cases notDigit
        · obtain rfl := List.mem_singleton.mp isLast
          rcases isMark with rfl | rfl <;> cases found

end Timeframes

section Tails

variable [PyText] {F : Type} [PyFloat F]

omit [PyText] in
/-- The text of a row without its line break. -/
def rowLine (bar : MarketBar F) : List Char := Csv.encodeFields (persistedRecord bar)

/-- The bytes of a row, its line break included. -/
def rowSize (bar : MarketBar F) : Nat := (encodeUtf8 (Csv.encodeRecord (persistedRecord bar))).length

omit [PyText] in
theorem encodeRecord_rowLine (bar : MarketBar F) :
    Csv.encodeRecord (persistedRecord bar) = rowLine bar ++ ['\r', '\n'] := by
  rw [Csv.encodeRecord, if_neg (by simp [persistedRecord, persistedRow])]
  rfl

omit [PyText] in
theorem rowLine_ne_nil (bar : MarketBar F) : rowLine bar ≠ [] := by
  obtain ⟨rest, starts⟩ := encodeRecord_time bar
  rw [encodeRecord_rowLine] at starts
  intro empty
  rw [empty, List.nil_append] at starts
  have comma : ',' ∈ ['\r', '\n'] := by
    rw [starts]
    simp
  exact absurd comma (by decide)

omit [PyText] in
/-- The last row stands behind the line feed of the row, or of the header, before it. -/
theorem csvFile_concat (front : List (MarketBar F)) (last : MarketBar F) : ∃ before,
    csvFile (front ++ [last]) = encodeUtf8 (before ++ '\n' :: (rowLine last ++ ['\r', '\n'])) := by
  have ended : ∃ before, Csv.encodeRecord persistedMarketBarFields ++ rowsText front =
      before ++ ['\n'] := by
    rcases List.eq_nil_or_concat' front with rfl | ⟨earlier, bar, rfl⟩
    · exact ⟨Csv.encodeFields persistedMarketBarFields ++ ['\r'], by
        rw [rowsText, List.flatMap_nil, List.append_nil, Csv.encodeRecord, if_neg (by decide)]
        simp⟩
    · refine ⟨Csv.encodeRecord persistedMarketBarFields ++ (rowsText earlier ++ (rowLine bar ++ ['\r'])), ?_⟩
      rw [rowsText, List.flatMap_append, List.flatMap_singleton, encodeRecord_rowLine, ← rowsText]
      simp
  obtain ⟨before, whole⟩ := ended
  refine ⟨before, ?_⟩
  rw [csvFile_eq, rowsText, List.flatMap_append, List.flatMap_singleton, ← rowsText, ← List.append_assoc,
    whole, encodeRecord_rowLine, List.append_assoc, List.singleton_append]

omit [PyText] in
theorem MarketBar.OneLine.rowLine {bar : MarketBar F} (oneLine : bar.OneLine) :
    LineFree (rowLine bar) := lineFree_encodeFields oneLine

omit [PyText] in
theorem MarketBar.OneLine.unbroken {bar : MarketBar F} (oneLine : bar.OneLine) :
    ∀ field ∈ persistedRecord bar, '\n' ∉ field.toList ∧ '\r' ∉ field.toList :=
  fun field member => ⟨fun feed => oneLine field member '\n' feed (by decide),
    fun carriage => oneLine field member '\r' carriage (by decide)⟩

/-- What the scan finds of a row, the reader makes a bar of. -/
theorem readLastCsvBar_eq_some {bars : List (MarketBar F)} {back : MarketBar F} (filled : bars ≠ [])
    (read : readLastCsvBar F (csvFile bars) = .ok (some back)) :
    ∃ stop suffix fields, (stop = 0 ∨ 2 ≤ ((csvFile bars).drop stop).count 10) ∧
      decodeText ((csvFile bars).drop stop) = .ok suffix ∧ csvLine (lastLine suffix) = .ok fields ∧
      rowToBar (dictRow persistedMarketBarFields fields) = .ok back := by
  rw [readLastCsvBar_rows filled] at read
  simp only [bind_eq_ok] at read
  obtain ⟨found, scanned, suffix, decoded, read⟩ := read
  split_ifs at read
  · cases read
  · obtain ⟨fields, parsed, rest⟩ := bind_eq_ok.mp read
    obtain ⟨bar, made, same⟩ := map_eq_ok.mp rest
    obtain rfl := Option.some.inj same
    rw [← List.drop_length (l := csvFile bars)] at scanned
    obtain ⟨stop, rfl, enough⟩ := tailSuffix_found (Nat.le_refl _) scanned
    exact ⟨stop, suffix, fields, enough, decoded, parsed, made⟩

omit [PyText] in
/-- The scan for a last row of one line ends where the formula says. -/
theorem tailSuffix_csvFile {front : List (MarketBar F)} {last : MarketBar F} (oneLine : last.OneLine)
    (short : rowSize last < 1048576) :
    tailSuffix (csvFile (front ++ [last])) (csvFile (front ++ [last])).length
      (csvFile (front ++ [last])).length [] =
        .ok ((csvFile (front ++ [last])).drop (tailStop (csvFile (front ++ [last])) (rowSize last))) := by
  obtain ⟨before, file⟩ := csvFile_concat front last
  have bytes : csvFile (front ++ [last]) =
      encodeUtf8 before ++ 10 :: (encodeUtf8 (rowLine last) ++ [13, 10]) := by
    rw [file, encodeUtf8_append, show '\n' :: (rowLine last ++ ['\r', '\n']) =
      ['\n'] ++ (rowLine last ++ ['\r', '\n']) from rfl, encodeUtf8_append, encodeUtf8_append]
    rfl
  have size : rowSize last = (encodeUtf8 (rowLine last) ++ [13, 10]).length := by
    rw [rowSize, encodeRecord_rowLine, encodeUtf8_append]
    rfl
  rw [size]
  exact tailSuffix_stop bytes oneLine.rowLine.lineFeed (size ▸ short)

/-- Whatever is read of it, the scan stopped in front of a character. -/
theorem unsplit_of_readLastCsvBar {front : List (MarketBar F)} {last : MarketBar F}
    {found : Option (MarketBar F)} (oneLine : last.OneLine) (short : rowSize last < 1048576)
    (read : readLastCsvBar F (csvFile (front ++ [last])) = .ok found) :
    Unsplit (csvFile (front ++ [last])) (tailStop (csvFile (front ++ [last])) (rowSize last)) := by
  rw [readLastCsvBar_rows (by simp), tailSuffix_csvFile oneLine short, ok_bind] at read
  obtain ⟨suffix, decoded, -⟩ := bind_eq_ok.mp read
  exact unsplit_iff.mpr ⟨suffix, decoded⟩

/-- A last row of one line is found exactly when the scan stops in front of a character. -/
theorem readLastCsvBar_oneLine {front : List (MarketBar F)} {last back : MarketBar F}
    (oneLine : last.OneLine) (fits : last.Fits) (short : rowSize last < 1048576)
    (made : rowToBar (writtenRow last) = .ok back) :
    readLastCsvBar F (csvFile (front ++ [last])) = .ok (some back) ↔
      Unsplit (csvFile (front ++ [last])) (tailStop (csvFile (front ++ [last])) (rowSize last)) := by
  have scanned := @tailSuffix_csvFile F _ front last oneLine short
  refine ⟨unsplit_of_readLastCsvBar oneLine short, fun unsplit => ?_⟩
  obtain ⟨suffix, decoded⟩ := unsplit_iff.mp unsplit
  have parsed : csvLine (rowLine last) = .ok (persistedRecord last) := by
    have several : persistedRecord last ≠ [""] := by simp [persistedRecord, persistedRow]
    rw [csvLine, rowLine, Csv.readLine_encodeFields several fits oneLine.unbroken]
  have whole : tailSuffix (csvFile (front ++ [last])) (csvFile (front ++ [last])).length
      (csvFile (front ++ [last])).length
      ((csvFile (front ++ [last])).drop (csvFile (front ++ [last])).length) = _ :=
    (congrArg _ List.drop_length).trans scanned
  obtain ⟨stop, same, enough⟩ := tailSuffix_found (Nat.le_refl _) whole
  obtain ⟨before, file⟩ := csvFile_concat front last
  rw [readLastCsvBar_rows (by simp), scanned, ok_bind]
  have line : lastLine suffix = rowLine last := by
    rw [same, file] at decoded
    rw [file] at enough
    exact lastLine_of_drop (by decide) oneLine.rowLine (rowLine_ne_nil last) enough decoded
  have row : dictRow persistedMarketBarFields (persistedRecord last) = writtenRow last :=
    dictRow_persistedRecord last
  rw [decoded, ok_bind]
  dsimp only
  rw [line, if_neg (rowLine_ne_nil last), parsed, ok_bind, row, made]
  rfl

/-- A time that was read holds no comma and no quote. -/
theorem unmarked_of_parseInt [LineTexts F] {text : String} {time : Int}
    (parsed : PyFloat.parseInt F text = .ok time) :
    ∀ character ∈ text.toList, ¬ (character = ',' ∨ character = '"') := by
  obtain ⟨value, read, -⟩ := bind_eq_ok.mp parsed
  unfold PyFloat.parse at read
  split at read
  · rename_i number found
    exact LineTexts.ofStr_plain text number found
  · cases read

omit [PyText] [PyFloat F] in
/-- The first field of a line is its time. -/
theorem requiredNumber_time (first : String) (rest : List String) :
    (dictRow persistedMarketBarFields (first :: rest)).requiredNumber "time" = .ok first := by
  have names : ∀ names values : List String, (dictRow names values).map Prod.fst = names := by
    intro names
    induction names with
    | nil => exact fun _ => rfl
    | cons name names ih =>
        intro values
        cases values with
        | nil => exact congrArg (name :: ·) (ih [])
        | cons value values => exact congrArg (name :: ·) (ih values)
  have found : (dictRow persistedMarketBarFields (first :: rest)).get "time" = some (some first) := by
    apply lookup_of_mem
    · rw [List.map_reverse, List.nodup_reverse, names]
      decide
    · exact List.mem_reverse.mpr List.mem_cons_self
  rw [CsvRow.requiredNumber, found]

omit [PyText] [PyFloat F] in
/-- A line that begins behind the timeframe's own break has no revision. -/
theorem revision_of_tail (rest : String) (post : List String) (short : post.length = 18) :
    (dictRow persistedMarketBarFields (rest :: post)).optText "revision" = none := by
  match post, short with
  | [_, _, _, _, _, _, _, _, _, _, _, _, _, _, _, _, _, _], _ => rfl

/-- The timeframe has no break: what is left of the row behind it is no row. -/
theorem timeframe_lineFree [LineTexts F] {front : List (MarketBar F)} {last back : MarketBar F}
    (fits : last.Fits) (made : rowToBar (writtenRow last) = .ok back)
    (others : ∀ field ∈ (persistedRecord last).drop 11, LineFree field.toList)
    (read : readLastCsvBar F (csvFile (front ++ [last])) = .ok (some back)) :
    LineFree last.timeframe.toList := by
  by_contra broken
  obtain ⟨start, mark, rest, text, breaks, free⟩ := exists_last_break broken
  obtain ⟨-, -, ⟨timeframe, accepted⟩, -⟩ := readTexts_of_rowToBar made
  have named : last.timeframe ≠ "" := by
    intro empty
    rw [empty] at text
    simp at text
  rw [(writtenColumns last).timeframe.mpr named] at accepted
  have unmarked {other : Char} (isMark : other = ',' ∨ other = '"') : other ∉ last.timeframe.toList :=
    unmarked_of_canonicalTimeframe isMark (LineTexts.isSpace_mark F other isMark)
      (LineTexts.isDigit_mark F other isMark) accepted
  rw [text] at unmarked
  have plain : rest.any Csv.special = false := by
    rw [List.any_eq_false]
    intro character member special
    simp only [Csv.special, Bool.or_eq_true, decide_eq_true_eq] at special
    have inside : character ∈ start ++ mark :: rest := by simp [member]
    rcases special with ((rfl | rfl) | rfl) | rfl
    · exact unmarked (.inl rfl) inside
    · exact unmarked (.inr rfl) inside
    · exact free '\n' member (by decide)
    · exact free '\r' member (by decide)
  have quote : '"' ∉ mark :: rest := fun member => unmarked (.inr rfl) (List.mem_append_right _ member)
  obtain ⟨before, whole⟩ := Csv.encodeFields_append ((persistedRecord last).take 10) last.timeframe
    (show (persistedRecord last).drop 11 ≠ [] by simp [persistedRecord, persistedRow])
  have row : rowLine last = before ++ Csv.encodeField last.timeframe ++
      ',' :: Csv.encodeFields ((persistedRecord last).drop 11) := whole
  have single {other : Char} (isMark : other = ',' ∨ other = '"') : LineFree [other] := by
    rcases isMark with rfl | rfl <;> decide
  have unquoted : LineFree (rest ++ ',' :: Csv.encodeFields ((persistedRecord last).drop 11)) :=
    free.append ((single (.inl rfl)).append (lineFree_encodeFields others))
  have quoted : LineFree (rest ++ '"' :: ',' :: Csv.encodeFields ((persistedRecord last).drop 11)) :=
    free.append ((single (.inr rfl)).append ((single (.inl rfl)).append (lineFree_encodeFields others)))
  -- The reader is given what stands behind the last break.
  have behind {body : List Char} (bodyFree : LineFree body) (filled : body ≠ [])
      (split : ∃ front, rowLine last = front ++ mark :: body) :
      ∃ fields, csvLine body = .ok fields ∧
        rowToBar (dictRow persistedMarketBarFields fields) = .ok back := by
    obtain ⟨stop, suffix, fields, enough, decoded, parsed, read⟩ := readLastCsvBar_eq_some (by simp) read
    obtain ⟨earlier, file⟩ := csvFile_concat front last
    obtain ⟨inner, split⟩ := split
    have spelled : earlier ++ '\n' :: (rowLine last ++ ['\r', '\n']) =
        (earlier ++ '\n' :: inner) ++ mark :: (body ++ ['\r', '\n']) := by
      rw [split]
      simp
    rw [file, spelled] at enough decoded
    rw [lastLine_of_drop breaks bodyFree filled enough decoded] at parsed
    exact ⟨fields, parsed, read⟩
  obtain ⟨inner, ends | ends⟩ := Csv.encodeField_ends text quote
  · have record : Csv.encodeFields (String.ofList rest :: (persistedRecord last).drop 11) =
        rest ++ ',' :: Csv.encodeFields ((persistedRecord last).drop 11) := by
      rw [Csv.encodeFields, Csv.encodeField, String.toList_ofList, if_neg (by simp [plain])]
      simp [persistedRecord, persistedRow]
    obtain ⟨fields, parsed, read⟩ := behind unquoted (by simp) ⟨before ++ inner, by rw [row, ends]; simp⟩
    rw [← record, csvLine, Csv.readLine_encodeFields] at parsed
    · obtain rfl := Except.ok.inj parsed
      exact (readTexts_of_rowToBar read).2.1 (revision_of_tail _ _ rfl)
    · simp [persistedRecord, persistedRow]
    · intro field member
      rcases List.mem_cons.mp member with rfl | after
      · have long := fits last.timeframe (by simp [persistedRecord, persistedRow])
        rw [text, List.length_append, List.length_cons] at long
        rw [String.toList_ofList]
        omega
      · exact fits field (List.mem_of_mem_drop after)
    · have lineFree : ∀ field ∈ String.ofList rest :: (persistedRecord last).drop 11,
          LineFree field.toList := by
        intro field member
        rcases List.mem_cons.mp member with rfl | after
        · rw [String.toList_ofList]
          exact free
        · exact others field after
      exact fun field member => ⟨fun feed => lineFree field member '\n' feed (by decide),
        fun carriage => lineFree field member '\r' carriage (by decide)⟩
  · obtain ⟨fields, parsed, read⟩ := behind quoted (by simp) ⟨before ++ inner, by rw [row, ends]; simp⟩
    have line : Csv.readLine fieldSizeLimit .start
        (rest ++ '"' :: ',' :: Csv.encodeFields ((persistedRecord last).drop 11)) = .ok fields := by
      unfold csvLine at parsed
      split at parsed
      · rename_i taken same
        rw [same, Except.ok.inj parsed]
      · cases parsed
    obtain ⟨first, head, character, inside, marks⟩ := Csv.marked_of_quote plain line
    obtain ⟨more, rfl⟩ := List.head?_eq_some_iff.mp head
    obtain ⟨-, -, -, time, value, required, parsedTime⟩ := readTexts_of_rowToBar read
    rw [requiredNumber_time] at required
    obtain rfl := Except.ok.inj required
    exact unmarked_of_parseInt parsedTime character inside marks

/-- The line that the tail reader takes apart holds no line break, so that a bar of several lines
is not the one it returns. -/
theorem oneLine_of_readLastCsvBar [LineTexts F] {front : List (MarketBar F)} {last back : MarketBar F}
    (fits : last.Fits) (made : rowToBar (writtenRow last) = .ok back)
    (read : readLastCsvBar F (csvFile (front ++ [last])) = .ok (some back)) : last.OneLine := by
  obtain ⟨stop, suffix, fields, -, -, parsed, found⟩ := readLastCsvBar_eq_some (by simp) read
  have line : Csv.readLine fieldSizeLimit .start (lastLine suffix) = .ok fields := by
    unfold csvLine at parsed
    split at parsed
    · rename_i taken same
      rw [same, Except.ok.inj parsed]
    · cases parsed
  have nothing : Csv.Cursor.start.Holds (· ∉ lineBreaks) := by
    intro text saved
    obtain rfl := List.mem_singleton.mp saved
    exact List.forall_mem_nil _
  have free : CsvRow.OneLine (dictRow persistedMarketBarFields fields) :=
    oneLine_dictRow (Csv.mem_of_readLine (lineFree_lastLine suffix) .start nothing line)
  obtain ⟨before, after⟩ := lineFree_of_readTexts free (readTexts_of_rowToBar found).1
    (readTexts_of_rowToBar made).1
  exact oneLine_of_parts before (timeframe_lineFree fits made after read) after

/-- The tail reader returns the last row of a written file exactly when no text of its bar has a line
break of any kind and the scan does not stop inside a character. -/
theorem tail_reader_iff [LineTexts F] {bars back : List (MarketBar F)}
    (read : readCsv F (csvFile bars) = .ok back)
    (short : ∀ last ∈ bars.getLast?, rowSize last < 1048576) :
    readLastCsvBar F (csvFile bars) = .ok back.getLast? ↔
      ∀ last ∈ bars.getLast?, last.OneLine ∧
        Unsplit (csvFile bars) (tailStop (csvFile bars) (rowSize last)) := by
  have fits : ∀ bar ∈ bars, bar.Fits := by
    simp only [readCsv, bind_eq_ok] at read
    obtain ⟨stream, parsed, _, _, _, complete, _⟩ := read
    exact fits_of_csvStream_csvFile parsed complete
  rw [readCsv_csvFile fits] at read
  rcases List.eq_nil_or_concat' bars with rfl | ⟨front, last, rfl⟩
  · cases read
    simp [readLastCsvBar_nil]
  · obtain ⟨stored, made, ends⟩ : ∃ stored, rowToBar (writtenRow last) = .ok stored ∧
        back.getLast? = some stored := by
      have order := List.forall₂_reverse_iff.mpr read
      rw [List.reverse_concat] at order
      rw [← List.head?_reverse]
      cases backward : back.reverse with
      | nil =>
          rw [backward] at order
          cases order
      | cons stored others =>
          rw [backward] at order
          cases order with
          | cons made _ => exact ⟨stored, made, rfl⟩
    have lastFits := fits last (by simp)
    have size := short last (by simp)
    rw [ends]
    simp only [List.getLast?_concat, Option.mem_def, Option.some.injEq, forall_eq']
    constructor
    · intro found
      have oneLine := oneLine_of_readLastCsvBar lastFits made found
      exact ⟨oneLine, (readLastCsvBar_oneLine oneLine lastFits size made).mp found⟩
    · rintro ⟨oneLine, unsplit⟩
      exact (readLastCsvBar_oneLine oneLine lastFits size made).mpr unsplit

end Tails

section Example

open scoped Reference
open Reference

namespace Reference

theorem isDigit_of_digitsValue {digits : List Char} {value : Nat} (read : digitsValue digits = some value) :
    ∀ digit ∈ digits, digit.isDigit = true := by
  have all : ∀ (digits : List Char) (start value : Nat), digits.foldlM (fun value digit =>
      if digit.isDigit then some (10 * value + (digit.toNat - '0'.toNat)) else none) start = some value →
        ∀ digit ∈ digits, digit.isDigit = true := by
    intro digits
    induction digits with
    | nil => exact fun _ _ _ _ member => absurd member List.not_mem_nil
    | cons first rest ih =>
        intro start value read digit member
        rw [List.foldlM_cons] at read
        by_cases isDigit : first.isDigit = true
        · rw [if_pos isDigit] at read
          rcases List.mem_cons.mp member with rfl | later
          · exact isDigit
          · exact ih _ value read digit later
        · rw [if_neg isDigit] at read
          cases read
  unfold digitsValue at read
  split_ifs at read
  exact all digits 0 value read

/-- The digits of a number behind its sign. -/
def signedValue (whole : List Char) : Option Whole :=
  match whole with
  | '-' :: digits => (digitsValue digits).map fun value => (⟨-value⟩ : Whole)
  | digits => (digitsValue digits).map fun value => ⟨value⟩

theorem ofText_plain {text : String} {number : Whole} (read : Whole.ofText text = some number) :
    ∀ character ∈ text.toList, ¬ (character = ',' ∨ character = '"') := by
  have digits {text : List Char} {value : Nat} (found : digitsValue text = some value) :
      ∀ character ∈ text, ¬ (character = ',' ∨ character = '"') := by
    intro character member marks
    have digit := isDigit_of_digitsValue found character member
    rcases marks with rfl | rfl <;> cases digit
  have signed {whole : List Char} (found : signedValue whole = some number) :
      ∀ character ∈ whole, ¬ (character = ',' ∨ character = '"') := by
    unfold signedValue at found
    split at found
    · obtain ⟨value, plain, -⟩ := Option.map_eq_some_iff.mp found
      obtain ⟨count, counted, -⟩ := Option.bind_eq_some_iff.mp plain
      intro character member
      rcases List.mem_cons.mp member with rfl | later
      · decide
      · exact digits counted character later
    · obtain ⟨value, plain, -⟩ := Option.map_eq_some_iff.mp found
      obtain ⟨count, counted, -⟩ := Option.bind_eq_some_iff.mp plain
      exact digits counted
  unfold Whole.ofText at read
  dsimp only at read
  split_ifs at read with whole
  · obtain ⟨front, same⟩ := List.isSuffixOf_iff_suffix.mp whole
    rw [← same, List.length_append, show ['.', '0'].length = 2 from rfl, Nat.add_sub_cancel,
      List.take_left] at read
    intro character member
    rw [← same, List.mem_append] at member
    rcases member with inFront | tail
    · exact signed read character inFront
    · rcases List.mem_cons.mp tail with rfl | last
      · decide
      · obtain rfl := List.mem_singleton.mp last
        decide
  · exact signed read

theorem toLower_break (character : Char) : character.toLower ∈ lineBreaks ↔ character ∈ lineBreaks := by
  have table : ∀ value < 128,
      ((Char.ofNat value).toLower ∈ lineBreaks ↔ Char.ofNat value ∈ lineBreaks) := by decide
  by_cases small : character.toNat < 128
  · have found := table character.toNat small
    rwa [Char.ofNat_toNat] at found
  · have same : character.toLower = character := by
      delta Char.toLower
      rw [dif_neg]
      simp only [UInt32.le_iff_toNat_le]
      intro upper
      have high := upper.2
      simp at high
      omega
    rw [same]

theorem toUpper_break (character : Char) : character.toUpper ∈ lineBreaks ↔ character ∈ lineBreaks := by
  have table : ∀ value < 128,
      ((Char.ofNat value).toUpper ∈ lineBreaks ↔ Char.ofNat value ∈ lineBreaks) := by decide
  by_cases small : character.toNat < 128
  · have found := table character.toNat small
    rwa [Char.ofNat_toNat] at found
  · have same : character.toUpper = character := by
      delta Char.toUpper
      rw [dif_neg]
      simp only [UInt32.le_iff_toNat_le]
      intro lower
      have high := lower.2
      simp at high
      omega
    rw [same]

theorem lineFree_map {change : Char → Char}
    (kept : ∀ character, change character ∈ lineBreaks ↔ character ∈ lineBreaks) (text : List Char) :
    LineFree (text.map change) ↔ LineFree text := by
  simp [LineFree, kept]

instance lineTexts : LineTexts Whole where
  str_lineFree number := by
    change LineFree (toString number.value ++ ".0").toList
    rw [String.toList_append]
    exact (lineFree_toString _).append (by decide)
  ofStr_plain text number := ofText_plain
  lower_lineFree text := by
    change LineFree (String.ofList (text.toList.map Char.toLower)).toList ↔ _
    rw [String.toList_ofList, lineFree_map toLower_break]
  upper_lineFree text := by
    change LineFree (String.ofList (text.toList.map Char.toUpper)).toList ↔ _
    rw [String.toList_ofList, lineFree_map toUpper_break]
  isSpace_mark := by
    rintro mark (rfl | rfl) <;> decide
  isDigit_mark := by
    rintro mark (rfl | rfl) <;> decide

/-- A candle of a transport whose name has a line break in it. -/
def brokenTransport : MarketBar Whole := { candle 0 with sourceTransport := "ws\nbackup" }

end Reference

theorem tail_reader_oneCandle :
    readLastCsvBar Whole (csvFile [candle 0]) = .ok [candle 0].getLast? := by
  have read : readCsv Whole (csvFile [candle 0]) = .ok [candle 0] :=
    readCsv_of_storable candle_normal candles_storable
  have short : ∀ last ∈ [candle 0].getLast?, rowSize last < 1048576 := by decide +kernel
  have oneLine : (candle 0).OneLine := by
    unfold MarketBar.OneLine
    decide +kernel
  have plain : (Csv.encodeRecord persistedMarketBarFields ++ rowsText [candle 0]).all
      (·.toNat < 128) = true := by decide +kernel
  have ascii : ∀ character ∈ Csv.encodeRecord persistedMarketBarFields ++ rowsText [candle 0],
      character.toNat < 128 := by simpa only [List.all_eq_true, decide_eq_true_eq] using plain
  refine (tail_reader_iff read short).mpr ?_
  intro last found
  obtain rfl := Option.some.inj found
  refine ⟨oneLine, ?_⟩
  rw [csvFile_eq]
  exact unsplit_ascii ascii _

/-- `read_csv` returns the bar. The tail reader is left with the part of its row behind the break. -/
theorem broken_row_not_read : readCsv Whole (csvFile [brokenTransport]) = .ok [brokenTransport] ∧
    rowSize brokenTransport < 1048576 ∧
      readLastCsvBar Whole (csvFile [brokenTransport]) ≠ .ok (some brokenTransport) := by
  have fits : brokenTransport.Fits := by
    unfold MarketBar.Fits
    decide +kernel
  have made : rowToBar (writtenRow brokenTransport) = .ok brokenTransport :=
    eq_ok_of_toOption (by decide +kernel)
  have read : readCsv Whole (csvFile [brokenTransport]) = .ok [brokenTransport] :=
    (readCsv_csvFile (List.forall_mem_singleton.mpr fits)).mpr (.cons made .nil)
  have short : rowSize brokenTransport < 1048576 := by decide +kernel
  refine ⟨read, short, ?_⟩
  intro found
  have alone : readLastCsvBar Whole (csvFile ([] ++ [brokenTransport])) = .ok (some brokenTransport) := found
  have oneLine := oneLine_of_readLastCsvBar fits made alone
  have column : "ws\nbackup" ∈ persistedRecord brokenTransport := by decide +kernel
  exact oneLine "ws\nbackup" column '\n' (by decide) (by decide)

end Example

end MarketdataProvider
