import MarketdataProvider.Store.RowCodec

namespace MarketdataProvider

open Foundation

/-- `csv.field_size_limit()`, which the package leaves at its default. -/
def fieldSizeLimit : Nat := 131072

/-- The text of a data file as the CSV reader takes it apart. -/
def csvStream (bytes : List UInt8) : Except PyError Foundation.Csv.Stream :=
  match decodeUtf8 bytes with
  | none => .error .unicodeDecodeError
  | some text => .ok (Foundation.Csv.parse fieldSizeLimit text)

/-- A reader that fails does so after the rows before the failure were used. -/
def endOfStream (stream : Foundation.Csv.Stream) : Except PyError Unit :=
  match stream.failure with
  | none => .ok ()
  | some message => .error (.csvError message)

section Read

variable [PyText]

def readCsv (F : Type) [PyFloat F] (bytes : List UInt8) : Except PyError (List (MarketBar F)) := do
  let stream ← csvStream bytes
  let bars ← (dictRows stream).mapM rowToBar
  endOfStream stream
  return bars

end Read

section Write

variable {F : Type} [PyFloat F]

/-- The whole text of a CSV data file: the header and one record for each bar. -/
def csvFile (bars : List (MarketBar F)) : List UInt8 :=
  encodeUtf8 ((persistedMarketBarFields :: bars.map persistedRecord).flatMap Csv.encodeRecord)

def csvAppendPayload (bars : List (MarketBar F)) : List UInt8 :=
  encodeUtf8 (bars.flatMap fun bar => Csv.encodeRecord (persistedRecord bar))

/-- An append writes the bytes that a full write would have put after the stored rows. -/
theorem csvFile_append (stored incoming : List (MarketBar F)) :
    csvFile (stored ++ incoming) = csvFile stored ++ csvAppendPayload incoming := by
  simp only [csvFile, csvAppendPayload, List.map_append, List.flatMap_cons, List.flatMap_append,
    encodeUtf8_append, List.append_assoc, List.flatMap_map]

/-- No field of the bar is longer than the reader's limit. -/
def MarketBar.Fits (bar : MarketBar F) : Prop :=
  ∀ field ∈ persistedRecord bar, field.toList.length ≤ fieldSizeLimit

theorem header_fits : ∀ field ∈ persistedMarketBarFields, field.toList.length ≤ fieldSizeLimit := by
  decide

/-- Written records are read as they were written. -/
theorem csvStream_records {records : List (List String)}
    (fits : ∀ record ∈ records, ∀ field ∈ record, field.toList.length ≤ fieldSizeLimit) :
    csvStream (encodeUtf8 (records.flatMap Csv.encodeRecord)) = .ok ⟨records, none⟩ := by
  rw [csvStream, decodeUtf8_encodeUtf8]
  exact congrArg Except.ok (Csv.parse_encodeRecords _ fits)

theorem csvStream_csvFile {bars : List (MarketBar F)} (fits : ∀ bar ∈ bars, bar.Fits) :
    csvStream (csvFile bars) = .ok ⟨persistedMarketBarFields :: bars.map persistedRecord, none⟩ := by
  apply csvStream_records
  intro record member
  rcases List.mem_cons.mp member with rfl | written
  · exact header_fits
  · obtain ⟨bar, inBars, rfl⟩ := List.mem_map.mp written
    exact fits bar inBars

/-- A reader that comes to the end of the file met no field above the limit. -/
theorem fits_of_csvStream_csvFile {bars : List (MarketBar F)} {stream : Csv.Stream}
    (parsed : csvStream (csvFile bars) = .ok stream) (complete : endOfStream stream = .ok ()) :
    ∀ bar ∈ bars, bar.Fits := by
  rw [csvStream, csvFile, decodeUtf8_encodeUtf8] at parsed
  cases Except.ok.inj parsed
  unfold endOfStream at complete
  split at complete
  · rename_i finished
    intro bar member
    exact Csv.fits_of_parse_encodeRecords _ finished _
      (List.mem_cons_of_mem _ (List.mem_map_of_mem member))
  · cases complete

theorem dictRows_written (bars : List (MarketBar F)) :
    dictRows ⟨persistedMarketBarFields :: bars.map persistedRecord, none⟩ = bars.map writtenRow := by
  have nonblank : (bars.map persistedRecord).filter (· ≠ []) = bars.map persistedRecord := by
    rw [List.filter_eq_self]
    intro record member
    obtain ⟨bar, _, rfl⟩ := List.mem_map.mp member
    simp [persistedRecord, persistedRow]
  simp only [dictRows, nonblank, List.map_map]
  exact List.map_congr_left fun bar _ => dictRow_persistedRecord bar

variable [PyText]

/-- The normal form in which a bar comes back from the store. -/
def normalizedBar (bar : MarketBar F) : Except PyError (MarketBar F) := do
  let timeframe ← canonicalTimeframe bar.timeframe
  return bar.persisted timeframe

omit [PyFloat F] in
theorem normalizedBar_eq_ok {bar normalized : MarketBar F} :
    normalizedBar bar = .ok normalized ↔
      ∃ timeframe, canonicalTimeframe bar.timeframe = .ok timeframe ∧
        bar.persisted timeframe = normalized := by
  simp [normalizedBar]

theorem readCsv_csvFile {bars read : List (MarketBar F)} (fits : ∀ bar ∈ bars, bar.Fits) :
    readCsv F (csvFile bars) = .ok read ↔
      List.Forall₂ (fun bar back => rowToBar (writtenRow bar) = .ok back) bars read := by
  simp only [readCsv, csvStream_csvFile fits, ok_bind, dictRows_written, bind_eq_ok, pure_eq_ok,
    mapM_eq_ok, List.forall₂_map_left_iff]
  simp [endOfStream]

/-- A written file is read as the normal forms of its bars exactly when all of them survive. -/
theorem readCsv_csvFile_iff {bars normalized : List (MarketBar F)}
    (normal : bars.mapM normalizedBar = .ok normalized) :
    readCsv F (csvFile bars) = .ok normalized ↔ ∀ bar ∈ bars, bar.Survives ∧ bar.Fits := by
  rw [mapM_eq_ok] at normal
  constructor
  · intro read
    have fits : ∀ bar ∈ bars, bar.Fits := by
      simp only [readCsv, bind_eq_ok] at read
      obtain ⟨stream, parsed, _, _, _, complete, _⟩ := read
      exact fits_of_csvStream_csvFile parsed complete
    rw [readCsv_csvFile fits] at read
    have both : List.Forall₂ (fun (bar : MarketBar F) _ => bar.Survives ∧ True) bars normalized := by
      refine List.Forall₂.mp (fun bar back written reads => ?_) normal read
      obtain ⟨timeframe, _, rfl⟩ := normalizedBar_eq_ok.mp written
      exact ⟨survives_of_rowToBar _ reads, trivial⟩
    exact fun bar member => ⟨((List.forall₂_and_left _ _).mp both).1 bar member, fits bar member⟩
  · intro survive
    rw [readCsv_csvFile fun bar member => (survive bar member).2]
    refine ((List.forall₂_and_left _ _).mpr ⟨fun bar member => (survive bar member).1, normal⟩).imp ?_
    rintro bar back ⟨survives, written⟩
    obtain ⟨timeframe, accepted, rfl⟩ := normalizedBar_eq_ok.mp written
    exact survives.rowToBar accepted

end Write

end MarketdataProvider
