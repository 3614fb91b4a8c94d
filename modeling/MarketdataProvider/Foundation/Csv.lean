import Mathlib.Data.List.Basic

namespace Foundation.Csv

/-- The reader modes of the excel dialect with doubled quotes and lenient parsing. -/
inductive Mode where
  | startRecord
  | startField
  | inField
  | inQuotedField
  | quoteInQuotedField
  | afterReturn
  deriving DecidableEq

/-- The cursor holds the open field and the saved fields, both in reverse order. -/
structure Cursor where
  mode : Mode
  field : List Char
  record : List String

def Cursor.start : Cursor := ⟨.startRecord, [], []⟩

inductive Outcome where
  | more (cursor : Cursor)
  | record (fields : List String) (cursor : Cursor)
  | tooLong

/-- The records before the first failure, and the failure itself. -/
structure Stream where
  records : List (List String)
  failure : Option String

def Stream.cons (fields : List String) (stream : Stream) : Stream :=
  ⟨fields :: stream.records, stream.failure⟩

def tooLarge : String := "field larger than field limit"

namespace Cursor

def saved (cursor : Cursor) : List String :=
  String.ofList cursor.field.reverse :: cursor.record

def add (limit : Nat) (cursor : Cursor) (mode : Mode) (character : Char) : Outcome :=
  if limit ≤ cursor.field.length then .tooLong
  else .more { cursor with mode := mode, field := character :: cursor.field }

def endField (cursor : Cursor) : Outcome := .more ⟨.startField, [], cursor.saved⟩

/-- A line break ends the record; a line feed after a carriage return belongs to it. -/
def endRecord (cursor : Cursor) (character : Char) : Outcome :=
  .record cursor.saved.reverse
    ⟨if character = '\r' then .afterReturn else .startRecord, [], []⟩

def feedField (limit : Nat) (cursor : Cursor) (character : Char) : Outcome :=
  if character = '\n' ∨ character = '\r' then cursor.endRecord character
  else if character = '"' then .more { cursor with mode := .inQuotedField }
  else if character = ',' then cursor.endField
  else cursor.add limit .inField character

/-- A record that starts with a line break is blank and has no field. -/
def feedRecord (limit : Nat) (cursor : Cursor) (character : Char) : Outcome :=
  if character = '\n' then .record [] ⟨.startRecord, [], []⟩
  else if character = '\r' then .record [] ⟨.afterReturn, [], []⟩
  else cursor.feedField limit character

def feed (limit : Nat) (cursor : Cursor) (character : Char) : Outcome :=
  match cursor.mode with
  | .startRecord => cursor.feedRecord limit character
  | .startField => cursor.feedField limit character
  | .inField =>
      if character = '\n' ∨ character = '\r' then cursor.endRecord character
      else if character = ',' then cursor.endField
      else cursor.add limit .inField character
  | .inQuotedField =>
      if character = '"' then .more { cursor with mode := .quoteInQuotedField }
      else cursor.add limit .inQuotedField character
  | .quoteInQuotedField =>
      if character = '"' then cursor.add limit .inQuotedField character
      else if character = ',' then cursor.endField
      else if character = '\n' ∨ character = '\r' then cursor.endRecord character
      else cursor.add limit .inField character
  | .afterReturn =>
      if character = '\n' then .more { cursor with mode := .startRecord }
      else cursor.feedRecord limit character

/-- The end of the text closes an open record, also inside quotes. -/
def finish (cursor : Cursor) : Stream :=
  match cursor.mode with
  | .startRecord => ⟨[], none⟩
  | .afterReturn => ⟨[], none⟩
  | _ => ⟨[cursor.saved.reverse], none⟩

end Cursor

def scan (limit : Nat) : Cursor → List Char → Stream
  | cursor, [] => cursor.finish
  | cursor, character :: rest =>
      match cursor.feed limit character with
      | .more next => scan limit next rest
      | .record fields next => (scan limit next rest).cons fields
      | .tooLong => ⟨[], some tooLarge⟩

def parse (limit : Nat) (text : List Char) : Stream := scan limit .start text

def newLineInField : String := "new-line character seen in unquoted field"

/-- One line given as a list of one string: nothing but line breaks may follow its record. -/
def readLine (limit : Nat) : Cursor → List Char → Except String (List String)
  | cursor, [] => .ok (cursor.finish.records.headD [])
  | cursor, character :: rest =>
      match cursor.feed limit character with
      | .more next => readLine limit next rest
      | .record fields _ =>
          if rest.all fun other => other = '\n' || other = '\r' then .ok fields
          else .error newLineInField
      | .tooLong => .error tooLarge

def special (character : Char) : Bool :=
  character = ',' || character = '"' || character = '\n' || character = '\r'

def doubled : List Char → List Char
  | [] => []
  | character :: rest =>
      if character = '"' then '"' :: '"' :: doubled rest else character :: doubled rest

/-- The writer quotes a field only when it holds a special character. -/
def encodeField (field : String) : List Char :=
  if field.toList.any special then '"' :: doubled field.toList ++ ['"'] else field.toList

def encodeFields : List String → List Char
  | [] => []
  | [field] => encodeField field
  | field :: rest => encodeField field ++ ',' :: encodeFields rest

/-- One empty field is quoted, so that its record is not a blank line. -/
def encodeRecord (fields : List String) : List Char :=
  (if fields = [""] then ['"', '"'] else encodeFields fields) ++ ['\r', '\n']

variable {limit : Nat}

theorem scan_plain (record : List String) (ending : List Char) :
    ∀ (plain field : List Char), plain.any special = false →
      field.length + plain.length ≤ limit →
      scan limit ⟨.inField, field, record⟩ (plain ++ ending) =
        scan limit ⟨.inField, plain.reverse ++ field, record⟩ ending := by
  intro plain
  induction plain with
  | nil => intro field _ _; rfl
  | cons character plain ih =>
      intro field ordinary fits
      simp only [List.any_cons, Bool.or_eq_false_iff, special, decide_eq_false_iff_not] at ordinary
      obtain ⟨⟨⟨⟨comma, _⟩, feedChar⟩, returnChar⟩, tail⟩ := ordinary
      simp only [List.length_cons] at fits
      have room : ¬ limit ≤ field.length := by omega
      have step := ih (character :: field) tail (by simp only [List.length_cons]; omega)
      simpa [scan, Cursor.feed, Cursor.add, comma, feedChar, returnChar, room] using step

theorem scan_doubled (record : List String) (ending : List Char) :
    ∀ (quoted field : List Char), field.length + quoted.length ≤ limit →
      scan limit ⟨.inQuotedField, field, record⟩ (doubled quoted ++ ending) =
        scan limit ⟨.inQuotedField, quoted.reverse ++ field, record⟩ ending := by
  intro quoted
  induction quoted with
  | nil => intro field _; rfl
  | cons character quoted ih =>
      intro field fits
      simp only [List.length_cons] at fits
      have room : ¬ limit ≤ field.length := by omega
      have step := ih (character :: field) (by simp only [List.length_cons]; omega)
      by_cases quote : character = '"'
      · subst quote
        simpa [scan, doubled, Cursor.feed, Cursor.add, room] using step
      · simpa [scan, doubled, Cursor.feed, Cursor.add, room, quote] using step

/-- A field in front of a comma or a line break is read back and saved. -/
theorem scan_field (record : List String) (field : String) (fits : field.toList.length ≤ limit)
    {character : Char} (ending : List Char)
    (separates : character = ',' ∨ character = '\r') :
    scan limit ⟨.startField, [], record⟩ (encodeField field ++ character :: ending) =
      scan limit ⟨.inField, field.toList.reverse, record⟩ (character :: ending) := by
  unfold encodeField
  split
  · have inside := scan_doubled record ('"' :: character :: ending) field.toList [] (by simpa using fits)
    simp only [List.append_nil] at inside
    have opened : scan limit ⟨.startField, [], record⟩
        ('"' :: doubled field.toList ++ ['"'] ++ character :: ending) =
        scan limit ⟨.inQuotedField, [], record⟩ (doubled field.toList ++ '"' :: character :: ending) := by
      simp [scan, Cursor.feed, Cursor.feedField]
    rw [opened, inside]
    rcases separates with rfl | rfl <;>
      simp [scan, Cursor.feed, Cursor.endField, Cursor.endRecord, Cursor.saved]
  · rename_i ordinary
    simp only [Bool.not_eq_true] at ordinary
    cases characters : field.toList with
    | nil =>
        rcases separates with rfl | rfl <;>
          simp [scan, Cursor.feed, Cursor.feedField, Cursor.endField, Cursor.endRecord, Cursor.saved]
    | cons head tail =>
        rw [characters] at ordinary fits
        have plain := scan_plain record (character :: ending) tail [head]
          (by simp_all) (by simpa [Nat.add_comm] using fits)
        simp only [List.any_cons, Bool.or_eq_false_iff, special, decide_eq_false_iff_not] at ordinary
        obtain ⟨⟨⟨⟨comma, quote⟩, feedChar⟩, returnChar⟩, _⟩ := ordinary
        have room : limit ≠ 0 := by
          rintro rfl
          simp at fits
        simpa [scan, Cursor.feed, Cursor.feedField, Cursor.add, comma, quote, feedChar, returnChar,
          room] using plain

theorem scan_fields (ending : List Char) :
    ∀ (fields : List String) (record : List String), fields ≠ [] →
      (∀ field ∈ fields, field.toList.length ≤ limit) →
      scan limit ⟨.startField, [], record⟩ (encodeFields fields ++ '\r' :: '\n' :: ending) =
        (scan limit .start ending).cons (record.reverse ++ fields) := by
  intro fields
  induction fields with
  | nil => intro record nonempty; exact absurd rfl nonempty
  | cons field rest ih =>
      intro record _ fits
      have short := fits field List.mem_cons_self
      cases rest with
      | nil =>
          rw [encodeFields, scan_field record field short _ (.inr rfl)]
          simp [scan, Cursor.feed, Cursor.endRecord, Cursor.saved, Cursor.start]
      | cons next others =>
          have tail := ih (field :: record) (by simp)
            (fun other member => fits other (List.mem_cons_of_mem _ member))
          rw [encodeFields, List.append_assoc, List.cons_append,
            scan_field record field short _ (.inl rfl)]
          · simpa [scan, Cursor.feed, Cursor.endField, Cursor.saved] using tail
          · simp

/-- A record that does not look blank is read in the same way after a line break. -/
theorem scan_start (first : Char) (rest : List Char) (notFeed : first ≠ '\n')
    (notReturn : first ≠ '\r') :
    scan limit .start (first :: rest) = scan limit ⟨.startField, [], []⟩ (first :: rest) := by
  simp [scan, Cursor.start, Cursor.feed, Cursor.feedRecord, Cursor.feedField, Cursor.add,
    Cursor.endField, Cursor.saved, notFeed, notReturn]

theorem encodeField_head (field : String) {character : Char} {rest : List Char}
    (written : encodeField field = character :: rest) : character ≠ '\n' ∧ character ≠ '\r' := by
  unfold encodeField at written
  split at written
  · cases written
    decide
  · rename_i ordinary
    rw [written] at ordinary
    simp [special] at ordinary
    tauto

/-- The text of a record never looks like a blank line, but for the record of one empty field. -/
theorem scan_start_encodeFields (field : String) (rest : List String) (ending : List Char)
    (several : field :: rest ≠ [""]) :
    scan limit .start (encodeFields (field :: rest) ++ ending) =
      scan limit ⟨.startField, [], []⟩ (encodeFields (field :: rest) ++ ending) := by
  cases written : encodeFields (field :: rest) with
  | nil =>
      -- Only the record of one empty field is written without a character.
      exfalso
      cases rest with
      | nil =>
          apply several
          unfold encodeFields encodeField at written
          split at written
          · simp at written
          · rw [String.toList_eq_nil_iff.mp written]
      | cons next others => simp [encodeFields] at written
  | cons first characters =>
      have heads : first ≠ '\n' ∧ first ≠ '\r' := by
        cases rest with
        | nil => exact encodeField_head field written
        | cons next others =>
            rw [encodeFields] at written
            · cases head : encodeField field with
              | nil =>
                  rw [head] at written
                  cases written
                  decide
              | cons character tail =>
                  rw [head, List.cons_append] at written
                  cases written
                  exact encodeField_head field head
            · simp
      exact scan_start first _ heads.1 heads.2

/-- The reader returns every record that the writer wrote, then reads what follows. -/
theorem scan_encodeRecord (fields : List String) (ending : List Char)
    (fits : ∀ field ∈ fields, field.toList.length ≤ limit) :
    scan limit .start (encodeRecord fields ++ ending) = (scan limit .start ending).cons fields := by
  unfold encodeRecord
  split
  · rename_i single
    subst single
    simp [scan, Cursor.start, Cursor.feed, Cursor.feedRecord, Cursor.feedField, Cursor.endRecord,
      Cursor.saved]
  · rename_i several
    rw [List.append_assoc]
    cases fields with
    | nil => simp [encodeFields, scan, Cursor.start, Cursor.feed, Cursor.feedRecord]
    | cons field rest =>
        rw [scan_start_encodeFields field rest _ several]
        exact scan_fields ending (field :: rest) [] (by simp) fits

/-- A file of written records is read back record by record. -/
theorem parse_encodeRecords (records : List (List String))
    (fits : ∀ record ∈ records, ∀ field ∈ record, field.toList.length ≤ limit) :
    parse limit (records.flatMap encodeRecord) = ⟨records, none⟩ := by
  induction records with
  | nil => rfl
  | cons record records ih =>
      have tail := ih (fun other member => fits other (List.mem_cons_of_mem _ member))
      rw [List.flatMap_cons, parse, scan_encodeRecord record _ (fits record List.mem_cons_self)]
      rw [parse] at tail
      rw [tail]
      rfl

theorem scan_plain_tooLong (record : List String) (ending : List Char) :
    ∀ (plain field : List Char), plain.any special = false → field.length ≤ limit →
      limit < field.length + plain.length →
      scan limit ⟨.inField, field, record⟩ (plain ++ ending) = ⟨[], some tooLarge⟩ := by
  intro plain
  induction plain with
  | nil =>
      intro field _ fits long
      simp only [List.length_nil] at long
      omega
  | cons character plain ih =>
      intro field ordinary fits long
      simp only [List.any_cons, Bool.or_eq_false_iff, special, decide_eq_false_iff_not] at ordinary
      obtain ⟨⟨⟨⟨comma, _⟩, feedChar⟩, returnChar⟩, tail⟩ := ordinary
      by_cases full : limit ≤ field.length
      · simp [scan, Cursor.feed, Cursor.add, comma, feedChar, returnChar, full]
      · simp only [List.length_cons] at long
        have step := ih (character :: field) tail (by simp only [List.length_cons]; omega)
          (by simp only [List.length_cons]; omega)
        simpa [scan, Cursor.feed, Cursor.add, comma, feedChar, returnChar, full] using step

theorem scan_doubled_tooLong (record : List String) (ending : List Char) :
    ∀ (quoted field : List Char), field.length ≤ limit → limit < field.length + quoted.length →
      scan limit ⟨.inQuotedField, field, record⟩ (doubled quoted ++ ending) = ⟨[], some tooLarge⟩ := by
  intro quoted
  induction quoted with
  | nil =>
      intro field fits long
      simp only [List.length_nil] at long
      omega
  | cons character quoted ih =>
      intro field fits long
      by_cases full : limit ≤ field.length
      · by_cases quote : character = '"'
        · simp [scan, doubled, Cursor.feed, Cursor.add, full, quote]
        · simp [scan, doubled, Cursor.feed, Cursor.add, full, quote]
      · simp only [List.length_cons] at long
        have step := ih (character :: field) (by simp only [List.length_cons]; omega)
          (by simp only [List.length_cons]; omega)
        by_cases quote : character = '"'
        · subst quote
          simpa [scan, doubled, Cursor.feed, Cursor.add, full] using step
        · simpa [scan, doubled, Cursor.feed, Cursor.add, full, quote] using step

/-- A field above the limit stops the reader. -/
theorem scan_field_tooLong (record : List String) (field : String)
    (long : limit < field.toList.length) (ending : List Char) :
    scan limit ⟨.startField, [], record⟩ (encodeField field ++ ending) = ⟨[], some tooLarge⟩ := by
  unfold encodeField
  split
  · have inside := scan_doubled_tooLong record ('"' :: ending) field.toList [] (Nat.zero_le limit)
      (by simpa using long)
    simpa [scan, Cursor.feed, Cursor.feedField] using inside
  · rename_i ordinary
    simp only [Bool.not_eq_true] at ordinary
    cases characters : field.toList with
    | nil => simp [characters] at long
    | cons head tail =>
        rw [characters] at ordinary long
        simp only [List.any_cons, Bool.or_eq_false_iff] at ordinary
        have first := ordinary.1
        simp only [special, Bool.or_eq_false_iff, decide_eq_false_iff_not] at first
        obtain ⟨⟨⟨comma, quote⟩, feedChar⟩, returnChar⟩ := first
        simp only [List.length_cons] at long
        by_cases closed : limit = 0
        · simp [scan, Cursor.feed, Cursor.feedField, Cursor.add, comma, quote, feedChar, returnChar,
            closed]
        · have plain : scan limit ⟨.inField, [head], record⟩ (tail ++ ending) = ⟨[], some tooLarge⟩ :=
            scan_plain_tooLong record ending tail [head] ordinary.2
              (by simp only [List.length_singleton]; omega)
              (by simp only [List.length_singleton]; omega)
          simpa [scan, Cursor.feed, Cursor.feedField, Cursor.add, comma, quote, feedChar, returnChar,
            closed] using plain

theorem scan_fields_tooLong (ending : List Char) :
    ∀ (fields : List String) (record : List String),
      (∃ field ∈ fields, limit < field.toList.length) →
      (scan limit ⟨.startField, [], record⟩ (encodeFields fields ++ ending)).failure = some tooLarge := by
  intro fields
  induction fields with
  | nil => simp
  | cons field rest ih =>
      rintro record ⟨other, member, long⟩
      by_cases fits : field.toList.length ≤ limit
      · have later : ∃ other ∈ rest, limit < other.toList.length := by
          rcases List.mem_cons.mp member with rfl | inRest
          · omega
          · exact ⟨other, inRest, long⟩
        cases rest with
        | nil => simp at later
        | cons next others =>
            have tail := ih (field :: record) later
            rw [encodeFields, List.append_assoc, List.cons_append,
              scan_field record field fits _ (.inl rfl)]
            · simpa [scan, Cursor.feed, Cursor.endField, Cursor.saved] using tail
            · simp
      · have stopped (after : List Char) :=
          scan_field_tooLong record field (Nat.lt_of_not_le fits) after
        cases rest with
        | nil => rw [encodeFields, stopped]
        | cons next others =>
            rw [encodeFields, List.append_assoc, stopped]
            simp

/-- Without a failure every field of the written records was within the limit. -/
theorem fits_of_parse_encodeRecords (records : List (List String))
    (complete : (parse limit (records.flatMap encodeRecord)).failure = none) :
    ∀ record ∈ records, ∀ field ∈ record, field.toList.length ≤ limit := by
  induction records with
  | nil => simp
  | cons record records ih =>
      rw [List.flatMap_cons, parse] at complete
      have head : ∀ field ∈ record, field.toList.length ≤ limit := by
        by_contra long
        simp only [not_forall, Nat.not_le] at long
        obtain ⟨field, member, long⟩ := long
        have several : record ≠ [""] := by
          rintro rfl
          rw [List.mem_singleton.mp member] at long
          simp at long
        cases record with
        | nil => cases member
        | cons first rest =>
            have stopped := scan_fields_tooLong ('\r' :: '\n' :: records.flatMap encodeRecord)
              (first :: rest) [] ⟨field, member, long⟩
            rw [← scan_start_encodeFields first rest _ several] at stopped
            rw [encodeRecord, if_neg several, List.append_assoc] at complete
            exact absurd (stopped.symm.trans complete) (by simp)
      rw [scan_encodeRecord record _ head] at complete
      intro other member
      rcases List.mem_cons.mp member with rfl | later
      · exact head
      · exact ih complete other later

end Foundation.Csv
