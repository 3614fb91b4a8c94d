import MarketdataProvider.Foundation.Csv

namespace Foundation.Csv

variable {limit : Nat}

namespace Cursor

variable {property : Char → Prop} {cursor next : Cursor} {character : Char} {fields : List String}

/-- Inside a record a character joins the open field, changes the mode or ends the field. -/
theorem more_cases (fed : cursor.feed limit character = .more next) :
    (next.record = cursor.record ∧ (next.field = cursor.field ∨ next.field = character :: cursor.field)) ∨
      (next.record = cursor.saved ∧ next.field = []) := by
  unfold feed at fed
  split at fed
  all_goals
    simp only [feedRecord, feedField, add, endField, endRecord] at fed
    split_ifs at fed <;> cases fed <;> simp

theorem mode_of_more (fed : cursor.feed limit character = .more next) :
    next.mode ≠ .afterReturn ∧ (next.mode = .startRecord → cursor.mode = .afterReturn) := by
  unfold feed at fed
  split at fed
  all_goals
    rename_i mode
    simp only [feedRecord, feedField, add, endField, endRecord] at fed
    split_ifs at fed <;> cases fed <;> simp [mode]

/-- Only a line break ends a record, and only a blank one has no field. -/
theorem record_cases (fed : cursor.feed limit character = .record fields next) :
    (character = '\n' ∨ character = '\r') ∧
      (fields = cursor.saved.reverse ∨
        fields = [] ∧ (cursor.mode = .startRecord ∨ cursor.mode = .afterReturn)) := by
  unfold feed at fed
  split at fed
  all_goals
    rename_i mode
    simp only [feedRecord, feedField, add, endField, endRecord] at fed
    split_ifs at fed <;> cases fed <;> simp_all

/-- Every character that the cursor has read has the property. -/
def Holds (property : Char → Prop) (cursor : Cursor) : Prop :=
  ∀ text ∈ cursor.saved, ∀ character ∈ text.toList, property character

theorem Holds.more (holds : cursor.Holds property) (allowed : property character)
    (fed : cursor.feed limit character = .more next) : next.Holds property := by
  have open_ (found : Char) (member : found ∈ cursor.field) : property found :=
    holds _ List.mem_cons_self found (by simpa using member)
  intro text member found inside
  rcases more_cases fed with ⟨record, field⟩ | ⟨record, field⟩
  · rcases List.mem_cons.mp member with rfl | earlier
    · rw [String.toList_ofList, List.mem_reverse] at inside
      rcases field with same | grown
      · exact open_ found (same ▸ inside)
      · rw [grown] at inside
        rcases List.mem_cons.mp inside with rfl | before
        · exact allowed
        · exact open_ found before
    · rw [record] at earlier
      exact holds text (List.mem_cons_of_mem _ earlier) found inside
  · rcases List.mem_cons.mp member with rfl | earlier
    · rw [field] at inside
      simp at inside
    · rw [record] at earlier
      exact holds text earlier found inside

theorem Holds.record (holds : cursor.Holds property)
    (fed : cursor.feed limit character = .record fields next) :
    ∀ text ∈ fields, ∀ found ∈ text.toList, property found := by
  intro text member
  rcases (record_cases fed).2 with rfl | ⟨rfl, -⟩
  · exact holds text (List.mem_reverse.mp member)
  · cases member

theorem Holds.finish (holds : cursor.Holds property) :
    ∀ text ∈ cursor.finish.records.headD [], ∀ found ∈ text.toList, property found := by
  intro text member
  unfold Cursor.finish at member
  split at member
  · cases member
  · cases member
  · exact holds text (List.mem_reverse.mp member)

/-- The first field of the open record holds the mark. -/
def Marked (mark : Char → Prop) (cursor : Cursor) : Prop :=
  cursor.mode ≠ .startRecord ∧ cursor.mode ≠ .afterReturn ∧
    ∃ first ∈ cursor.saved.getLast?, ∃ character ∈ first.toList, mark character

variable {mark : Char → Prop}

theorem Marked.more (marked : cursor.Marked mark) (fed : cursor.feed limit character = .more next) :
    next.Marked mark := by
  obtain ⟨notStart, notReturn, first, last, found, inside, marks⟩ := marked
  obtain ⟨notAfter, started⟩ := mode_of_more fed
  refine ⟨fun start => notReturn (started start), notAfter, ?_⟩
  rcases more_cases fed with ⟨record, field⟩ | ⟨record, field⟩
  · cases saved : cursor.record with
    | nil =>
        rw [Cursor.saved, saved, List.getLast?_singleton, Option.mem_some_iff] at last
        rw [Cursor.saved, record, saved, List.getLast?_singleton]
        refine ⟨_, rfl, found, ?_, marks⟩
        rw [← last, String.toList_ofList, List.mem_reverse] at inside
        rw [String.toList_ofList, List.mem_reverse]
        rcases field with same | grown
        · rw [same]
          exact inside
        · rw [grown]
          exact List.mem_cons_of_mem _ inside
    | cons head tail =>
        rw [Cursor.saved, saved, List.getLast?_cons_cons] at last
        rw [Cursor.saved, record, saved, List.getLast?_cons_cons]
        exact ⟨first, last, found, inside, marks⟩
  · rw [Cursor.saved, record, field, Cursor.saved, List.getLast?_cons_cons]
    exact ⟨first, last, found, inside, marks⟩

theorem Marked.reversed (marked : cursor.Marked mark) :
    ∃ first ∈ cursor.saved.reverse.head?, ∃ character ∈ first.toList, mark character := by
  rw [List.head?_reverse]
  exact marked.2.2

theorem Marked.record (marked : cursor.Marked mark)
    (fed : cursor.feed limit character = .record fields next) :
    ∃ first ∈ fields.head?, ∃ character ∈ first.toList, mark character := by
  rcases (record_cases fed).2 with rfl | ⟨-, start | return_⟩
  · exact marked.reversed
  · exact absurd start marked.1
  · exact absurd return_ marked.2.1

theorem Marked.finish (marked : cursor.Marked mark) :
    ∃ first ∈ (cursor.finish.records.headD []).head?, ∃ character ∈ first.toList, mark character := by
  have ended : cursor.finish.records = [cursor.saved.reverse] := by
    unfold Cursor.finish
    split
    · rename_i start
      exact absurd start marked.1
    · rename_i return_
      exact absurd return_ marked.2.1
    · rfl
  rw [ended]
  exact marked.reversed

end Cursor

/-- A field of a line holds nothing but characters of the line. -/
theorem mem_of_readLine {property : Char → Prop} {text : List Char} {fields : List String}
    (allowed : ∀ character ∈ text, property character) :
    ∀ cursor : Cursor, cursor.Holds property → readLine limit cursor text = .ok fields →
      ∀ field ∈ fields, ∀ character ∈ field.toList, property character := by
  induction text with
  | nil =>
      intro cursor holds read
      obtain rfl := Except.ok.inj read
      exact holds.finish
  | cons character rest ih =>
      intro cursor holds read
      rw [readLine] at read
      cases fed : cursor.feed limit character with
      | more next =>
          rw [fed] at read
          exact ih (fun other member => allowed other (List.mem_cons_of_mem _ member)) next
            (holds.more (allowed character List.mem_cons_self) fed) read
      | record taken next =>
          rw [fed] at read
          dsimp only at read
          split_ifs at read
          obtain rfl := Except.ok.inj read
          exact holds.record fed
      | tooLong =>
          rw [fed] at read
          cases read

theorem marked_of_readLine {mark : Char → Prop} {text : List Char} {fields : List String} :
    ∀ cursor : Cursor, cursor.Marked mark → readLine limit cursor text = .ok fields →
      ∃ first ∈ fields.head?, ∃ character ∈ first.toList, mark character := by
  induction text with
  | nil =>
      intro cursor marked read
      obtain rfl := Except.ok.inj read
      exact marked.finish
  | cons character rest ih =>
      intro cursor marked read
      rw [readLine] at read
      cases fed : cursor.feed limit character with
      | more next =>
          rw [fed] at read
          exact ih next (marked.more fed) read
      | record taken next =>
          rw [fed] at read
          dsimp only at read
          split_ifs at read
          obtain rfl := Except.ok.inj read
          exact marked.record fed
      | tooLong =>
          rw [fed] at read
          cases read

/-- A quote inside an unquoted field is a character of it, and the comma behind one that opens the
line belongs to the quoted field. -/
theorem marked_of_quote {rest tail : List Char} {fields : List String}
    (plain : rest.any special = false) (read : readLine limit .start (rest ++ '"' :: ',' :: tail) = .ok fields) :
    ∃ first ∈ fields.head?, ∃ character ∈ first.toList, character = ',' ∨ character = '"' := by
  have inside : ∀ (rest field : List Char), rest.any special = false →
      readLine limit ⟨.inField, field, []⟩ (rest ++ '"' :: ',' :: tail) = .ok fields →
      ∃ first ∈ fields.head?, ∃ character ∈ first.toList, character = ',' ∨ character = '"' := by
    intro rest
    induction rest with
    | nil =>
        intro field _ read
        rw [List.nil_append, readLine] at read
        by_cases full : limit ≤ field.length
        · simp [Cursor.feed, Cursor.add, full] at read
        · simp only [Cursor.feed, Cursor.add, full, Char.reduceEq, or_self, if_false] at read
          exact marked_of_readLine _ ⟨by simp, by simp, _, rfl, '"', by simp, .inr rfl⟩ read
    | cons character rest ih =>
        intro field plain read
        obtain ⟨ordinary, others⟩ := Bool.or_eq_false_iff.mp (List.any_cons.symm.trans plain)
        simp only [special, Bool.or_eq_false_iff, decide_eq_false_iff_not] at ordinary
        obtain ⟨⟨⟨comma, -⟩, feedChar⟩, returnChar⟩ := ordinary
        rw [List.cons_append, readLine] at read
        by_cases full : limit ≤ field.length
        · simp [Cursor.feed, Cursor.add, comma, feedChar, returnChar, full] at read
        · simp only [Cursor.feed, Cursor.add, comma, feedChar, returnChar, full, or_self, if_false] at read
          exact ih _ others read
  cases rest with
  | nil =>
      rw [List.nil_append, readLine] at read
      simp only [Cursor.start, Cursor.feed, Cursor.feedRecord, Cursor.feedField, Char.reduceEq, or_self,
        if_false, if_true] at read
      rw [readLine] at read
      by_cases full : limit ≤ 0
      · simp [Cursor.feed, Cursor.add, Nat.le_zero.mp full] at read
      · simp only [Cursor.feed, Cursor.add, List.length_nil, full, Char.reduceEq, if_false] at read
        exact marked_of_readLine _ ⟨by simp, by simp, _, rfl, ',', by simp, .inl rfl⟩ read
  | cons character rest =>
      obtain ⟨ordinary, others⟩ := Bool.or_eq_false_iff.mp (List.any_cons.symm.trans plain)
      simp only [special, Bool.or_eq_false_iff, decide_eq_false_iff_not] at ordinary
      obtain ⟨⟨⟨comma, quote⟩, feedChar⟩, returnChar⟩ := ordinary
      rw [List.cons_append, readLine] at read
      by_cases full : limit ≤ 0
      · simp [Cursor.start, Cursor.feed, Cursor.feedRecord, Cursor.feedField, Cursor.add, comma, quote,
          feedChar, returnChar, Nat.le_zero.mp full] at read
      · simp only [Cursor.start, Cursor.feed, Cursor.feedRecord, Cursor.feedField, Cursor.add, comma, quote,
          feedChar, returnChar, List.length_nil, full, or_self, if_false] at read
        exact inside rest _ others read

/-- What the scanner makes of a terminated line, the line reader makes of the line. -/
theorem readLine_of_scan {text : List Char} {fields : List String}
    (unbroken : ∀ character ∈ text, character ≠ '\n' ∧ character ≠ '\r')
    (clean : ∀ field ∈ fields, '\n' ∉ field.toList) :
    ∀ cursor : Cursor, scan limit cursor (text ++ ['\r', '\n']) = ⟨[fields], none⟩ →
      readLine limit cursor text = .ok fields := by
  induction text with
  | nil =>
      rintro ⟨mode, field, record⟩ read
      cases mode
      case inQuotedField =>
        exfalso
        by_cases full : limit ≤ field.length
        · simp [scan, Cursor.feed, Cursor.add, full] at read
        · by_cases more : limit ≤ field.length + 1
          · simp [scan, Cursor.feed, Cursor.add, full, more] at read
          · simp only [List.nil_append, scan, Cursor.feed, Cursor.add, Cursor.finish, full, more,
              List.length_cons, Char.reduceEq, if_false, Stream.mk.injEq, List.cons.injEq, and_true] at read
            refine clean (String.ofList ('\n' :: '\r' :: field).reverse) ?_ (by simp)
            rw [← read, List.mem_reverse]
            exact List.mem_cons_self
      all_goals
        simp [scan, Cursor.feed, Cursor.feedRecord, Cursor.feedField, Cursor.endRecord, Cursor.finish,
          Stream.cons] at read
        simp [readLine, Cursor.finish, read]
  | cons character rest ih =>
      intro cursor read
      rw [List.cons_append, scan] at read
      rw [readLine]
      cases fed : cursor.feed limit character with
      | more next =>
          rw [fed] at read
          exact ih (fun other member => unbroken other (List.mem_cons_of_mem _ member)) next read
      | record taken next =>
          have plain := unbroken character List.mem_cons_self
          exact absurd (Cursor.record_cases fed).1 (not_or.mpr plain)
      | tooLong =>
          rw [fed] at read
          cases read

theorem mem_doubled {text : List Char} {character : Char} (member : character ∈ doubled text) :
    character ∈ text := by
  induction text with
  | nil => cases member
  | cons first rest ih =>
      unfold doubled at member
      split_ifs at member with quote
      · rcases List.mem_cons.mp member with rfl | again
        · exact quote ▸ List.mem_cons_self
        · rcases List.mem_cons.mp again with rfl | later
          · exact quote ▸ List.mem_cons_self
          · exact List.mem_cons_of_mem _ (ih later)
      · rcases List.mem_cons.mp member with rfl | later
        · exact List.mem_cons_self
        · exact List.mem_cons_of_mem _ (ih later)

theorem mem_encodeField {field : String} {character : Char} (member : character ∈ encodeField field) :
    character = '"' ∨ character ∈ field.toList := by
  unfold encodeField at member
  split_ifs at member
  · rcases List.mem_append.mp member with front | back
    · rcases List.mem_cons.mp front with quote | inner
      · exact .inl quote
      · exact .inr (mem_doubled inner)
    · exact .inl (List.mem_singleton.mp back)
  · exact .inr member

/-- The writer adds nothing but commas and quotes to the fields. -/
theorem mem_encodeFields {fields : List String} {character : Char}
    (member : character ∈ encodeFields fields) :
    character = ',' ∨ character = '"' ∨ ∃ field ∈ fields, character ∈ field.toList := by
  induction fields with
  | nil => cases member
  | cons field rest ih =>
      have own (inField : character ∈ encodeField field) :
          character = ',' ∨ character = '"' ∨ ∃ other ∈ field :: rest, character ∈ other.toList := by
        rcases mem_encodeField inField with quote | inside
        · exact .inr (.inl quote)
        · exact .inr (.inr ⟨field, List.mem_cons_self, inside⟩)
      cases rest with
      | nil => exact own member
      | cons next others =>
          rw [encodeFields, List.mem_append, List.mem_cons] at member
          · rcases member with inField | comma | later
            · exact own inField
            · exact .inl comma
            · rcases ih later with comma | quote | ⟨other, listed, inside⟩
              · exact .inl comma
              · exact .inr (.inl quote)
              · exact .inr (.inr ⟨other, List.mem_cons_of_mem _ listed, inside⟩)
          · simp

/-- A line of fields without a line break is read back. -/
theorem readLine_encodeFields {fields : List String} (several : fields ≠ [""])
    (fits : ∀ field ∈ fields, field.toList.length ≤ limit)
    (unbroken : ∀ field ∈ fields, '\n' ∉ field.toList ∧ '\r' ∉ field.toList) :
    readLine limit .start (encodeFields fields) = .ok fields := by
  have scanned := scan_encodeRecord fields [] fits
  rw [encodeRecord, if_neg several, List.append_nil] at scanned
  refine readLine_of_scan ?_ (fun field member => (unbroken field member).1) .start scanned
  intro character member
  rcases mem_encodeFields member with rfl | rfl | ⟨field, listed, inside⟩
  · decide
  · decide
  · constructor
    · rintro rfl
      exact (unbroken field listed).1 inside
    · rintro rfl
      exact (unbroken field listed).2 inside

theorem doubled_append (front back : List Char) :
    doubled (front ++ back) = doubled front ++ doubled back := by
  induction front with
  | nil => rfl
  | cons character front ih =>
      rw [List.cons_append, doubled, doubled]
      split_ifs
      · rw [ih]
        rfl
      · rw [ih]
        rfl

theorem doubled_eq_self {text : List Char} (plain : '"' ∉ text) : doubled text = text := by
  induction text with
  | nil => rfl
  | cons character text ih =>
      rw [List.mem_cons, not_or] at plain
      rw [doubled, if_neg (Ne.symm plain.1), ih plain.2]

/-- Where the text of a field ends, a quoted field has one more quote. -/
theorem encodeField_ends {field : String} {front rest : List Char} {mark : Char}
    (text : field.toList = front ++ mark :: rest) (plain : '"' ∉ mark :: rest) :
    ∃ before, encodeField field = before ++ mark :: rest ∨
      encodeField field = before ++ mark :: (rest ++ ['"']) := by
  unfold encodeField
  split_ifs
  · refine ⟨'"' :: doubled front, .inr ?_⟩
    rw [text, doubled_append, doubled_eq_self plain]
    simp
  · exact ⟨front, .inl text⟩

/-- The fields behind one field of a record. -/
theorem encodeFields_append (front : List String) (field : String) {rest : List String}
    (more : rest ≠ []) : ∃ before,
      encodeFields (front ++ field :: rest) = before ++ encodeField field ++ ',' :: encodeFields rest := by
  induction front with
  | nil =>
      refine ⟨[], ?_⟩
      rw [List.nil_append, List.nil_append, encodeFields]
      exact more
  | cons first front ih =>
      obtain ⟨before, whole⟩ := ih
      refine ⟨encodeField first ++ ',' :: before, ?_⟩
      rw [List.cons_append, encodeFields, whole]
      · simp
      · simp

end Foundation.Csv
