import MarketdataProvider.Core.Reference
import MarketdataProvider.Core.Timeframe

namespace MarketdataProvider

open Foundation

def binanceIntervals : List (String × String) :=
  [("1s", "1s"), ("1", "1m"), ("1m", "1m"), ("3", "3m"), ("3m", "3m"), ("5", "5m"), ("5m", "5m"),
    ("15", "15m"), ("15m", "15m"), ("30", "30m"), ("30m", "30m"), ("60", "1h"), ("60m", "1h"),
    ("1h", "1h"), ("120", "2h"), ("120m", "2h"), ("2h", "2h"), ("240", "4h"), ("240m", "4h"),
    ("4h", "4h"), ("360", "6h"), ("360m", "6h"), ("6h", "6h"), ("720", "12h"), ("720m", "12h"),
    ("12h", "12h"), ("D", "1d"), ("1D", "1d"), ("1d", "1d"), ("W", "1w"), ("1W", "1w"),
    ("1w", "1w"), ("M", "1M"), ("1M", "1M")]

def bybitIntervals : List (String × String) :=
  [("1", "1"), ("1m", "1"), ("3", "3"), ("3m", "3"), ("5", "5"), ("5m", "5"), ("15", "15"),
    ("15m", "15"), ("30", "30"), ("30m", "30"), ("60", "60"), ("1h", "60"), ("120", "120"),
    ("2h", "120"), ("240", "240"), ("4h", "240"), ("360", "360"), ("6h", "360"), ("720", "720"),
    ("12h", "720"), ("D", "D"), ("1D", "D"), ("1d", "D"), ("W", "W"), ("1W", "W"), ("1w", "W"),
    ("M", "M"), ("1M", "M")]

section Tables

variable [PyText]

/-- The text itself is looked up first, and its canonical form after it. -/
def exchangeInterval (table : List (String × String)) (tf : String) : Except PyError String := do
  let canonical ← canonicalTimeframe tf
  match (table.lookup tf).or (table.lookup canonical) with
  | some interval => .ok interval
  | none => .error (.mdTimeframeUnsupported ("Unsupported exchange timeframe: " ++ tf))

def toBinanceInterval (tf : String) : Except PyError String := exchangeInterval binanceIntervals tf

def toBybitInterval (tf : String) : Except PyError String := exchangeInterval bybitIntervals tf

/-- Every interval stands in the table under a text of the same canonical form. -/
theorem spelled_of_exchangeInterval {table : List (String × String)} {tf interval : String}
    (mapped : exchangeInterval table tf = .ok interval) :
    ∃ entry ∈ table, entry.2 = interval ∧ canonicalTimeframe entry.1 = canonicalTimeframe tf := by
  obtain ⟨canonical, accepted, found⟩ := bind_eq_ok.mp mapped
  have member {text : String} (known : table.lookup text = some interval) :
      (text, interval) ∈ table := by
    obtain ⟨front, back, same, -⟩ := List.lookup_eq_some_iff.mp known
    simp [same]
  cases own : table.lookup tf with
  | some other =>
      simp only [own, Option.some_or, Except.ok.injEq] at found
      exact ⟨(tf, interval), member (found ▸ own), rfl, rfl⟩
  | none =>
      simp only [own, Option.none_or] at found
      split at found
      · rename_i other known
        obtain rfl := Except.ok.inj found
        exact ⟨(canonical, other), member known, rfl,
          (canonicalTimeframe_idempotent accepted).trans accepted.symm⟩
      · cases found

end Tables

section Ascii

open Reference
open scoped Reference

variable (text : PyText)

/-- The Unicode tables agree on the letters and digits of ASCII. -/
structure AgreesAt (character : Char) : Prop where
  space : text.isSpace character = asciiSpace character
  digit : text.isDigit character = character.isDigit
  decimal : text.decimal character = asciiDecimal character

theorem agreesAt_of_isAlphanum {character : Char} (plain : character.isAlphanum = true) :
    AgreesAt text character := by
  have space : text.isSpace character = asciiSpace character := by
    rw [text.isSpace_ascii character plain, asciiSpace_of_isAlphanum plain]
  rcases Bool.or_eq_true_iff.mp plain with letter | digit
  · refine ⟨space, ?_, ?_⟩
    · rw [text.isDigit_letter character letter, not_isDigit_of_isAlpha letter]
    · rw [text.decimal_letter character letter]
      simp [asciiDecimal, not_isDigit_of_isAlpha letter]
  · have range := (isDigit_iff character).mp digit
    have named : Nat.digitChar (character.toNat - 48) = character := by
      have table : ∀ code < 58, 48 ≤ code → Nat.digitChar (code - 48) = Char.ofNat code := by decide
      rw [table character.toNat (by omega) range.1, Char.ofNat_toNat]
    have value : text.decimal character = some (character.toNat - 48) := by
      have known := text.decimal_ascii (character.toNat - 48) (by omega)
      rwa [named] at known
    refine ⟨space, ?_, ?_⟩
    · rw [text.isDigit_decimal character _ value, digit]
    · rw [value]
      simp [asciiDecimal, digit]

/-- So a timeframe of ASCII letters and digits has one canonical form for all of them. -/
theorem canonicalTimeframe_ascii {tf : String} (plain : tf.toList.all Char.isAlphanum = true) :
    @canonicalTimeframe text tf = @canonicalTimeframe asciiText tf := by
  have agrees (character : Char) (member : character ∈ tf.toList) : AgreesAt text character :=
    agreesAt_of_isAlphanum text (List.all_eq_true.mp plain character member)
  have noSpace (known : PyText) (same : ∀ character ∈ tf.toList, known.isSpace character = false) :
      @strip known tf.toList = tf.toList := by
    have front (characters : List Char) (within : ∀ character ∈ characters, character ∈ tf.toList) :
        characters.dropWhile known.isSpace = characters := by
      cases characters with
      | nil => rfl
      | cons first rest =>
          rw [List.dropWhile_cons, same first (within first List.mem_cons_self)]
          simp
    rw [strip, front _ (fun _ member => member), front _ (fun _ => List.mem_reverse.mp),
      List.reverse_reverse]
  have ascii (character : Char) (member : character ∈ tf.toList) : asciiSpace character = false :=
    asciiSpace_of_isAlphanum (List.all_eq_true.mp plain character member)
  have stripped : @strip text tf.toList = tf.toList :=
    noSpace text fun character member => (agrees character member).space.trans (ascii character member)
  have asciiStripped : @strip asciiText tf.toList = tf.toList := noSpace asciiText ascii
  have digits : tf.toList.all text.isDigit = tf.toList.all asciiText.isDigit := by
    rw [Bool.eq_iff_iff, List.all_eq_true, List.all_eq_true]
    apply forall₂_congr
    intro character member
    rw [(agrees character member).digit]
    rfl
  have values (characters : List Char) (within : ∀ character ∈ characters, character ∈ tf.toList) :
      @intOfDigits text characters = @intOfDigits asciiText characters := by
    unfold intOfDigits
    generalize 0 = start
    induction characters generalizing start with
    | nil => rfl
    | cons first rest ih =>
        rw [List.foldlM_cons, List.foldlM_cons, (agrees first (within first List.mem_cons_self)).decimal]
        apply congrArg
        funext value
        exact ih (fun character member => within character (List.mem_cons_of_mem _ member)) value
  have matched : @fixedTimeframe text tf.toList = @fixedTimeframe asciiText tf.toList := by
    unfold fixedTimeframe
    rw [values _ fun _ member => List.dropLast_subset _ member]
  have whole := values tf.toList fun _ member => member
  unfold canonicalTimeframe
  rw [stripped, asciiStripped]
  simp only [digits, matched, whole]

end Ascii

section Units

variable [PyText]

/-- The letter that names the unit of a canonical timeframe. -/
def timeframeLetter (canonical : String) : Option Char := canonical.toList.getLast?

/-- Two timeframes of one duration, or of one interval of an exchange. -/
def SameInterval (first second : String) : Prop :=
  (∃ span, timeframeMs first = .ok span ∧ timeframeMs second = .ok span) ∨
    (∃ interval, toBinanceInterval first = .ok interval ∧ toBinanceInterval second = .ok interval) ∨
      ∃ interval, toBybitInterval first = .ok interval ∧ toBybitInterval second = .ok interval

omit [PyText] in
theorem CanonicalUnit.not_calendar {unit : Char} (canonical : CanonicalUnit unit) :
    unit ≠ 'D' ∧ unit ≠ 'W' ∧ unit ≠ 'M' := by
  rcases canonical with rfl | rfl | rfl | rfl <;> decide

theorem timeframeMs_fixed (count : Nat) {unit : Char} (canonical : CanonicalUnit unit) {span : Int}
    (timed : timeframeMs (String.ofList (Nat.toDigits 10 count ++ [unit])) = .ok span) :
    ∃ factor, fixedUnit unit = some factor ∧ span = count * factor := by
  rw [timeframeMs, canonicalTimeframe_fixed count canonical, ok_bind, String.toList_ofList] at timed
  have ended (letter : Char) (different : unit ≠ letter) :
      Nat.toDigits 10 count ++ [unit] ≠ ['1', letter] := by
    intro equal
    have parts : Nat.toDigits 10 count ++ [unit] = ['1'] ++ [letter] := equal
    exact different (List.append_inj' parts rfl |>.2 |> List.singleton_inj.mp)
  dsimp only at timed
  rw [if_neg (ended 'D' canonical.not_calendar.1), if_neg (ended 'W' canonical.not_calendar.2.1),
    if_neg (ended 'M' canonical.not_calendar.2.2), List.getLast?_concat, Option.bind_some,
    List.dropLast_concat, intOfDigits_toDigits] at timed
  cases known : fixedUnit unit with
  | none => simp [known] at timed
  | some factor =>
      simp only [known, Except.ok.injEq] at timed
      exact ⟨factor, rfl, timed.symm⟩

omit [PyText] in
theorem fixedUnit_pos {unit : Char} {factor : Int} (known : fixedUnit unit = some factor) : 0 < factor := by
  unfold fixedUnit at known
  split_ifs at known <;> obtain rfl := Option.some.inj known <;> decide

omit [PyText] in
theorem letter_fixed (count : Nat) (unit : Char) :
    timeframeLetter (String.ofList (Nat.toDigits 10 count ++ [unit])) = some unit := by
  rw [timeframeLetter, String.toList_ofList, List.getLast?_concat]

/-- A unit and a duration determine the canonical text. -/
theorem CanonicalForm.eq_of_timeframeMs {first second : String} (form : CanonicalForm first)
    (other : CanonicalForm second) {span : Int} (timed : timeframeMs first = .ok span)
    (same : timeframeMs second = .ok span) (letter : timeframeLetter first = timeframeLetter second) :
    first = second := by
  cases form with
  | day =>
      cases other with
      | day => rfl
      | week => cases letter
      | month => cases letter
      | fixed count canonical =>
          rw [letter_fixed] at letter
          exact absurd (Option.some.inj letter).symm canonical.not_calendar.1
  | week =>
      cases other with
      | day => cases letter
      | week => rfl
      | month => cases letter
      | fixed count canonical =>
          rw [letter_fixed] at letter
          exact absurd (Option.some.inj letter).symm canonical.not_calendar.2.1
  | month =>
      cases other with
      | day => cases letter
      | week => cases letter
      | month => rfl
      | fixed count canonical =>
          rw [letter_fixed] at letter
          exact absurd (Option.some.inj letter).symm canonical.not_calendar.2.2
  | fixed count canonical =>
      cases other with
      | day =>
          rw [letter_fixed] at letter
          exact absurd (Option.some.inj letter) canonical.not_calendar.1
      | week =>
          rw [letter_fixed] at letter
          exact absurd (Option.some.inj letter) canonical.not_calendar.2.1
      | month =>
          rw [letter_fixed] at letter
          exact absurd (Option.some.inj letter) canonical.not_calendar.2.2
      | fixed number unit =>
          rw [letter_fixed, letter_fixed] at letter
          obtain rfl := Option.some.inj letter
          obtain ⟨factor, known, rfl⟩ := timeframeMs_fixed count canonical timed
          obtain ⟨again, alike, product⟩ := timeframeMs_fixed number unit same
          obtain rfl : factor = again := Option.some.inj (known.symm.trans alike)
          have equal := Int.eq_of_mul_eq_mul_right (fixedUnit_pos known).ne' product
          rw [Int.ofNat_inj.mp equal]

/-- In a table each interval is spelled in one way for each unit. -/
structure SpelledOnce (table : List (String × String)) : Prop where
  plain : (table.all fun entry => entry.1.toList.all Char.isAlphanum) = true
  once : (table.all fun left => table.all fun right => left.2 ≠ right.2 ||
    ((@canonicalTimeframe Reference.asciiText left.1).toOption.bind timeframeLetter ≠
        (@canonicalTimeframe Reference.asciiText right.1).toOption.bind timeframeLetter ||
      (@canonicalTimeframe Reference.asciiText left.1).toOption =
        (@canonicalTimeframe Reference.asciiText right.1).toOption)) = true

theorem canonical_eq_of_exchangeInterval {table : List (String × String)} (spelled : SpelledOnce table)
    {first second interval canonical other : String}
    (mapped : exchangeInterval table first = .ok interval)
    (same : exchangeInterval table second = .ok interval)
    (accepted : canonicalTimeframe first = .ok canonical)
    (acceptedOther : canonicalTimeframe second = .ok other)
    (letter : timeframeLetter canonical = timeframeLetter other) : canonical = other := by
  obtain ⟨left, leftMember, rfl, leftSame⟩ := spelled_of_exchangeInterval mapped
  obtain ⟨right, rightMember, equal, rightSame⟩ := spelled_of_exchangeInterval same
  have plain (entry : String × String) (member : entry ∈ table) :
      entry.1.toList.all Char.isAlphanum = true := List.all_eq_true.mp spelled.plain entry member
  rw [accepted, canonicalTimeframe_ascii _ (plain left leftMember)] at leftSame
  rw [acceptedOther, canonicalTimeframe_ascii _ (plain right rightMember)] at rightSame
  have once := List.all_eq_true.mp (List.all_eq_true.mp spelled.once left leftMember) right rightMember
  rw [leftSame, rightSame] at once
  simpa [Except.toOption, equal, letter] using once

end Units

theorem binanceIntervals_spelledOnce : SpelledOnce binanceIntervals :=
  ⟨by decide +kernel, by decide +kernel⟩

theorem bybitIntervals_spelledOnce : SpelledOnce bybitIntervals :=
  ⟨by decide +kernel, by decide +kernel⟩

section Series

variable [PyText]

/-- Timeframes of one interval have one canonical form exactly when it is written in one unit. -/
theorem canonical_eq_iff {first second canonical other : String} (same : SameInterval first second)
    (accepted : canonicalTimeframe first = .ok canonical)
    (acceptedOther : canonicalTimeframe second = .ok other) :
    canonical = other ↔ timeframeLetter canonical = timeframeLetter other := by
  refine ⟨fun equal => congrArg _ equal, fun letter => ?_⟩
  rcases same with ⟨span, timed, timedOther⟩ | ⟨interval, mapped, mappedOther⟩ |
    ⟨interval, mapped, mappedOther⟩
  · rw [← timeframeMs_canonical accepted] at timed
    rw [← timeframeMs_canonical acceptedOther] at timedOther
    exact (canonicalForm_of_accepted accepted).eq_of_timeframeMs
      (canonicalForm_of_accepted acceptedOther) timed timedOther letter
  · exact canonical_eq_of_exchangeInterval binanceIntervals_spelledOnce mapped mappedOther accepted
      acceptedOther letter
  · exact canonical_eq_of_exchangeInterval bybitIntervals_spelledOnce mapped mappedOther accepted
      acceptedOther letter

end Series

end MarketdataProvider
