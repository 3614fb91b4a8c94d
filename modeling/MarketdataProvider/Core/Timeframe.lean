import MarketdataProvider.Core.Python
import Mathlib.Data.List.DropRight

namespace MarketdataProvider

variable [PyText]

/-- `int(digits)` over the characters that `\d` matches. -/
def intOfDigits (digits : List Char) : Option Nat :=
  digits.foldlM (fun value digit => (PyText.decimal digit).map (10 * value + ·)) 0

/-- The last character of the fixed pattern, matched without case and lowered. -/
def timeframeUnit (character : Char) : Option Char :=
  if character = 's' ∨ character = 'S' then some 's'
  else if character = 'm' ∨ character = 'M' then some 'm'
  else if character = 'h' ∨ character = 'H' then some 'h'
  else if character = 'd' ∨ character = 'D' then some 'd'
  else if character = 'ſ' then some 'ſ'
  else none

/-- `re.fullmatch(r"(\d+)([smhd])", raw, re.IGNORECASE)` with its two groups converted. -/
def fixedTimeframe (raw : List Char) : Option (Nat × Char) :=
  match raw.getLast?.bind timeframeUnit with
  | none => none
  | some unit =>
      if raw.dropLast = [] then none
      else (intOfDigits raw.dropLast).map fun count => (count, unit)

def unsupportedTimeframe (tf : String) : PyError :=
  .mdTimeframeUnsupported ("Unsupported timeframe: " ++ tf)

def canonicalTimeframe (tf : String) : Except PyError String :=
  let raw := strip tf.toList
  if raw = ['D'] ∨ raw = ['1', 'D'] ∨ raw = ['1', 'd'] then .ok "1D"
  else if raw = ['W'] ∨ raw = ['1', 'W'] ∨ raw = ['1', 'w'] then .ok "1W"
  else if raw = ['M'] ∨ raw = ['1', 'M'] then .ok "1M"
  else if raw ≠ [] ∧ raw.all PyText.isDigit then
    match intOfDigits raw with
    | none => .error (.valueError "invalid literal for int() with base 10")
    | some minutes => .ok (String.ofList (Nat.toDigits 10 minutes ++ ['m']))
  else
    match fixedTimeframe raw with
    | none => .error (unsupportedTimeframe tf)
    | some (count, unit) =>
        if unit = 'd' then
          if count = 1 then .ok "1D"
          else .error (.mdTimeframeUnsupported "Only 1D calendar timeframe supported in Stage A")
        else .ok (String.ofList (Nat.toDigits 10 count ++ [unit]))

omit [PyText] in
def fixedUnit (unit : Char) : Option Int :=
  if unit = 's' then some 1000 else if unit = 'm' then some 60000
  else if unit = 'h' then some 3600000 else none

/-- The fixed pattern is matched with case here, so that the long s is refused. -/
def timeframeMs (tf : String) : Except PyError Int := do
  let canonical := (← canonicalTimeframe tf).toList
  if canonical = ['1', 'D'] then .ok 86400000
  else if canonical = ['1', 'W'] then .ok (7 * 86400000)
  else if canonical = ['1', 'M'] then
    .error (.mdTimeframeUnsupported "1M has variable length; use close_time_ms")
  else
    match canonical.getLast?.bind fixedUnit, intOfDigits canonical.dropLast with
    | some unit, some count => .ok (count * unit)
    | _, _ => .error .assertionError

theorem intOfDigits_append (digits : List Char) (digit : Char) :
    intOfDigits (digits ++ [digit]) = (intOfDigits digits).bind fun value =>
      (PyText.decimal digit).map (10 * value + ·) := by
  simp [intOfDigits, List.foldlM_append]

theorem intOfDigits_toDigits (count : Nat) : intOfDigits (Nat.toDigits 10 count) = some count := by
  induction count using Nat.strongRecOn with
  | _ count ih =>
      by_cases small : count < 10
      · rw [Nat.toDigits_of_lt_base small]
        simp [intOfDigits, PyText.decimal_ascii count small]
      · rw [Nat.toDigits_of_base_le (by decide) (by omega), intOfDigits_append,
          ih (count / 10) (by omega)]
        have digit := PyText.decimal_ascii (count % 10) (by omega)
        simp only [Option.bind_some, digit, Option.map_some, Option.some.injEq]
        omega

theorem strip_eq_self {text : List Char} {first last : Char} {front back : List Char}
    (starts : text = first :: back) (ends : text = front ++ [last])
    (firstPlain : PyText.isSpace first = false) (lastPlain : PyText.isSpace last = false) :
    strip text = text := by
  have left : text.dropWhile PyText.isSpace = text := by
    rw [starts, List.dropWhile_cons, firstPlain]
    simp
  have right : text.reverse.dropWhile PyText.isSpace = text.reverse := by
    rw [ends, List.reverse_append, List.reverse_singleton, List.singleton_append,
      List.dropWhile_cons, lastPlain]
    simp
  rw [strip, left, right, List.reverse_reverse]

theorem strip_strip (text : List Char) : strip (strip text) = strip text := by
  have shape (characters : List Char) : strip characters =
      (characters.dropWhile PyText.isSpace).rdropWhile PyText.isSpace := rfl
  have front : (strip text).dropWhile PyText.isSpace = strip text := by
    cases same : strip text with
    | nil => rfl
    | cons first rest =>
        have start : first :: rest <+: text.dropWhile PyText.isSpace := by
          rw [← same, shape]
          exact List.rdropWhile_prefix _ _
        obtain ⟨back, whole⟩ := start
        have kept := List.dropWhile_idempotent PyText.isSpace text
        rw [← whole, List.cons_append, List.dropWhile_cons] at kept
        by_cases space : PyText.isSpace first = true
        · rw [if_pos space] at kept
          have shorter := congrArg List.length kept
          have bound := (List.dropWhile_suffix (l := rest ++ back) PyText.isSpace).length_le
          rw [List.length_cons] at shorter
          omega
        · rw [List.dropWhile_cons, if_neg space]
  rw [shape, front, shape, List.rdropWhile_idempotent]

theorem foldl_of_intDigits (value : Nat) {text : List Char} {digits : List Nat} {afterDigit : Bool}
    (plain : '_' ∉ text) (read : intDigits afterDigit text = some digits) :
    text.foldlM (fun value digit => (PyText.decimal digit).map (10 * value + ·)) value =
      some (digits.foldl (fun value digit => 10 * value + digit) value) := by
  induction text generalizing digits afterDigit value with
  | nil =>
      unfold intDigits at read
      split_ifs at read
      obtain rfl := Option.some.inj read
      rfl
  | cons character rest ih =>
      rw [List.mem_cons, not_or] at plain
      unfold intDigits at read
      rw [if_neg (Ne.symm plain.1)] at read
      split at read
      · cases read
      · rename_i digit found
        obtain ⟨others, tail, rfl⟩ := Option.map_eq_some_iff.mp read
        simp only [List.foldlM_cons, found, Option.map_some, List.foldl_cons]
        exact ih _ plain.2 tail

theorem pyInt_of_split {text body : List Char} {negative : Bool} {value : Int}
    (split : splitSign (strip text) = (negative, body)) (read : pyInt text = some value) :
    ∃ digits, intDigits false body = some digits ∧
      value = if negative then -((digits.foldl (fun value digit => 10 * value + digit) 0 : Nat) : Int)
        else (digits.foldl (fun value digit => 10 * value + digit) 0 : Nat) := by
  rw [pyInt, split] at read
  dsimp only at read
  split at read
  · cases read
  · rename_i digits found
    split_ifs at read
    all_goals exact ⟨digits, found, by simp_all⟩

omit [PyText] in
theorem isDigit_toDigits {count : Nat} {character : Char} (member : character ∈ Nat.toDigits 10 count) :
    character.isDigit = true :=
  Nat.isDigit_of_mem_toDigits (by decide) (by decide) member

omit [PyText] in
theorem toList_toString (value : Int) :
    (toString value).toList = (if value < 0 then ['-'] else []) ++ Nat.toDigits 10 value.natAbs := by
  cases value with
  | ofNat count =>
      rw [if_neg (by simp)]
      simp [toString, Int.repr, Nat.repr]
  | negSucc count =>
      rw [if_pos (Int.negSucc_lt_zero count)]
      simp [toString, Int.repr, Nat.repr]

omit [PyText] in
theorem splitSign_toString (value : Int) :
    splitSign (toString value).toList = (decide (value < 0), Nat.toDigits 10 value.natAbs) := by
  rw [toList_toString]
  by_cases negative : value < 0
  · rw [if_pos negative, decide_eq_true negative]
    rfl
  · rw [if_neg negative, decide_eq_false negative, List.nil_append]
    have others (mark : Char) (notDigit : mark.isDigit = false) (rest : List Char) :
        Nat.toDigits 10 value.natAbs ≠ mark :: rest := by
      intro same
      have digit := isDigit_toDigits
        (show mark ∈ Nat.toDigits 10 value.natAbs by rw [same]; exact List.mem_cons_self)
      rw [notDigit] at digit
      cases digit
    unfold splitSign
    split
    · rename_i rest same
      exact absurd same (others '-' (by decide) rest)
    · rename_i rest same
      exact absurd same (others '+' (by decide) rest)
    · rfl

theorem strip_toString (value : Int) :
    strip (toString value).toList = (toString value).toList := by
  have digit {character : Char} (member : character ∈ Nat.toDigits 10 value.natAbs) :
      PyText.isSpace character = false :=
    PyText.isSpace_ascii character (by simp [Char.isAlphanum, isDigit_toDigits member])
  obtain ⟨first, back, starts⟩ :=
    List.exists_cons_of_ne_nil (Nat.toDigits_ne_nil (n := value.natAbs) (b := 10))
  obtain ⟨front, last, ends⟩ :=
    (List.eq_nil_or_concat' (Nat.toDigits 10 value.natAbs)).resolve_left Nat.toDigits_ne_nil
  rw [toList_toString]
  by_cases negative : value < 0
  · rw [if_pos negative]
    exact strip_eq_self rfl (by rw [ends]; rfl : _ = ('-' :: front) ++ [last]) PyText.isSpace_minus
      (digit (by simp [ends]))
  · rw [if_neg negative, List.nil_append]
    exact strip_eq_self starts ends (digit (by simp [starts])) (digit (by simp [ends]))

/-- The decimal text of a number, read again. -/
theorem pyInt_toString {time value : Int}
    (read : pyInt (toString time).toList = some value) : value = time := by
  obtain ⟨digits, found, rfl⟩ :=
    pyInt_of_split ((congrArg _ (strip_toString time)).trans (splitSign_toString time)) read
  have plain : '_' ∉ Nat.toDigits 10 time.natAbs := fun member =>
    absurd (isDigit_toDigits member) (by decide)
  have folded := foldl_of_intDigits 0 plain found
  have count : digits.foldl (fun value digit => 10 * value + digit) 0 = time.natAbs :=
    Option.some.inj (folded.symm.trans (intOfDigits_toDigits time.natAbs))
  rw [count]
  by_cases negative : time < 0
  · rw [if_pos (decide_eq_true negative)]
    omega
  · rw [if_neg (by simpa using negative)]
    omega

theorem decimal_isDigit {digit : Char} (found : digit.isDigit = true) :
    ∃ value, PyText.decimal digit = some value := by
  have table : ∀ value < 10, Nat.digitChar value = Char.ofNat (48 + value) := by decide
  have bounds : 48 ≤ digit.toNat ∧ digit.toNat ≤ 57 := by
    simpa [Char.isDigit, UInt32.le_iff_toNat_le] using found
  have same := table (digit.toNat - 48) (by omega)
  rw [show 48 + (digit.toNat - 48) = digit.toNat by omega, Char.ofNat_toNat] at same
  exact ⟨_, same ▸ PyText.decimal_ascii (digit.toNat - 48) (by omega)⟩

theorem intDigits_of_digits {text : List Char} (plain : ∀ digit ∈ text, digit.isDigit = true)
    {afterDigit : Bool} (ends : text ≠ [] ∨ afterDigit = true) :
    ∃ values, intDigits afterDigit text = some values ∧ values.length = text.length := by
  induction text generalizing afterDigit with
  | nil =>
      obtain rfl := ends.resolve_left (not_not_intro rfl)
      exact ⟨[], rfl, rfl⟩
  | cons digit rest ih =>
      have own := plain digit List.mem_cons_self
      obtain ⟨value, decimal⟩ := decimal_isDigit own
      obtain ⟨values, later, length⟩ :=
        ih (fun other member => plain other (List.mem_cons_of_mem _ member)) (.inr rfl)
      have notMark : digit ≠ '_' := by
        rintro rfl
        cases own
      refine ⟨value :: values, ?_, congrArg (· + 1) length⟩
      rw [intDigits, if_neg notMark, decimal]
      exact congrArg (Option.map (value :: ·)) later

/-- A number of at most 4300 digits is read from its decimal text. -/
theorem pyInt_of_short {value : Int}
    (short : (Nat.toDigits 10 value.natAbs).length ≤ 4300) :
    pyInt (toString value).toList = some value := by
  obtain ⟨digits, found, length⟩ : ∃ digits, intDigits false (Nat.toDigits 10 value.natAbs) = some digits ∧
      digits.length = (Nat.toDigits 10 value.natAbs).length :=
    intDigits_of_digits (fun _ => isDigit_toDigits) (.inl Nat.toDigits_ne_nil)
  have read : (pyInt (toString value).toList).isSome = true := by
    rw [pyInt, strip_toString, splitSign_toString]
    dsimp only
    rw [found]
    dsimp only
    rw [if_neg (by omega)]
    rfl
  obtain ⟨other, same⟩ := Option.isSome_iff_exists.mp read
  rw [same, pyInt_toString same]

/-- The unit of a canonical fixed timeframe is a letter that stays as it is. -/
def CanonicalUnit (unit : Char) : Prop := unit = 's' ∨ unit = 'm' ∨ unit = 'h' ∨ unit = 'ſ'

theorem CanonicalUnit.letter {unit : Char} (canonical : CanonicalUnit unit) :
    PyText.isSpace unit = false ∧ PyText.isDigit unit = false ∧ timeframeUnit unit = some unit := by
  rcases canonical with rfl | rfl | rfl | rfl
  · exact ⟨PyText.isSpace_ascii _ (by decide), PyText.isDigit_letter _ (by decide), by decide⟩
  · exact ⟨PyText.isSpace_ascii _ (by decide), PyText.isDigit_letter _ (by decide), by decide⟩
  · exact ⟨PyText.isSpace_ascii _ (by decide), PyText.isDigit_letter _ (by decide), by decide⟩
  · exact ⟨PyText.longS_letter.1, PyText.longS_letter.2.2, by decide⟩

omit [PyText] in
theorem timeframeUnit_canonical {character unit : Char} (found : timeframeUnit character = some unit)
    (notDay : unit ≠ 'd') : CanonicalUnit unit := by
  unfold timeframeUnit at found
  unfold CanonicalUnit
  split_ifs at found <;> cases found <;> simp_all

/-- A fixed timeframe in canonical form is its own canonical form. -/
theorem canonicalTimeframe_fixed (count : Nat) {unit : Char} (canonical : CanonicalUnit unit) :
    canonicalTimeframe (String.ofList (Nat.toDigits 10 count ++ [unit])) =
      .ok (String.ofList (Nat.toDigits 10 count ++ [unit])) := by
  obtain ⟨notSpace, notDigit, same⟩ := canonical.letter
  have notDay : unit ≠ 'd' := by
    rintro rfl
    simp [CanonicalUnit] at canonical
  have notUpper : unit ≠ 'D' ∧ unit ≠ 'W' ∧ unit ≠ 'w' ∧ unit ≠ 'M' := by
    rcases canonical with rfl | rfl | rfl | rfl <;> decide
  obtain ⟨first, others, digits⟩ := List.exists_cons_of_ne_nil (Nat.toDigits_ne_nil (n := count) (b := 10))
  have isDigit : first.isDigit = true :=
    Nat.isDigit_of_mem_toDigits (by decide) (by decide) (digits ▸ List.mem_cons_self)
  have firstPlain : PyText.isSpace first = false :=
    PyText.isSpace_ascii first (by simp [Char.isAlphanum, isDigit])
  have stripped : strip (Nat.toDigits 10 count ++ [unit]) = Nat.toDigits 10 count ++ [unit] :=
    strip_eq_self (by rw [digits]; rfl) rfl firstPlain notSpace
  have last : (Nat.toDigits 10 count ++ [unit]).all PyText.isDigit = false := by
    simp [notDigit]
  have ended (text : List Char) (letter : Char) (different : unit ≠ letter) :
      Nat.toDigits 10 count ++ [unit] ≠ text ++ [letter] := by
    intro equal
    exact different (List.append_inj' equal rfl |>.2 |> List.singleton_inj.mp)
  have noDay : ¬ (Nat.toDigits 10 count ++ [unit] = ['D'] ∨
      Nat.toDigits 10 count ++ [unit] = ['1', 'D'] ∨ Nat.toDigits 10 count ++ [unit] = ['1', 'd']) := by
    rintro (equal | equal | equal)
    · exact ended [] 'D' notUpper.1 equal
    · exact ended ['1'] 'D' notUpper.1 equal
    · exact ended ['1'] 'd' notDay equal
  have noWeek : ¬ (Nat.toDigits 10 count ++ [unit] = ['W'] ∨
      Nat.toDigits 10 count ++ [unit] = ['1', 'W'] ∨ Nat.toDigits 10 count ++ [unit] = ['1', 'w']) := by
    rintro (equal | equal | equal)
    · exact ended [] 'W' notUpper.2.1 equal
    · exact ended ['1'] 'W' notUpper.2.1 equal
    · exact ended ['1'] 'w' notUpper.2.2.1 equal
  have noMonth : ¬ (Nat.toDigits 10 count ++ [unit] = ['M'] ∨
      Nat.toDigits 10 count ++ [unit] = ['1', 'M']) := by
    rintro (equal | equal)
    · exact ended [] 'M' notUpper.2.2.2 equal
    · exact ended ['1'] 'M' notUpper.2.2.2 equal
  have matched : fixedTimeframe (Nat.toDigits 10 count ++ [unit]) = some (count, unit) := by
    simp [fixedTimeframe, same, intOfDigits_toDigits, Nat.toDigits_ne_nil]
  simp only [canonicalTimeframe, String.toList_ofList, stripped, if_neg noDay, if_neg noWeek,
    if_neg noMonth, last, matched, if_neg notDay, Bool.false_eq_true, and_false, if_false]

theorem strip_calendar {letter : Char} (plain : letter.isAlphanum = true) :
    strip ['1', letter] = ['1', letter] :=
  strip_eq_self rfl (show _ = ['1'] ++ [letter] from rfl) (PyText.isSpace_ascii _ (by decide))
    (PyText.isSpace_ascii _ plain)

/-- What a canonical text looks like. -/
inductive CanonicalForm : String → Prop where
  | day : CanonicalForm "1D"
  | week : CanonicalForm "1W"
  | month : CanonicalForm "1M"
  | fixed (count : Nat) {unit : Char} (canonical : CanonicalUnit unit) :
      CanonicalForm (String.ofList (Nat.toDigits 10 count ++ [unit]))

theorem canonicalForm_of_accepted {tf canonical : String}
    (accepted : canonicalTimeframe tf = .ok canonical) : CanonicalForm canonical := by
  unfold canonicalTimeframe at accepted
  dsimp only at accepted
  split_ifs at accepted
  · cases accepted
    exact .day
  · cases accepted
    exact .week
  · cases accepted
    exact .month
  · split at accepted
    · cases accepted
    · cases accepted
      exact .fixed _ (.inr (.inl rfl))
  · split at accepted
    · cases accepted
    · rename_i count unit matched
      split_ifs at accepted
      · cases accepted
        exact .day
      · rename_i notDay
        cases accepted
        unfold fixedTimeframe at matched
        split at matched
        · cases matched
        · rename_i found unitFound
          split_ifs at matched
          obtain ⟨value, -, pair⟩ := Option.map_eq_some_iff.mp matched
          cases pair
          obtain ⟨character, -, lowered⟩ := Option.bind_eq_some_iff.mp unitFound
          exact .fixed count (timeframeUnit_canonical lowered notDay)

/-- A canonical text is its own canonical form. -/
theorem CanonicalForm.accepted {canonical : String} (form : CanonicalForm canonical) :
    canonicalTimeframe canonical = .ok canonical := by
  cases form with
  | day =>
      simp [canonicalTimeframe, show "1D".toList = ['1', 'D'] from rfl,
        strip_calendar (show 'D'.isAlphanum = true by decide)]
  | week =>
      simp [canonicalTimeframe, show "1W".toList = ['1', 'W'] from rfl,
        strip_calendar (show 'W'.isAlphanum = true by decide)]
  | month =>
      simp [canonicalTimeframe, show "1M".toList = ['1', 'M'] from rfl,
        strip_calendar (show 'M'.isAlphanum = true by decide)]
  | fixed count canonical => exact canonicalTimeframe_fixed count canonical

/-- The canonical form of a timeframe is a fixed point. -/
theorem canonicalTimeframe_idempotent {tf canonical : String}
    (accepted : canonicalTimeframe tf = .ok canonical) :
    canonicalTimeframe canonical = .ok canonical :=
  (canonicalForm_of_accepted accepted).accepted

/-- The duration belongs to the canonical text. -/
theorem timeframeMs_canonical {tf canonical : String} (accepted : canonicalTimeframe tf = .ok canonical) :
    timeframeMs canonical = timeframeMs tf := by
  rw [timeframeMs, timeframeMs, accepted, canonicalTimeframe_idempotent accepted]

omit [PyText] in
theorem fixedUnit_nonneg {unit : Char} {duration : Int} (known : fixedUnit unit = some duration) :
    0 ≤ duration := by
  unfold fixedUnit at known
  split_ifs at known
  all_goals
    cases known
    decide

theorem timeframeMs_nonneg {tf : String} {duration : Int} (known : timeframeMs tf = .ok duration) :
    0 ≤ duration := by
  rw [timeframeMs] at known
  cases accepted : canonicalTimeframe tf with
  | error error =>
      rw [accepted] at known
      cases known
  | ok canonical =>
      rw [accepted] at known
      dsimp only [bind, Except.bind] at known
      split_ifs at known
      · cases known
        decide
      · cases known
        decide
      · split at known
        · rename_i unit count unitKnown _
          cases known
          obtain ⟨character, -, fixed⟩ := Option.bind_eq_some_iff.mp unitKnown
          exact Int.mul_nonneg (Int.natCast_nonneg _) (fixedUnit_nonneg fixed)
        · cases known

end MarketdataProvider
