import MarketdataProvider.Core.Reference
import MarketdataProvider.Core.Timeframe

namespace MarketdataProvider

open Foundation

structure FloatAsymm (F : Type) [PyFloat F] : Prop where
  asymm : ∀ left right : F, PyFloat.lt left right = true → PyFloat.lt right left = false

/-- The order of floats without `nan`; equal values need not be the same, as with the two zeros. -/
structure FloatOrder (F : Type) [PyFloat F] : Prop extends FloatAsymm F where
  negTrans : ∀ low middle high : F, PyFloat.lt low middle = false → PyFloat.lt middle high = false →
    PyFloat.lt low high = false

/-- Exact arithmetic: a text has the same value as a float and as a decimal, and each number has a
text. -/
structure ExactDecimals (D F : Type) [PyFloat F] [PyDecimal D] [DecimalFloat D F] : Prop where
  order : FloatOrder F
  blank : PyFloat.ofStr "" = (none : Option F)
  str : ∀ value : F, PyFloat.ofStr (PyFloat.str value) = some value
  reads : ∀ text (value : F), PyFloat.ofStr text = some value →
    ∃ decimal : D, PyDecimal.ofStr text = some decimal ∧ DecimalFloat.toFloat decimal = value
  lt : ∀ left right : D, PyDecimal.lt left right =
    PyFloat.lt (DecimalFloat.toFloat left : F) (DecimalFloat.toFloat right)
  format : ∀ decimal : D, PyDecimal.ofStr (PyDecimal.format decimal) = some decimal ∧
    PyFloat.ofStr (PyDecimal.format decimal) = some (DecimalFloat.toFloat decimal : F)

/-- The order of all floats; only `nan` does not equal itself, and it is beside the order. -/
structure NumberOrder (F : Type) [PyFloat F] : Prop extends FloatAsymm F where
  negTrans : ∀ low middle high : F, PyFloat.eq middle middle = true → PyFloat.lt low middle = false →
    PyFloat.lt middle high = false → PyFloat.lt low high = false
  eq_iff : ∀ left right : F, PyFloat.eq left right = true ↔
    (PyFloat.eq left left = true ∧ PyFloat.eq right right = true) ∧
      PyFloat.lt left right = false ∧ PyFloat.lt right left = false

/-- A float rounds the decimal of its text, rounding keeps the order, and a decimal is read back from its
text. -/
structure DecimalRounding (D F : Type) [PyFloat F] [PyDecimal D] [DecimalFloat D F] : Prop where
  reads : ∀ text (value : F) (decimal : D), PyFloat.ofStr text = some value →
    PyDecimal.ofStr text = some decimal → DecimalFloat.toFloat decimal = value
  rounds : ∀ left right : D, PyDecimal.lt left right = false →
    PyFloat.lt (DecimalFloat.toFloat left : F) (DecimalFloat.toFloat right) = false
  asymm : ∀ left right : D, PyDecimal.lt left right = true → PyDecimal.lt right left = false
  format : ∀ decimal : D, PyFloat.ofStr (PyDecimal.format decimal) = some (DecimalFloat.toFloat decimal : F)

/-- The texts of decimals: a decimal is read back from its text, and the empty text is no number. -/
structure DecimalReading (D F : Type) [PyFloat F] [PyDecimal D] : Prop where
  format : ∀ decimal : D, PyDecimal.ofStr (PyDecimal.format decimal) = some decimal
  blank : PyDecimal.ofStr "" = (none : Option D)
  blankFloat : PyFloat.ofStr "" = (none : Option F)

section Order

variable {F : Type} [PyFloat F]

theorem FloatAsymm.irrefl (order : FloatAsymm F) (value : F) : PyFloat.lt value value = false := by
  by_contra below
  have greater := Bool.eq_true_of_not_eq_false below
  exact below (order.asymm value value greater)

/-- `max` is one of the values, and none of them is greater. -/
theorem FloatAsymm.max_spec (order : FloatAsymm F) (left right : F) :
    (PyFloat.max left right = left ∨ PyFloat.max left right = right) ∧
      PyFloat.lt (PyFloat.max left right) left = false ∧
      PyFloat.lt (PyFloat.max left right) right = false := by
  rw [PyFloat.max]
  by_cases greater : PyFloat.lt left right = true
  · rw [if_pos greater]
    exact ⟨.inr rfl, order.asymm left right greater, order.irrefl right⟩
  · rw [if_neg greater]
    exact ⟨.inl rfl, order.irrefl left, Bool.eq_false_of_not_eq_true greater⟩

theorem FloatAsymm.min_spec (order : FloatAsymm F) (left right : F) :
    (PyFloat.min left right = left ∨ PyFloat.min left right = right) ∧
      PyFloat.lt left (PyFloat.min left right) = false ∧
      PyFloat.lt right (PyFloat.min left right) = false := by
  rw [PyFloat.min]
  by_cases smaller : PyFloat.lt right left = true
  · rw [if_pos smaller]
    exact ⟨.inr rfl, order.asymm right left smaller, order.irrefl right⟩
  · rw [if_neg smaller]
    exact ⟨.inl rfl, order.irrefl left, Bool.eq_false_of_not_eq_true smaller⟩

end Order

section Texts

variable {F : Type} [PyFloat F]

/-- The text is there, and it is read as the number. -/
def TextOf (text : Option String) (number : F) : Prop :=
  ∃ written, text = some written ∧ PyFloat.ofStr written = some number

/-- The text is there, and it is read as the decimal. -/
def DecimalOf {D : Type} [PyDecimal D] (text : Option String) (decimal : D) : Prop :=
  ∃ written, text = some written ∧ PyDecimal.ofStr written = some decimal

/-- The text is there, and its number equals the given one. -/
def TextEquals (text : Option String) (number : F) : Prop :=
  ∃ value : F, TextOf text value ∧ PyFloat.eq value number = true

omit [PyFloat F] in
theorem DecimalOf.unique {D : Type} [PyDecimal D] {text : Option String} {first second : D}
    (left : DecimalOf text first) (right : DecimalOf text second) : first = second := by
  obtain ⟨written, rfl, read⟩ := left
  obtain ⟨same, given, again⟩ := right
  obtain rfl := Option.some.inj given
  exact Option.some.inj (read.symm.trans again)

variable {D : Type} [PyDecimal D] [DecimalFloat D F]

/-- A decimal rounds to the float of its text. -/
theorem DecimalRounding.toFloat_eq (rounding : DecimalRounding D F) {text : Option String} {decimal : D}
    {value : F} (written : DecimalOf text decimal) (number : TextOf text value) :
    DecimalFloat.toFloat decimal = value := by
  obtain ⟨digits, rfl, read⟩ := written
  obtain ⟨same, given, parsed⟩ := number
  obtain rfl := Option.some.inj given
  exact rounding.reads digits value decimal parsed read

/-- The text of the greater decimal is that of the greater float. -/
theorem DecimalRounding.max_text (rounding : DecimalRounding D F) (order : NumberOrder F)
    {text newText : Option String} {first second : D} {left right : F} (equals : TextEquals text left)
    (own : TextOf newText right) (number : PyFloat.eq right right = true)
    (decimal : DecimalOf text first) (newDecimal : DecimalOf newText second) :
    TextEquals (if PyDecimal.lt first second then newText else text) (PyFloat.max left right) := by
  obtain ⟨value, written, same⟩ := equals
  obtain ⟨⟨valued, given⟩, below, above⟩ := (order.eq_iff value left).mp same
  have valueRead := rounding.toFloat_eq decimal written
  have rightRead := rounding.toFloat_eq newDecimal own
  rw [PyFloat.max]
  by_cases greater : PyDecimal.lt first second = true
  · have behind := rounding.rounds second first (rounding.asymm first second greater)
    rw [valueRead, rightRead] at behind
    rw [if_pos greater]
    split
    · exact ⟨right, own, number⟩
    · rename_i least
      refine ⟨right, own, (order.eq_iff right left).mpr ⟨⟨number, given⟩, ?_, ?_⟩⟩
      · exact order.negTrans right value left valued behind below
      · exact Bool.eq_false_of_not_eq_true least
  · have ahead := rounding.rounds first second (Bool.eq_false_of_not_eq_true greater)
    rw [valueRead, rightRead] at ahead
    rw [if_neg greater, if_neg]
    · exact ⟨value, written, same⟩
    · rw [order.negTrans left value right valued above ahead]
      exact Bool.false_ne_true

theorem DecimalRounding.min_text (rounding : DecimalRounding D F) (order : NumberOrder F)
    {text newText : Option String} {first second : D} {left right : F} (equals : TextEquals text left)
    (own : TextOf newText right) (number : PyFloat.eq right right = true)
    (decimal : DecimalOf text first) (newDecimal : DecimalOf newText second) :
    TextEquals (if PyDecimal.lt second first then newText else text) (PyFloat.min left right) := by
  obtain ⟨value, written, same⟩ := equals
  obtain ⟨⟨valued, given⟩, below, above⟩ := (order.eq_iff value left).mp same
  have valueRead := rounding.toFloat_eq decimal written
  have rightRead := rounding.toFloat_eq newDecimal own
  rw [PyFloat.min]
  by_cases smaller : PyDecimal.lt second first = true
  · have ahead := rounding.rounds first second (rounding.asymm second first smaller)
    rw [valueRead, rightRead] at ahead
    rw [if_pos smaller]
    split
    · exact ⟨right, own, number⟩
    · rename_i greatest
      refine ⟨right, own, (order.eq_iff right left).mpr ⟨⟨number, given⟩, ?_, ?_⟩⟩
      · exact Bool.eq_false_of_not_eq_true greatest
      · exact order.negTrans left value right valued above ahead
  · have behind := rounding.rounds second first (Bool.eq_false_of_not_eq_true smaller)
    rw [valueRead, rightRead] at behind
    rw [if_neg smaller, if_neg]
    · exact ⟨value, written, same⟩
    · rw [order.negTrans right value left valued behind below]
      exact Bool.false_ne_true

end Texts

end MarketdataProvider

namespace MarketdataProvider.Reference

open scoped Reference

theorem digitsValue_toDigits (count : Nat) : digitsValue (Nat.toDigits 10 count) = some count := by
  rw [digitsValue, if_neg Nat.toDigits_ne_nil]
  have read := intOfDigits_toDigits count
  rw [intOfDigits] at read
  rw [← read]
  congr 1
  funext value digit
  change _ = (asciiDecimal digit).map _
  rw [asciiDecimal]
  split <;> rfl

/-- The characters of a whole number are digits behind a sign. -/
theorem toList_toString (number : Int) : '.' ∉ (toString number).toList ∧
    (match (toString number).toList with
      | '-' :: digits => (digitsValue digits).map fun value => (⟨-value⟩ : Whole)
      | digits => (digitsValue digits).map fun value => ⟨value⟩) = some ⟨number⟩ := by
  have digit {count : Nat} {character : Char} (member : character ∈ Nat.toDigits 10 count) :
      character.isDigit = true := Nat.isDigit_of_mem_toDigits (by decide) (by decide) member
  cases number with
  | ofNat count =>
      have text : (toString (Int.ofNat count)).toList = Nat.toDigits 10 count := by
        simp [toString, Int.repr, Nat.repr]
      rw [text]
      refine ⟨fun member => absurd (digit member) (by decide), ?_⟩
      split
      · rename_i digits same
        have member : '-' ∈ Nat.toDigits 10 count := by simp [same]
        exact absurd (digit member) (by decide)
      · rw [digitsValue_toDigits]
        rfl
  | negSucc count =>
      have text : (toString (Int.negSucc count)).toList = '-' :: Nat.toDigits 10 (count + 1) := by
        simp [toString, Int.repr, Nat.repr]
      rw [text]
      constructor
      · intro member
        rcases List.mem_cons.mp member with same | member
        · exact absurd same (by decide)
        · exact absurd (digit member) (by decide)
      · have read := digitsValue_toDigits (count + 1)
        simp only [read]
        rfl

/-- The text of a whole number is read as the number, with a fraction of zero or without it. -/
theorem ofText_toString (number : Int) : Whole.ofText (toString number) = some ⟨number⟩ := by
  obtain ⟨plain, read⟩ := toList_toString number
  have whole : ['.', '0'].isSuffixOf (toString number).toList = false := by
    rw [Bool.eq_false_iff, Ne, List.isSuffixOf_iff_suffix]
    rintro ⟨front, same⟩
    rw [← same] at plain
    simp at plain
  simp only [Whole.ofText, whole, Bool.false_eq_true, if_false]
  exact read

theorem ofText_text (number : Whole) : Whole.ofText number.text = some number := by
  have read := (toList_toString number.value).2
  have whole : ['.', '0'].isSuffixOf ((toString number.value).toList ++ ['.', '0']) = true := by
    rw [List.isSuffixOf_iff_suffix]
    exact ⟨_, rfl⟩
  have characters : number.text.toList = (toString number.value).toList ++ ['.', '0'] := by
    rw [Whole.text, String.toList_append]
    rfl
  have front : ((toString number.value).toList ++ ['.', '0']).take
      (((toString number.value).toList ++ ['.', '0']).length - 2) = (toString number.value).toList := by
    rw [List.length_append]
    exact List.take_left
  simp only [Whole.ofText, characters, whole, if_true, front]
  exact read

theorem wholeOrder : FloatOrder Whole where
  asymm left right below := by
    change decide (left.value < right.value) = true at below
    change decide (right.value < left.value) = false
    simp only [decide_eq_true_eq, decide_eq_false_iff_not] at below ⊢
    omega
  negTrans low middle high first second := by
    change decide (low.value < middle.value) = false at first
    change decide (middle.value < high.value) = false at second
    change decide (low.value < high.value) = false
    simp only [decide_eq_false_iff_not] at first second ⊢
    omega

theorem wholeExact : ExactDecimals Whole Whole where
  order := wholeOrder
  blank := by decide
  str := ofText_text
  reads _ value read := ⟨value, read, rfl⟩
  lt _ _ := rfl
  format number := ⟨ofText_toString number.value, ofText_toString number.value⟩

end MarketdataProvider.Reference
