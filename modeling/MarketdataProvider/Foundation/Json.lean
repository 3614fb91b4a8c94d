import Mathlib.Data.List.Basic
import Mathlib.Data.List.TakeWhile

namespace Foundation.Json

inductive Scalar where
  | null
  | bool (value : Bool)
  /-- The number is kept as it is written. -/
  | number (token : List Char)
  | text (value : List Char)
  deriving DecidableEq, Repr

inductive Document where
  | scalar (value : Scalar)
  | array (items : List Document)
  | object (members : List (List Char × Document))

def blank (character : Char) : Bool :=
  character = ' ' || character = '\t' || character = '\n' || character = '\r'

def skip (text : List Char) : List Char := text.dropWhile blank

/-- What stands behind the mark, which blanks may precede. -/
def expect (mark : Char) (text : List Char) : Option (List Char) :=
  match skip text with
  | [] => none
  | first :: rest => if first = mark then some rest else none

section Text

def hexDigit (value : Nat) : Char := "0123456789abcdef".toList.getD value '0'

def hexValue (character : Char) : Option Nat :=
  if '0' ≤ character ∧ character ≤ '9' then some (character.toNat - '0'.toNat)
  else if 'a' ≤ character ∧ character ≤ 'f' then some (character.toNat - 'a'.toNat + 10)
  else if 'A' ≤ character ∧ character ≤ 'F' then some (character.toNat - 'A'.toNat + 10)
  else none

def escapeUnit (unit : Nat) : List Char :=
  ['\\', 'u', hexDigit (unit / 4096), hexDigit (unit / 256 % 16), hexDigit (unit / 16 % 16),
    hexDigit (unit % 16)]

/-- One character of a text in ASCII; a character beyond the first plane takes two units. -/
def escape (character : Char) : List Char :=
  if character = '"' then ['\\', '"']
  else if character = '\\' then ['\\', '\\']
  else if character = '\n' then ['\\', 'n']
  else if character = '\r' then ['\\', 'r']
  else if character = '\t' then ['\\', 't']
  else if character = '\x0c' then ['\\', 'f']
  else if character = '\x08' then ['\\', 'b']
  else if ' ' ≤ character ∧ character ≤ '~' then [character]
  else if character.toNat < 65536 then escapeUnit character.toNat
  else escapeUnit (55296 + (character.toNat - 65536) / 1024) ++
    escapeUnit (56320 + (character.toNat - 65536) % 1024)

def dumpText (text : List Char) : List Char := '"' :: text.flatMap escape ++ ['"']

def unitOfHex (first second third fourth : Char) : Option Nat := do
  let first ← hexValue first
  let second ← hexValue second
  let third ← hexValue third
  let fourth ← hexValue fourth
  return 4096 * first + 256 * second + 16 * third + fourth

/-- The unit of a backslash and one letter. -/
def unitOfLetter (letter : Char) : Option Nat :=
  if letter = '"' ∨ letter = '\\' ∨ letter = '/' then some letter.toNat
  else if letter = 'b' then some 8
  else if letter = 'f' then some 12
  else if letter = 'n' then some 10
  else if letter = 'r' then some 13
  else if letter = 't' then some 9
  else none

/-- The code units up to the closing quote, and what stands behind it. Control characters are refused. -/
def readUnits : List Char → Option (List Nat × List Char)
  | [] => none
  | '"' :: rest => some ([], rest)
  | '\\' :: 'u' :: first :: second :: third :: fourth :: rest =>
      match unitOfHex first second third fourth, readUnits rest with
      | some unit, some (units, after) => some (unit :: units, after)
      | _, _ => none
  | '\\' :: letter :: rest =>
      match unitOfLetter letter, readUnits rest with
      | some unit, some (units, after) => some (unit :: units, after)
      | _, _ => none
  | character :: rest =>
      if character.toNat < 32 then none
      else
        match readUnits rest with
        | some (units, after) => some (character.toNat :: units, after)
        | none => none

/-- A surrogate without its partner has no character and becomes the replacement character. -/
def ofUnit (unit : Nat) : Char := if unit.isValidChar then Char.ofNat unit else '\ufffd'

def isHigh (unit : Nat) : Bool := 55296 ≤ unit && unit < 56320

def isLow (unit : Nat) : Bool := 56320 ≤ unit && unit < 57344

def ofUnits : List Nat → List Char
  | [] => []
  | [unit] => [ofUnit unit]
  | unit :: next :: rest =>
      if isHigh unit && isLow next then
        ofUnit (65536 + 1024 * (unit - 55296) + (next - 56320)) :: ofUnits rest
      else ofUnit unit :: ofUnits (next :: rest)

/-- A text from behind its opening quote on. -/
def readText (text : List Char) : Option (List Char × List Char) :=
  (readUnits text).map fun found => (ofUnits found.1, found.2)

end Text

section Number

/-- An integer of more digits is refused. -/
def maxDigits : Nat := 4300

def exponent : List Char → Bool
  | [] => true
  | mark :: rest =>
      let digits := match rest with
        | '+' :: digits => digits
        | '-' :: digits => digits
        | digits => digits
      (mark = 'e' || mark = 'E') && !digits.isEmpty && digits.all Char.isDigit

def fraction : List Char → Bool
  | '.' :: rest => !(rest.takeWhile Char.isDigit).isEmpty && exponent (rest.dropWhile Char.isDigit)
  | rest => exponent rest

def unsigned : List Char → List Char
  | '-' :: body => body
  | body => body

/-- The texts of numbers: no leading zero, and a digit on both sides of a point. -/
def isNumber (token : List Char) : Bool :=
  let whole := (unsigned token).takeWhile Char.isDigit
  let rest := (unsigned token).dropWhile Char.isDigit
  (whole = ['0'] || (!whole.isEmpty && whole.head? ≠ some '0')) && fraction rest &&
    (!rest.isEmpty || whole.length ≤ maxDigits)

def tokenCharacter (character : Char) : Bool :=
  character.isAlphanum || character = '+' || character = '-' || character = '.'

def isNumeral (token : List Char) : Bool :=
  token = "NaN".toList || token = "Infinity".toList || token = "-Infinity".toList || isNumber token

def ofToken (token : List Char) : Option Scalar :=
  if token = "null".toList then some .null
  else if token = "true".toList then some (.bool true)
  else if token = "false".toList then some (.bool false)
  else if isNumeral token then some (.number token)
  else none

end Number

section Read

/-- The members of an object up to its closing brace, and what stands behind it. -/
def readMembers (value : List Char → Option (Document × List Char)) :
    Nat → List Char → Option (List (List Char × Document) × List Char)
  | 0, _ => none
  | fuel + 1, text => do
      let (key, behindKey) ← readText (← expect '"' text)
      let (item, behind) ← value (skip (← expect ':' behindKey))
      match expect '\x7d' behind with
      | some rest => some ([(key, item)], rest)
      | none =>
          let (others, rest) ← readMembers value fuel (← expect ',' behind)
          some ((key, item) :: others, rest)

/-- The items of an array up to its closing bracket, and what stands behind it. -/
def readItems (value : List Char → Option (Document × List Char)) :
    Nat → List Char → Option (List Document × List Char)
  | 0, _ => none
  | fuel + 1, text => do
      let (item, behind) ← value (skip text)
      match expect ']' behind with
      | some rest => some ([item], rest)
      | none =>
          let (others, rest) ← readItems value fuel (← expect ',' behind)
          some (item :: others, rest)

/-- A value without blanks in front of it, and what stands behind it. -/
def readValue : Nat → List Char → Option (Document × List Char)
  | 0, _ => none
  | _ + 1, [] => none
  | fuel + 1, first :: rest =>
      if first = '"' then (readText rest).map fun found => (.scalar (.text found.1), found.2)
      else if first = '\x7b' then
        match expect '\x7d' rest with
        | some after => some (.object [], after)
        | none => (readMembers (readValue fuel) fuel rest).map fun found => (.object found.1, found.2)
      else if first = '[' then
        match expect ']' rest with
        | some after => some (.array [], after)
        | none => (readItems (readValue fuel) fuel rest).map fun found => (.array found.1, found.2)
      else
        (ofToken ((first :: rest).takeWhile tokenCharacter)).map fun found =>
          (.scalar found, (first :: rest).dropWhile tokenCharacter)

/-- `json.loads(text)`, with `none` for a text that is refused. -/
def loads (text : List Char) : Option Document := do
  let (value, rest) ← readValue (text.length + 1) (skip text)
  if skip rest = [] then some value else none

end Read

section Write

def Scalar.dump : Scalar → List Char
  | .null => "null".toList
  | .bool value => if value then "true".toList else "false".toList
  | .number token => token
  | .text value => dumpText value

/-- The blanks in front of each member, behind the last one and behind each colon. -/
structure Layout where
  front : List Char
  last : List Char
  colon : List Char
  front_blank : front.all blank = true
  last_blank : last.all blank = true
  colon_blank : colon.all blank = true

def Layout.compact : Layout := ⟨[], [], [], rfl, rfl, rfl⟩

/-- The layout of an outermost object with an indent of two blanks. -/
def Layout.indented : Layout := ⟨"\n  ".toList, "\n".toList, " ".toList, by decide, by decide, by decide⟩

def dumpMember (layout : Layout) (member : List Char × Scalar) : List Char :=
  layout.front ++ dumpText member.1 ++ ':' :: layout.colon ++ member.2.dump

def dumpMembers (layout : Layout) (members : List (List Char × Scalar)) : List Char :=
  members.flatMap (fun member => ',' :: dumpMember layout member) ++ layout.last ++ ['\x7d']

/-- `json.dumps` of a dictionary of scalars. -/
def dumps (layout : Layout) : List (List Char × Scalar) → List Char
  | [] => ['\x7b', '\x7d']
  | member :: members => '\x7b' :: dumpMember layout member ++ dumpMembers layout members

end Write

section Blanks

variable {mark : Char} {text rest front more : List Char}

theorem expect_eq_some : expect mark text = some rest ↔ skip text = mark :: rest := by
  unfold expect
  cases skip text with
  | nil => simp
  | cons first others =>
      by_cases same : first = mark
      · simp [same]
      · simp [same]

theorem skip_append (behind : skip text = mark :: rest) : skip (text ++ more) = mark :: (rest ++ more) := by
  unfold skip at behind ⊢
  rw [List.dropWhile_append, behind]
  rfl

theorem expect_append (found : expect mark text = some rest) :
    expect mark (text ++ more) = some (rest ++ more) :=
  expect_eq_some.mpr (skip_append (expect_eq_some.mp found))

theorem skip_ne_nil (found : expect mark text = some rest) : skip text ≠ [] := by
  rw [expect_eq_some.mp found]
  exact List.cons_ne_nil _ _

/-- A text that starts with another mark still does so when it is longer. -/
theorem expect_none (filled : skip text ≠ []) (absent : expect mark text = none) :
    expect mark (text ++ more) = none := by
  obtain ⟨first, others, begun⟩ := List.exists_cons_of_ne_nil filled
  unfold expect at absent ⊢
  rw [begun] at absent
  rw [skip_append begun]
  dsimp only at absent ⊢
  by_cases same : first = mark
  · rw [if_pos same] at absent
    cases absent
  · exact if_neg same

theorem skip_blank (blanks : front.all blank = true) : skip (front ++ rest) = skip rest := by
  unfold skip
  rw [List.dropWhile_append, List.dropWhile_eq_nil_iff.mpr (by simpa using blanks)]
  rfl

theorem skip_cons (plain : blank mark = false) : skip (mark :: rest) = mark :: rest := by
  unfold skip
  rw [List.dropWhile_cons, plain]
  rfl

theorem expect_blank (blanks : front.all blank = true) (plain : blank mark = false) :
    expect mark (front ++ mark :: rest) = some rest :=
  expect_eq_some.mpr ((skip_blank blanks).trans (skip_cons plain))

theorem expect_cons (plain : blank mark = false) : expect mark (mark :: rest) = some rest :=
  expect_eq_some.mpr (skip_cons plain)

end Blanks

section Text

theorem hexValue_hexDigit (value : Nat) (small : value < 16) :
    hexValue (hexDigit value) = some value := by
  revert value
  decide

theorem unitOfHex_escape {unit : Nat} (small : unit < 65536) :
    unitOfHex (hexDigit (unit / 4096)) (hexDigit (unit / 256 % 16)) (hexDigit (unit / 16 % 16))
      (hexDigit (unit % 16)) = some unit := by
  unfold unitOfHex
  rw [hexValue_hexDigit _ (by omega), hexValue_hexDigit _ (by omega), hexValue_hexDigit _ (by omega),
    hexValue_hexDigit _ (by omega)]
  have whole : 4096 * (unit / 4096) + 256 * (unit / 256 % 16) + 16 * (unit / 16 % 16) + unit % 16 =
      unit := by omega
  exact congrArg some whole

theorem isValidChar_toNat (character : Char) : character.toNat.isValidChar := character.valid

theorem toNat_bound (character : Char) : character.toNat < 1114112 := by
  have valid := isValidChar_toNat character
  unfold Nat.isValidChar at valid
  omega

/-- The code units of one character. -/
def unitsOf (character : Char) : List Nat :=
  if character.toNat < 65536 then [character.toNat]
  else [55296 + (character.toNat - 65536) / 1024, 56320 + (character.toNat - 65536) % 1024]

theorem readUnits_escapeUnit {unit : Nat} (small : unit < 65536) (rest : List Char) :
    readUnits (escapeUnit unit ++ rest) =
      (readUnits rest).map fun found => (unit :: found.1, found.2) := by
  unfold escapeUnit
  simp only [List.cons_append, List.nil_append]
  rw [readUnits, unitOfHex_escape small]
  cases readUnits rest <;> rfl

theorem readUnits_letter {letter : Char} {unit : Nat} (known : unitOfLetter letter = some unit)
    (rest : List Char) : readUnits ('\\' :: letter :: rest) =
      (readUnits rest).map fun found => (unit :: found.1, found.2) := by
  have notUnit : letter ≠ 'u' := by
    intro same
    rw [same] at known
    cases known
  rw [readUnits]
  · rw [known]
    cases readUnits rest <;> rfl
  · intro first second third fourth after same
    exact absurd same notUnit

theorem readUnits_plain {character : Char} (notQuote : character ≠ '"') (notSlash : character ≠ '\\')
    (printed : 32 ≤ character.toNat) (rest : List Char) :
    readUnits (character :: rest) =
      (readUnits rest).map fun found => (character.toNat :: found.1, found.2) := by
  rw [readUnits]
  · rw [if_neg (by omega)]
    cases readUnits rest <;> rfl
  · exact notQuote
  · intro first second third fourth after same
    exact absurd same notSlash
  · intro letter after same
    exact absurd same notSlash

theorem readUnits_escape (character : Char) (rest : List Char) :
    readUnits (escape character ++ rest) =
      (readUnits rest).map fun found => (unitsOf character ++ found.1, found.2) := by
  unfold escape
  split_ifs with quote slash feed carriage tab form back printed small
  · rw [quote]
    exact readUnits_letter rfl rest
  · rw [slash]
    exact readUnits_letter rfl rest
  · rw [feed]
    exact readUnits_letter rfl rest
  · rw [carriage]
    exact readUnits_letter rfl rest
  · rw [tab]
    exact readUnits_letter rfl rest
  · rw [form]
    exact readUnits_letter rfl rest
  · rw [back]
    exact readUnits_letter rfl rest
  · have low : 32 ≤ character.toNat := printed.1
    have high : character.toNat ≤ 126 := printed.2
    unfold unitsOf
    rw [if_pos (by omega)]
    exact readUnits_plain quote slash low rest
  · unfold unitsOf
    rw [if_pos small]
    exact readUnits_escapeUnit small rest
  · have bound := toNat_bound character
    unfold unitsOf
    rw [if_neg small, List.append_assoc, readUnits_escapeUnit (by omega), readUnits_escapeUnit (by omega),
      Option.map_map]
    rfl

theorem ofUnit_toNat (character : Char) : ofUnit character.toNat = character := by
  unfold ofUnit
  rw [if_pos (isValidChar_toNat character), Char.ofNat_toNat]

theorem ofUnits_unitsOf (character : Char) (rest : List Nat) :
    ofUnits (unitsOf character ++ rest) = character :: ofUnits rest := by
  have bound := toNat_bound character
  unfold unitsOf
  split_ifs with small
  · have single : isHigh character.toNat = false := by
      have valid := isValidChar_toNat character
      unfold Nat.isValidChar at valid
      unfold isHigh
      simp
      omega
    cases rest with
    | nil => exact congrArg (· :: []) (ofUnit_toNat character)
    | cons next others =>
        rw [List.singleton_append, ofUnits, single, Bool.false_and, if_neg Bool.false_ne_true, ofUnit_toNat]
  · have high : isHigh (55296 + (character.toNat - 65536) / 1024) = true := by
      unfold isHigh
      simp
      omega
    have low : isLow (56320 + (character.toNat - 65536) % 1024) = true := by
      unfold isLow
      simp
      omega
    have whole : 65536 + 1024 * (55296 + (character.toNat - 65536) / 1024 - 55296) +
        (56320 + (character.toNat - 65536) % 1024 - 56320) = character.toNat := by omega
    rw [List.cons_append, List.singleton_append, ofUnits, high, low, Bool.true_and, if_pos rfl, whole,
      ofUnit_toNat]

/-- A written text is read as it was, whatever stands behind it. -/
theorem readText_dump (text rest : List Char) :
    readText (text.flatMap escape ++ '"' :: rest) = some (text, rest) := by
  have units : readUnits (text.flatMap escape ++ '"' :: rest) = some (text.flatMap unitsOf, rest) := by
    induction text with
    | nil => rfl
    | cons character others ih =>
        rw [List.flatMap_cons, List.append_assoc, readUnits_escape, ih]
        rfl
  have whole : ofUnits (text.flatMap unitsOf) = text := by
    clear units
    induction text with
    | nil => rfl
    | cons character others ih => rw [List.flatMap_cons, ofUnits_unitsOf, ih]
  rw [readText, units, Option.map_some, whole]

theorem readUnits_append {text rest : List Char} {units : List Nat} (more : List Char)
    (found : readUnits text = some (units, rest)) :
    readUnits (text ++ more) = some (units, rest ++ more) := by
  fun_induction readUnits text generalizing units rest with
  | case1 => cases found
  | case2 others =>
      obtain ⟨rfl, rfl⟩ := Prod.mk.inj (Option.some.inj found)
      rfl
  | case3 first second third fourth others unit units after read known ih =>
      obtain ⟨rfl, rfl⟩ := Prod.mk.inj (Option.some.inj found)
      simp only [List.cons_append]
      rw [readUnits, known, ih read]
  | case4 => cases found
  | case5 letter others notUnit unit units after read known ih =>
      obtain ⟨rfl, rfl⟩ := Prod.mk.inj (Option.some.inj found)
      simp only [List.cons_append]
      rw [readUnits_letter known, ih read]
      rfl
  | case6 => cases found
  | case7 => cases found
  | case8 character others notQuote notUnit notLetter printed units after read ih =>
      obtain ⟨rfl, rfl⟩ := Prod.mk.inj (Option.some.inj found)
      have notSlash : character ≠ '\\' := by
        rintro rfl
        cases others with
        | nil => cases read
        | cons letter behind => exact notLetter letter behind rfl rfl
      rw [List.cons_append, readUnits_plain notQuote notSlash (by omega), ih read]
      rfl
  | case9 => cases found

theorem readText_append {text rest value : List Char} (more : List Char)
    (found : readText text = some (value, rest)) :
    readText (text ++ more) = some (value, rest ++ more) := by
  obtain ⟨⟨units, after⟩, read, same⟩ := Option.map_eq_some_iff.mp found
  obtain ⟨rfl, rfl⟩ := Prod.mk.inj same
  rw [readText, readUnits_append more read]
  rfl

end Text

end Foundation.Json
