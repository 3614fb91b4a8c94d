import Mathlib.Data.List.Basic

namespace MarketdataProvider

/-- The values that an error reports next to its text. -/
inductive Detail where
  | none
  | int (value : Int)
  | text (value : String)
  deriving DecidableEq, Repr

/-- The exceptions of the package come first, those of Python and its library after them. -/
inductive PyError where
  | mdInvalidExchangeResponse (message : String) (details : List (String × Detail))
  | mdCacheConflict (message : String) (details : List (String × Detail))
  | mdUnsupportedFeature (message : String)
  | mdValidationError (message : String)
  | mdMissingFinality (message : String)
  | mdTimeframeUnsupported (message : String)
  | mdBarConflict (message : String)
  | mdSymbolUnsupported (message : String)
  | mdSymbolAmbiguous (message : String)
  | mdNetworkUnavailable (message : String)
  | mdPaginationStalled (message : String) (details : List (String × Detail))
  | coverageValidationError (message : String)
  | valueError (message : String)
  | keyError (key : String)
  | typeError
  | indexError
  | structError
  | overflowError
  | zeroDivisionError
  | unicodeDecodeError
  | csvError (message : String)
  | integrityError
  | fileNotFoundError
  | arrowInvalid
  | assertionError
  | attributeError
  deriving DecidableEq, Repr

/-- The float operations that the package uses; every result below holds for each such type. -/
class PyFloat (F : Type) where
  decEq : DecidableEq F
  /-- `str(value)` -/
  str : F → String
  /-- `float(text)`, with `none` for `ValueError` -/
  ofStr : String → Option F
  /-- `int(value)`, which fails for a value that has no integer part -/
  toInt : F → Except PyError Int
  /-- `left < right` -/
  lt : F → F → Bool
  /-- `left == right` -/
  eq : F → F → Bool
  /-- `0.0` -/
  zero : F
  /-- `struct.pack(">d", value)` -/
  pack : F → List UInt8

instance {F : Type} [PyFloat F] : DecidableEq F := PyFloat.decEq

namespace PyFloat

variable {F : Type} [PyFloat F]

/-- `max(left, right)` keeps the left value unless the right one is greater. -/
def max (left right : F) : F := if lt left right then right else left

/-- `min(left, right)` keeps the left value unless the right one is smaller. -/
def min (left right : F) : F := if lt right left then right else left

/-- `float(text)` -/
def parse (text : String) : Except PyError F :=
  match ofStr text with
  | some value => .ok value
  | none => .error (.valueError ("could not convert string to float: " ++ text))

/-- `int(float(text))` -/
def parseInt (F : Type) [PyFloat F] (text : String) : Except PyError Int := do
  let value : F ← parse text
  toInt value

end PyFloat

/-- `value or other` of an integer. -/
def intOr (value : Option Int) (other : Int) : Int :=
  match value with
  | some value => if value = 0 then other else value
  | none => other

/-- The Unicode tables behind `str`: case mapping, white space and digits. -/
class PyText where
  lower : String → String
  upper : String → String
  /-- A white space character of `str.strip`. -/
  isSpace : Char → Bool
  /-- The value of a decimal digit, which `\d` matches and `int` reads. -/
  decimal : Char → Option Nat
  /-- A character of `str.isdigit`; some of them are not decimal digits. -/
  isDigit : Char → Bool
  lower_ascii : ∀ text : String, text.toList.all (·.toNat < 128) = true →
    lower text = String.ofList (text.toList.map Char.toLower)
  upper_ascii : ∀ text : String, text.toList.all (·.toNat < 128) = true →
    upper text = String.ofList (text.toList.map Char.toUpper)
  lower_lower : ∀ text, lower (lower text) = lower text
  upper_upper : ∀ text, upper (upper text) = upper text
  decimal_ascii : ∀ value, value < 10 → decimal (Nat.digitChar value) = some value
  decimal_letter : ∀ letter, letter.isAlpha = true → decimal letter = none
  isDigit_decimal : ∀ digit value, decimal digit = some value → isDigit digit = true
  isDigit_letter : ∀ letter, letter.isAlpha = true → isDigit letter = false
  isSpace_ascii : ∀ character, character.isAlphanum = true → isSpace character = false
  isSpace_minus : isSpace '-' = false
  /-- The long s folds to `s` in a case-insensitive match, and it is a letter. -/
  longS_letter : isSpace 'ſ' = false ∧ decimal 'ſ' = none ∧ isDigit 'ſ' = false

/-- `text.strip()` -/
def strip [PyText] (text : List Char) : List Char :=
  ((text.dropWhile PyText.isSpace).reverse.dropWhile PyText.isSpace).reverse

/-- Decimal digits, with a single underscore between two of them at most. -/
def intDigits [PyText] : Bool → List Char → Option (List Nat)
  | afterDigit, [] => if afterDigit then some [] else none
  | afterDigit, character :: rest =>
      if character = '_' then if afterDigit then intDigits false rest else none
      else
        match PyText.decimal character with
        | none => none
        | some digit => (digit :: ·) <$> intDigits true rest

/-- The sign in front of a number, and what follows it. -/
def splitSign : List Char → Bool × List Char
  | '-' :: body => (true, body)
  | '+' :: body => (false, body)
  | body => (false, body)

/-- `int(text)`, with `none` for `ValueError`; more than 4300 digits are refused. -/
def pyInt [PyText] (text : List Char) : Option Int :=
  let signed := splitSign (strip text)
  match intDigits false signed.2 with
  | none => none
  | some digits =>
      if 4300 < digits.length then none
      else
        let value : Nat := digits.foldl (fun value digit => 10 * value + digit) 0
        some (if signed.1 then -(value : Int) else value)

/-- `hashlib.sha256`: a byte string to its 32 digest bytes. -/
class Sha256 where
  digest : List UInt8 → List UInt8
  length_digest : ∀ bytes, (digest bytes).length = 32

/-- `text.encode("utf-8")` -/
def encodeUtf8 (text : List Char) : List UInt8 := text.flatMap String.utf8EncodeChar

/-- `bytes.decode("utf-8")` -/
def decodeUtf8 (bytes : List UInt8) : Option (List Char) :=
  bytes.toByteArray.utf8Decode?.map Array.toList

@[simp] theorem encodeUtf8_append (first second : List Char) :
    encodeUtf8 (first ++ second) = encodeUtf8 first ++ encodeUtf8 second := by
  simp [encodeUtf8]

theorem decodeUtf8_encodeUtf8 (text : List Char) : decodeUtf8 (encodeUtf8 text) = some text := by
  have encoded : (encodeUtf8 text).toByteArray = text.utf8Encode := rfl
  rw [decodeUtf8, encoded, List.utf8Decode?_utf8Encode]
  rfl

theorem encodeUtf8_injective {left right : List Char} (equal : encodeUtf8 left = encodeUtf8 right) :
    left = right := by
  have decoded := congrArg decodeUtf8 equal
  rw [decodeUtf8_encodeUtf8, decodeUtf8_encodeUtf8] at decoded
  exact Option.some.inj decoded

theorem encodeUtf8_of_decodeUtf8 {bytes : List UInt8} {text : List Char}
    (decoded : decodeUtf8 bytes = some text) : encodeUtf8 text = bytes := by
  obtain ⟨characters, found, rfl⟩ := Option.map_eq_some_iff.mp decoded
  have whole : (bytes.toByteArray.utf8Decode?.get (by rw [found]; rfl)).toList.utf8Encode =
      bytes.toByteArray := ByteArray.utf8Encode_get_utf8Decode?
  simp only [found, Option.get_some] at whole
  have same := congrArg (fun array => array.data.toList) whole
  simpa [List.utf8Encode, encodeUtf8] using same

/-- Only the first byte of a character can start one. -/
theorem firstByte_of_utf8EncodeChar {character : Char} {front rest : List UInt8} {byte : UInt8}
    (encoded : String.utf8EncodeChar character = front ++ byte :: rest) :
    byte.IsUTF8FirstByte ↔ front = [] := by
  have bound : front.length < (String.utf8EncodeChar character).length := by
    rw [encoded]
    simp
  have found : (String.utf8EncodeChar character)[front.length] = byte := by
    simp [encoded]
  rw [← found, UInt8.isUTF8FirstByte_getElem_utf8EncodeChar, List.length_eq_zero_iff]

/-- The bytes from some position on are text only at the start of a character. -/
theorem suffix_of_encodeUtf8 {text after : List Char} {front : List UInt8}
    (split : encodeUtf8 text = front ++ encodeUtf8 after) : after <:+ text := by
  induction text generalizing front with
  | nil =>
      have empty := (List.append_eq_nil_iff.mp split.symm).2
      obtain rfl : after = [] := encodeUtf8_injective (empty.trans (show [] = encodeUtf8 [] from rfl))
      exact List.suffix_refl _
  | cons character rest ih =>
      have parts : String.utf8EncodeChar character ++ encodeUtf8 rest = front ++ encodeUtf8 after := split
      rcases List.append_eq_append_iff.mp parts with ⟨middle, rfl, tail⟩ | ⟨middle, whole, tail⟩
      · exact (ih tail).trans (List.suffix_cons _ _)
      · cases front with
        | nil =>
            obtain rfl : character :: rest = after := encodeUtf8_injective split
            exact List.suffix_refl _
        | cons first others =>
            cases middle with
            | nil =>
                have same : encodeUtf8 rest = [] ++ encodeUtf8 after := tail.symm
                exact (ih same).trans (List.suffix_cons _ _)
            | cons byte bytes =>
                -- The byte would start a character and continue another one.
                have continues := (firstByte_of_utf8EncodeChar whole).not.mpr (by simp)
                cases after with
                | nil => cases tail
                | cons next later =>
                    cases begun : String.utf8EncodeChar next with
                    | nil => exact absurd begun String.utf8EncodeChar_ne_nil
                    | cons head others =>
                        have starts :=
                          (firstByte_of_utf8EncodeChar (show _ = [] ++ head :: others from begun)).mpr rfl
                        have heads : String.utf8EncodeChar next ++ encodeUtf8 later =
                            byte :: bytes ++ encodeUtf8 rest := tail
                        rw [begun] at heads
                        rw [(List.cons.inj heads).1] at starts
                        exact absurd starts continues

def hexDigits : List Char := "0123456789abcdef".toList

def hexDigit (value : Nat) : Char := hexDigits.getD value '0'

/-- `digest.hex()` -/
def hexOfBytes (bytes : List UInt8) : String :=
  String.ofList (bytes.flatMap fun byte => [hexDigit (byte.toNat / 16), hexDigit (byte.toNat % 16)])

/-- Both letter cases are hexadecimal digits. -/
def hexValue (character : Char) : Option Nat :=
  if '0' ≤ character ∧ character ≤ '9' then some (character.toNat - '0'.toNat)
  else if 'a' ≤ character ∧ character ≤ 'f' then some (character.toNat - 'a'.toNat + 10)
  else if 'A' ≤ character ∧ character ≤ 'F' then some (character.toNat - 'A'.toNat + 10)
  else none

/-- White space of `bytes.fromhex`, which may stand between two bytes. -/
def hexSpace (character : Char) : Bool :=
  character = ' ' || ('\x09' ≤ character && character ≤ '\x0d')

def bytesOfHexChars : List Char → Option (List UInt8)
  | [] => some []
  | [character] => if hexSpace character then some [] else none
  | first :: second :: rest =>
      if hexSpace first then bytesOfHexChars (second :: rest)
      else
        match hexValue first, hexValue second, bytesOfHexChars rest with
        | some high, some low, some bytes => some (UInt8.ofNat (16 * high + low) :: bytes)
        | _, _, _ => none

/-- `bytes.fromhex(text)`, with `none` for `ValueError` -/
def bytesOfHex (text : String) : Option (List UInt8) := bytesOfHexChars text.toList

theorem hexDigit_value (value : Nat) (small : value < 16) :
    hexValue (hexDigit value) = some value ∧ hexSpace (hexDigit value) = false := by
  revert value
  decide

theorem bytesOfHex_hexOfBytes (bytes : List UInt8) : bytesOfHex (hexOfBytes bytes) = some bytes := by
  rw [bytesOfHex, hexOfBytes, String.toList_ofList]
  induction bytes with
  | nil => rfl
  | cons byte bytes ih =>
      have bound := byte.toNat_lt
      obtain ⟨high, notSpace⟩ := hexDigit_value (byte.toNat / 16) (by omega)
      obtain ⟨low, _⟩ := hexDigit_value (byte.toNat % 16) (by omega)
      have whole : 16 * (byte.toNat / 16) + byte.toNat % 16 = byte.toNat := by omega
      simp only [List.flatMap_cons, List.cons_append, List.nil_append, bytesOfHexChars, notSpace,
        high, low, ih, whole, UInt8.ofNat_toNat, Bool.false_eq_true, ↓reduceIte]

end MarketdataProvider
