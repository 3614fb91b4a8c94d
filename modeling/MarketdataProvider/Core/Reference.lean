import Mathlib.Algebra.Group.Int.Defs
import Mathlib.Algebra.Group.Nat.Defs
import MarketdataProvider.Foundation.Sha256
import MarketdataProvider.Core.Decimal

namespace MarketdataProvider.Reference

/-- The whole numbers among the floats, on which each operation is exact. -/
structure Whole where
  value : Int
  deriving DecidableEq, Repr

/-- `repr(float(value))` of a whole number. -/
def Whole.text (number : Whole) : String := toString number.value ++ ".0"

def digitsValue (digits : List Char) : Option Nat :=
  if digits = [] then none
  else digits.foldlM (fun value digit =>
    if digit.isDigit then some (10 * value + (digit.toNat - '0'.toNat)) else none) 0

/-- A decimal text of a whole number, with or without `.0`. -/
def Whole.ofText (text : String) : Option Whole :=
  let characters := text.toList
  let whole := if ['.', '0'].isSuffixOf characters then characters.take (characters.length - 2)
    else characters
  match whole with
  | '-' :: digits => (digitsValue digits).map fun value => ⟨-value⟩
  | digits => (digitsValue digits).map fun value => ⟨value⟩

/-- The binary64 pattern of a whole number below `2 ^ 53` in magnitude. -/
def Whole.bits (number : Whole) : Nat :=
  let magnitude := number.value.natAbs
  if magnitude = 0 then 0
  else
    let exponent := magnitude.log2
    let mantissa := magnitude * 2 ^ (52 - exponent) - 2 ^ 52
    (if number.value < 0 then 2 ^ 63 else 0) + (1023 + exponent) * 2 ^ 52 + mantissa

scoped instance wholeFloat : PyFloat Whole where
  decEq := inferInstance
  str := Whole.text
  ofStr := Whole.ofText
  toInt number := .ok number.value
  lt left right := left.value < right.value
  eq left right := left.value = right.value
  zero := ⟨0⟩
  pack number := Foundation.Sha256.bytesOf 8 number.bits

scoped instance wholeDecimal : PyDecimal Whole where
  ofStr := Whole.ofText
  lt left right := left.value < right.value
  zero := ⟨0⟩
  add left right := ⟨left.value + right.value⟩
  format number := toString number.value

scoped instance decimalFloat : DecimalFloat Whole Whole where
  toFloat number := number

/-- The ASCII part of the Unicode tables. -/
def asciiSpace (character : Char) : Bool :=
  character = ' ' || ('\t' ≤ character && character ≤ '\r') ||
    ('\x1c' ≤ character && character ≤ '\x1f')

def asciiDecimal (character : Char) : Option Nat :=
  if character.isDigit then some (character.toNat - '0'.toNat) else none

theorem isDigit_iff (character : Char) :
    character.isDigit = true ↔ 48 ≤ character.toNat ∧ character.toNat ≤ 57 := by
  simp [Char.isDigit, UInt32.le_iff_toNat_le]

theorem toNat_of_isAlpha {character : Char} (alphabetic : character.isAlpha = true) :
    (65 ≤ character.toNat ∧ character.toNat ≤ 90) ∨
      (97 ≤ character.toNat ∧ character.toNat ≤ 122) := by
  delta Char.isAlpha Char.isUpper Char.isLower at alphabetic
  simpa [UInt32.le_iff_toNat_le] using alphabetic

theorem not_isDigit_of_isAlpha {character : Char} (alphabetic : character.isAlpha = true) :
    character.isDigit = false := by
  have range := toNat_of_isAlpha alphabetic
  rw [Bool.eq_false_iff, Ne, isDigit_iff]
  omega

theorem toLower_toLower (character : Char) : character.toLower.toLower = character.toLower := by
  apply Char.ext
  delta Char.toLower
  split
  · rename_i upper
    have low := upper.1
    have high := upper.2
    rw [dif_neg]
    simp only [UInt32.le_iff_toNat_le] at low high ⊢
    simp at low high ⊢
    omega
  · rfl

theorem toUpper_toUpper (character : Char) : character.toUpper.toUpper = character.toUpper := by
  apply Char.ext
  delta Char.toUpper
  split
  · rename_i lower
    have low := lower.1
    have high := lower.2
    rw [dif_neg]
    simp only [UInt32.le_iff_toNat_le] at low high ⊢
    simp at low high ⊢
    omega
  · rfl

theorem asciiSpace_of_isAlphanum {character : Char} (alphanumeric : character.isAlphanum = true) :
    asciiSpace character = false := by
  have range : 48 ≤ character.toNat := by
    rcases Bool.or_eq_true_iff.mp alphanumeric with alphabetic | digit
    · have := toNat_of_isAlpha alphabetic
      omega
    · exact ((isDigit_iff character).mp digit).1
  have notBlank : character ≠ ' ' := by
    rintro rfl
    exact absurd range (by decide)
  simp [asciiSpace, Char.le_def, UInt32.le_iff_toNat_le, notBlank]
  omega

scoped instance asciiText : PyText where
  lower text := String.ofList (text.toList.map Char.toLower)
  upper text := String.ofList (text.toList.map Char.toUpper)
  isSpace := asciiSpace
  decimal := asciiDecimal
  isDigit := Char.isDigit
  lower_ascii _ _ := rfl
  upper_ascii _ _ := rfl
  lower_lower text := by
    rw [String.toList_ofList, List.map_map]
    exact congrArg String.ofList (List.map_congr_left fun character _ => toLower_toLower character)
  upper_upper text := by
    rw [String.toList_ofList, List.map_map]
    exact congrArg String.ofList (List.map_congr_left fun character _ => toUpper_toUpper character)
  decimal_ascii := by decide
  decimal_letter letter alphabetic := by
    simp [asciiDecimal, not_isDigit_of_isAlpha alphabetic]
  isDigit_decimal digit value found := by
    by_contra notDigit
    simp [asciiDecimal, notDigit] at found
  isDigit_letter letter alphabetic := not_isDigit_of_isAlpha alphabetic
  isSpace_ascii character alphanumeric := asciiSpace_of_isAlphanum alphanumeric
  isSpace_minus := by decide
  longS_letter := by decide

scoped instance sha256 : Sha256 where
  digest := Foundation.Sha256.digest
  length_digest := Foundation.Sha256.length_digest

/-- A finalized one minute candle at the price of one. -/
def candle (time : Int) : MarketBar Whole where
  time := time
  openPrice := ⟨1⟩
  high := ⟨1⟩
  low := ⟨1⟩
  close := ⟨1⟩
  volume := ⟨1⟩
  timeClose := some (time + 59999)
  exchange := "binance"
  market := "spot"
  symbol := "BTCUSDT"
  timeframe := "1m"
  sourceTransport := "rest"
  sourceKind := "trade_kline"
  source := ""
  isClosed := true
  provider := "binance"
  providerRevision := some "r"
  revisionState := .original
  revision := 0
  openText := none
  highText := none
  lowText := none
  closeText := none
  volumeText := none
  quoteVolume := none
  turnover := none
  tradesCount := none
  takerBuyBaseVolume := none
  takerBuyQuoteVolume := none
  downloadedAt := none
  metadata := []
  lineage := RevisionState.original_admits

end MarketdataProvider.Reference
