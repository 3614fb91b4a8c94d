import MarketdataProvider.Core.Bar

namespace MarketdataProvider

variable {F : Type} [PyFloat F]

/-- The decimals of Python: the arithmetic of the volume sums. -/
class PyDecimal (D : Type) where
  /-- `Decimal(text)`, with `none` for `InvalidOperation` -/
  ofStr : String → Option D
  lt : D → D → Bool
  zero : D
  add : D → D → D
  /-- `format(value, "f")` -/
  format : D → String

/-- `float(value)` of a decimal -/
class DecimalFloat (D F : Type) where
  toFloat : D → F

/-- `bar.open_text or str(bar.open)` -/
def textOr (text : Option String) (value : F) : String :=
  match text with
  | none => PyFloat.str value
  | some text => if text = "" then PyFloat.str value else text

section Decimals

variable (D : Type) [PyDecimal D]

/-- `Decimal(text)` -/
def parseDecimal (text : String) : Except PyError D :=
  match PyDecimal.ofStr text with
  | some value => .ok value
  | none => .error (.valueError "decimal.InvalidOperation")

/-- The first of the values whose key is greatest. -/
def firstGreatest {Value Key : Type} (lt : Key → Key → Bool) (first : Value × Key)
    (rest : List (Value × Key)) : Value × Key :=
  rest.foldl (fun best next => if lt best.2 next.2 then next else best) first

variable {D} in
def firstLeast {Value Key : Type} (lt : Key → Key → Bool) (first : Value × Key)
    (rest : List (Value × Key)) : Value × Key :=
  rest.foldl (fun best next => if lt next.2 best.2 then next else best) first

def keyed (text : MarketBar F → String) (bar : MarketBar F) : Except PyError (MarketBar F × D) := do
  return (bar, ← parseDecimal D (text bar))

end Decimals

end MarketdataProvider
