import ModelCatalog.Number.Shortest

/-! Written forms of double-precision numbers. -/

namespace ModelCatalog

/-- The choices that fix the written form of a number. -/
structure NumberLayout where
  /-- The decimal taken when two are equally near. -/
  tie : Tie
  /-- The exponents of the leading digit at which all places are written out. -/
  positional : Int → Bool
  /-- What follows the digits of a whole number. -/
  wholeMark : String

namespace NumberLayout

/-- A decimal with all its places, without a sign. -/
def writeOut (layout : NumberLayout) (decimal : Decimal) : String :=
  let digits := Nat.toDigits 10 decimal.digits
  match decimal.exponent with
  | .ofNat up => String.ofList (digits ++ List.replicate up '0') ++ layout.wholeMark
  | .negSucc down =>
    let places := down + 1
    -- At least one digit stands before the point.
    let padded := List.replicate (places + 1 - digits.length) '0' ++ digits
    String.ofList (padded.take (padded.length - places)) ++ "." ++
      String.ofList (padded.drop (padded.length - places))

/-- A decimal as one leading digit and a power of ten, without a sign. -/
def writeExponent (leading : Int) (digits : List Char) : String :=
  let mantissa :=
    match digits with
    | first :: second :: rest => String.ofList (first :: '.' :: second :: rest)
    | short => String.ofList short
  mantissa ++ "e" ++ (if 0 ≤ leading then "+" else "") ++ toString leading

/-- The written form of a number. -/
def write (layout : NumberLayout) (number : Binary64) : String :=
  if number.isNaN then "NaN"
  else
    let sign := if number.isNegative then "-" else ""
    if !number.isFinite then sign ++ "inf"
    else
      let decimal := number.shortest layout.tie
      let digits := Nat.toDigits 10 decimal.digits
      let leading := decimal.exponent + digits.length - 1
      sign ++
        if layout.positional leading then layout.writeOut decimal
        else writeExponent leading digits

end NumberLayout

end ModelCatalog
