import ModelCatalog.Number.Binary64

/-! The shortest decimal that reads back as a given double-precision number. -/

namespace ModelCatalog

/-- A decimal `digits · 10 ^ exponent`. -/
structure Decimal where
  digits : Nat
  exponent : Int
  deriving DecidableEq, Repr

/-- Which of two equally near decimals is taken. -/
inductive Tie where
  | toEven
  | upward
  deriving DecidableEq, Repr

namespace Shortest

/-- A ratio of natural numbers. -/
structure Ratio where
  numerator : Nat
  denominator : Nat

/-- A ratio multiplied by a power of ten. -/
def Ratio.shift (ratio : Ratio) (exponent : Int) : Ratio :=
  match exponent with
  | .ofNat up => ⟨ratio.numerator * Nat.pow 10 up, ratio.denominator⟩
  | .negSucc down => ⟨ratio.numerator, ratio.denominator * Nat.pow 10 (down + 1)⟩

/-- The values that round to a number: how far they reach below and above it, in quarters of
its last place, and whether the ends belong to them. -/
structure Neighbourhood where
  value : Ratio
  below : Nat
  above : Nat
  closed : Bool

/-- The neighbourhood of a finite number other than zero. -/
def Neighbourhood.of (number : Binary64) : Neighbourhood where
  value := ⟨number.ratio.1, number.ratio.2⟩
  -- Below a power of two the next number is half as far away.
  below := if number.significand = Nat.pow 2 52 ∧ 0 < number.scale then 1 else 2
  above := 2
  closed := number.significand % 2 = 0

/-- A decimal lies in the neighbourhood of a number with significand `count`. -/
def Neighbourhood.holds (range : Neighbourhood) (count : Nat) (decimal : Ratio) : Bool :=
  -- The decimal in quarters of the last place is `4 · count · decimal / value`.
  let left := decimal.numerator * range.value.denominator * (4 * count)
  let unit := decimal.denominator * range.value.numerator
  let low := (4 * count - range.below) * unit
  let high := (4 * count + range.above) * unit
  if range.closed then low ≤ left && left ≤ high else low < left && left < high

/-- The least exponent of ten above a ratio, found by trying the next one `fuel` times. -/
def leadingPlace (ratio : Ratio) : Nat → Int → Int
  | 0, exponent => exponent
  | fuel + 1, exponent =>
    let unit := Ratio.shift ⟨1, 1⟩ exponent
    if ratio.numerator * unit.denominator < unit.numerator * ratio.denominator then exponent
    else leadingPlace ratio fuel (exponent + 1)

/-- The decimal of one length nearest to a number, if it reads back. -/
def candidate (tie : Tie) (range : Neighbourhood) (count : Nat) (exponent : Int) :
    Option Decimal :=
  -- The two neighbours of the number on the grid are its floor and the next point.
  let onGrid := range.value.shift (-exponent)
  let floor := onGrid.numerator / onGrid.denominator
  let rest := 2 * (onGrid.numerator % onGrid.denominator)
  let fits := fun digits => range.holds count (Ratio.shift ⟨digits, 1⟩ exponent)
  let upper :=
    match tie with
    | .toEven => onGrid.denominator < rest || (rest == onGrid.denominator && floor % 2 == 1)
    | .upward => onGrid.denominator ≤ rest
  match fits floor, fits (floor + 1) with
  | true, true => some ⟨if upper then floor + 1 else floor, exponent⟩
  | true, false => some ⟨floor, exponent⟩
  | false, true => some ⟨floor + 1, exponent⟩
  | false, false => none

/-- The first length, counted up from the shortest, at which a decimal reads back. -/
def search (tie : Tie) (range : Neighbourhood) (count : Nat) : Nat → Int → Decimal
  | 0, exponent =>
    let onGrid := range.value.shift (-exponent)
    ⟨onGrid.numerator / onGrid.denominator, exponent⟩
  | fuel + 1, exponent =>
    match candidate tie range count exponent with
    | some found => found
    | none => search tie range count fuel (exponent - 1)

/-- The same decimal without trailing zeros among its digits. -/
def stripZeros : Nat → Decimal → Decimal
  | 0, decimal => decimal
  | fuel + 1, decimal =>
    if decimal.digits ≠ 0 ∧ decimal.digits % 10 = 0 then
      stripZeros fuel ⟨decimal.digits / 10, decimal.exponent + 1⟩
    else decimal

end Shortest

open Shortest in
/-- The decimal with the fewest digits that rounds to the absolute value of a finite number,
and of those the nearest. -/
def Binary64.shortest (tie : Tie) (number : Binary64) : Decimal :=
  if number.magnitude = 0 then ⟨0, 0⟩
  else
    let range := Neighbourhood.of number
    -- Finite numbers lie between `10 ^ -324` and `10 ^ 309`.
    let place := leadingPlace range.value 640 (-324)
    stripZeros 20 (search tie range number.significand 17 (place - 1))

end ModelCatalog
