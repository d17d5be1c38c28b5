/-! Double-precision numbers as bit patterns, with their exact values as ratios. -/

namespace ModelCatalog

/-- A double-precision number, known by its bits. -/
structure Binary64 where
  bits : UInt64
  deriving DecidableEq, Repr

namespace Binary64

/-- The pattern without its sign, which orders the absolute values. -/
def magnitude (number : Binary64) : Nat := number.bits.toNat % Nat.pow 2 63

/-- The sign bit is set. -/
def isNegative (number : Binary64) : Bool := Nat.pow 2 63 ≤ number.bits.toNat

/-- The magnitude that stands for infinity; larger ones are not numbers. -/
def infinite : Nat := 2047 * Nat.pow 2 52

/-- The pattern stands for no number. -/
def isNaN (number : Binary64) : Bool := infinite < number.magnitude

/-- The pattern stands for a number of finite size. -/
def isFinite (number : Binary64) : Bool := number.magnitude < infinite

/-- Equality of values: both zeros are one value, and what is not a number equals nothing. -/
def equals (left right : Binary64) : Bool :=
  !left.isNaN && !right.isNaN &&
    (left == right || (left.magnitude == 0 && right.magnitude == 0))

/-- A pattern from its sign and magnitude. -/
def ofMagnitude (negative : Bool) (magnitude : Nat) : Binary64 :=
  ⟨UInt64.ofNat (if negative then Nat.pow 2 63 + magnitude else magnitude)⟩

/-- The same number with the other sign. -/
def negate (number : Binary64) : Binary64 := ofMagnitude (!number.isNegative) number.magnitude

/-- The significand of a finite magnitude, with the leading bit that the pattern leaves out. -/
def significand (number : Binary64) : Nat :=
  let fraction := number.magnitude % Nat.pow 2 52
  if number.magnitude < Nat.pow 2 52 then fraction else Nat.pow 2 52 + fraction

/-- The power of two by which the significand counts, moved up by 1074 to be natural. -/
def scale (number : Binary64) : Nat := number.magnitude / Nat.pow 2 52 - 1

/-- The absolute value of a finite number, as a numerator and a denominator. -/
def ratio (number : Binary64) : Nat × Nat :=
  if 1074 ≤ number.scale then (number.significand * Nat.pow 2 (number.scale - 1074), 1)
  else (number.significand, Nat.pow 2 (1074 - number.scale))

/-- A quotient rounded to the nearest whole number, a half going to the even one. -/
def roundHalfEven (numerator denominator : Nat) : Nat :=
  let quotient := numerator / denominator
  let doubled := 2 * (numerator % denominator)
  if doubled < denominator then quotient
  else if denominator < doubled then quotient + 1
  else quotient + quotient % 2

/-- The scale at which a ratio has a significand of 53 bits, or the least scale. -/
def scaleOf (numerator denominator : Nat) : Nat :=
  -- The logarithms give the leading bit up to one place, and one comparison settles it.
  let above := 1074 + numerator.log2
  let below := 52 + denominator.log2
  let short :=
    if denominator.log2 ≤ numerator.log2 then
      numerator < denominator * Nat.pow 2 (numerator.log2 - denominator.log2)
    else numerator * Nat.pow 2 (denominator.log2 - numerator.log2) < denominator
  if short then above - below - 1 else above - below

/-- The magnitude nearest to a ratio; what is too large becomes infinity. -/
def nearestMagnitude (numerator denominator : Nat) : Nat :=
  if numerator = 0 then 0
  else
    let scale := scaleOf numerator denominator
    let significand :=
      if 1074 ≤ scale then roundHalfEven numerator (denominator * Nat.pow 2 (scale - 1074))
      else roundHalfEven (numerator * Nat.pow 2 (1074 - scale)) denominator
    -- A significand that reaches 54 bits carries into the next scale by itself.
    min infinite (scale * Nat.pow 2 52 + significand)

/-- The number nearest to a ratio, with a sign. -/
def ofRatio (negative : Bool) (numerator denominator : Nat) : Binary64 :=
  ofMagnitude negative (nearestMagnitude numerator denominator)

/-- The number nearest to a natural number. -/
def ofNat (value : Nat) : Binary64 := ofRatio false value 1

/-- A value that is not a number. -/
def nan : Binary64 := ⟨0x7ff8000000000000⟩

/-- Infinity of either sign. -/
def infinity (negative : Bool) : Binary64 := ofMagnitude negative infinite

end Binary64

end ModelCatalog
