import ModelCatalog.Json.Value

/-! Numbers as JSON text writes them.

The digits are gathered into a significand of 64 bits; once it is full, further digits only move
the point. A power of ten is then applied in double precision. -/

namespace ModelCatalog

namespace Numeral

/-- The largest significand. -/
def fullSignificand : Nat := Nat.pow 2 64 - 1

/-- The value of a decimal digit. -/
def digit? (character : Char) : Option Nat :=
  if character.isDigit then some (character.toNat - 48) else none

/-- The digits in front of a text, and what follows them. -/
def takeDigits (characters : List Char) : List Nat × List Char :=
  ((characters.takeWhile Char.isDigit).filterMap digit?, characters.dropWhile Char.isDigit)

/-- Add digits to a significand while there is room; also count those added and those left. -/
def gather (significand : Nat) : List Nat → Nat × Nat × Nat
  | [] => (significand, 0, 0)
  | digit :: rest =>
    -- Once the significand is full no digit is added, even one that would fit again.
    if fullSignificand < significand * 10 + digit then (significand, 0, rest.length + 1)
    else
      let further := gather (significand * 10 + digit) rest
      (further.1, further.2.1 + 1, further.2.2)

/-- The parts of a number as they are written. -/
structure Parts where
  negative : Bool
  whole : List Nat
  fraction : Option (List Nat)
  /-- The sign and the digits of the exponent. -/
  exponent : Option (Bool × List Nat)

/-- The digits of a fraction, which has at least one when there is a point. -/
def fractionPart (characters : List Char) : Option (Option (List Nat) × List Char) :=
  match characters with
  | '.' :: rest =>
    let taken := takeDigits rest
    if taken.1.isEmpty then none else some (some taken.1, taken.2)
  | other => some (none, other)

/-- The digits of an exponent, which has at least one after its mark and sign. -/
def exponentPart (characters : List Char) :
    Option (Option (Bool × List Nat) × List Char) :=
  let signed (rest : List Char) : Option (Option (Bool × List Nat) × List Char) :=
    let split : Bool × List Char :=
      match rest with
      | '+' :: rest => (false, rest)
      | '-' :: rest => (true, rest)
      | rest => (false, rest)
    let taken := takeDigits split.2
    if taken.1.isEmpty then none else some (some (split.1, taken.1), taken.2)
  match characters with
  | 'e' :: rest => signed rest
  | 'E' :: rest => signed rest
  | other => some (none, other)

/-- Split the number in front of a text into its parts; a zero stands alone before the point. -/
def split (characters : List Char) : Option (Parts × List Char) := do
  let start : Bool × List Char :=
    match characters with
    | '-' :: rest => (true, rest)
    | other => (false, other)
  let whole := takeDigits start.2
  -- Of several digits the first is no zero.
  if whole.1.isEmpty || (1 < whole.1.length && whole.1.head? == some 0) then none
  else
    let (fraction, afterFraction) ← fractionPart whole.2
    let (exponent, rest) ← exponentPart afterFraction
    return (⟨start.1, whole.1, fraction, exponent⟩, rest)

/-- A power of ten in double precision. -/
def powerOfTen (exponent : Nat) : Binary64 := .ofNat (Nat.pow 10 exponent)

/-- A product in double precision. -/
def times (left right : Binary64) : Binary64 :=
  .ofRatio false (left.ratio.1 * right.ratio.1) (left.ratio.2 * right.ratio.2)

/-- A quotient in double precision. -/
def quotient (left right : Binary64) : Binary64 :=
  .ofRatio false (left.ratio.1 * right.ratio.2) (left.ratio.2 * right.ratio.1)

/-- The greatest power of ten that is applied in one go. -/
def greatestPower : Nat := 308

/-- Divide by a power of ten, in parts when it is too great. -/
def divide (value : Binary64) : Nat → Nat → Binary64
  | 0, _ => value
  | fuel + 1, exponent =>
    -- The last step divides by a power that double precision can hold.
    if exponent ≤ greatestPower then quotient value (powerOfTen exponent)
    else if value.magnitude = 0 then value
    else divide (quotient value (powerOfTen greatestPower)) fuel (exponent - greatestPower)

/-- A significand times a power of ten, unless it is too large for a number. -/
def scaled (significand : Nat) (exponent : Int) : Option Binary64 :=
  let value := Binary64.ofNat significand
  match exponent with
  | .negSucc down => some (divide value 4 (down + 1))
  | .ofNat up =>
    if up ≤ greatestPower then
      let product := times value (powerOfTen up)
      if product.isFinite then some product else none
    else if significand = 0 then some value
    else none

/-- The value of the digits of an exponent. -/
def exponentValue (digits : List Nat) : Nat :=
  digits.foldl (fun value digit => value * 10 + digit) 0

/-- The greatest exponent that is read as a number. -/
def greatestExponent : Nat := Nat.pow 2 31 - 1

/-- The double-precision value of the parts, unless it is too large. -/
def float (parts : Parts) : Option Binary64 :=
  let whole := gather 0 parts.whole
  let fraction := gather whole.1 (parts.fraction.getD [])
  -- Digits that were left move the point one way, digits of the fraction the other.
  let point : Int := whole.2.2 - fraction.2.1
  let value :=
    match parts.exponent with
    | none => scaled fraction.1 point
    | some (down, digits) =>
      let exponent := exponentValue digits
      if greatestExponent < exponent then
        -- The value is too large or vanishes, by the sign of the exponent.
        if fraction.1 ≠ 0 ∧ down = false then none else some (.ofNat 0)
      else scaled fraction.1 (if down then point - exponent else point + exponent)
  value.map fun value => if parts.negative then value.negate else value

/-- The value of the parts: an integer where it has neither point nor exponent and fits into 64
bits, and otherwise a double-precision number, unless that is too large. -/
def value (parts : Parts) : Option JsonNumber :=
  let whole := gather 0 parts.whole
  if parts.fraction.isSome || parts.exponent.isSome || 0 < whole.2.2 then
    (float parts).map .float
  -- A negative zero is no integer, nor is a number below the smallest of 64 bits.
  else if !parts.negative then some (.integer whole.1)
  else if whole.1 = 0 || Nat.pow 2 63 < whole.1 then
    some (.float (Binary64.ofNat whole.1).negate)
  else some (.integer (-whole.1))

end Numeral

end ModelCatalog
