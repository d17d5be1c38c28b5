/-! Spans of time and the text messages give them. -/

namespace ModelCatalog

/-- A span of time in whole nanoseconds. -/
structure Duration where
  nanoseconds : Nat
  deriving DecidableEq, Repr

namespace Duration

/-- A span of whole seconds. -/
def ofSeconds (seconds : Nat) : Duration := ⟨seconds * 1000000000⟩

/-- An amount in a unit of `10 ^ places` nanoseconds, without trailing zeros. -/
def amount (places nanoseconds : Nat) : String :=
  let whole := nanoseconds / Nat.pow 10 places
  let digits := Nat.toDigits 10 (nanoseconds % Nat.pow 10 places)
  -- The part below one unit keeps its leading zeros and drops its trailing ones.
  let padded := List.replicate (places - digits.length) '0' ++ digits
  let kept := (padded.reverse.dropWhile (· == '0')).reverse
  if kept.isEmpty then toString whole
  else toString whole ++ "." ++ String.ofList kept

/-- The span in the largest unit of which it holds at least one. -/
def text (span : Duration) : String :=
  let count := span.nanoseconds
  if 1000000000 ≤ count then amount 9 count ++ "s"
  else if 1000000 ≤ count then amount 6 count ++ "ms"
  else if 1000 ≤ count then amount 3 count ++ "µs"
  else toString count ++ "ns"

end Duration

end ModelCatalog
