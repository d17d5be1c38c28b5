import ModelCatalog.Identifier
import ModelCatalog.Number.Layout

/-! Values a column takes when none is given. -/

namespace ModelCatalog

/-- The value a column takes when none is given. -/
inductive DefaultValue where
  /-- The time at which the row is written. -/
  | now
  | integer (value : Int64)
  | float (value : Binary64)
  | boolean (value : Bool)
  | text (value : String)
  deriving DecidableEq

namespace DefaultValue

/-- SQL numbers have all their places, and no point when they are whole. -/
def sqlNumber : NumberLayout where
  tie := .upward
  positional := fun _ => true
  wholeMark := ""

/-- The value as SQL writes it. -/
def sql : DefaultValue → String
  | now => "CURRENT_TIMESTAMP"
  | integer value => toString value.toInt
  | float value => sqlNumber.write value
  | boolean true => "TRUE"
  | boolean false => "FALSE"
  | text value => quoteLiteral value

/-- Equality of values, by which numbers compare as numbers. -/
def sameAs : DefaultValue → DefaultValue → Bool
  | float left, float right => left.equals right
  | left, right => left == right

end DefaultValue

end ModelCatalog
