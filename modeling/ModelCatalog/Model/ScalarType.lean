/-! Scalar field types and the column types that hold them. -/

namespace ModelCatalog

/-- The type of a field that holds one plain value. -/
inductive ScalarType where
  | text
  | richText
  | email
  | password
  | uid
  | integer
  | bigInteger
  | decimal
  | float
  | date
  | dateTime
  | time
  | timestamp
  | boolean
  | json
  deriving DecidableEq, Repr

namespace ScalarType

/-- Every scalar type, in the order of declaration. -/
def all : List ScalarType :=
  [text, richText, email, password, uid, integer, bigInteger, decimal, float, date, dateTime,
    time, timestamp, boolean, json]

/-- The word for a type in model documents. -/
def label : ScalarType → String
  | text => "text"
  | richText => "richtext"
  | email => "email"
  | password => "password"
  | uid => "uid"
  | integer => "integer"
  | bigInteger => "bigint"
  | decimal => "decimal"
  | float => "float"
  | date => "date"
  | dateTime => "datetime"
  | time => "time"
  | timestamp => "timestamp"
  | boolean => "boolean"
  | json => "json"

/-- The type of a word, if it is one. -/
def ofLabel? (word : String) : Option ScalarType := all.find? fun type => type.label == word

/-- The SQL type of a column that holds the values. -/
def columnType : ScalarType → String
  | text | email | password | uid => "VARCHAR(255)"
  | richText => "TEXT"
  | integer => "INT"
  | bigInteger => "BIGINT"
  | decimal => "DECIMAL(18,4)"
  | float => "REAL"
  | date => "DATE"
  | dateTime | timestamp => "TIMESTAMP"
  | time => "TIME"
  | boolean => "BOOLEAN"
  | json => "JSONB"

/-- The values are whole numbers. -/
def isInteger : ScalarType → Bool
  | integer | bigInteger => true
  | _ => false

end ScalarType

end ModelCatalog
