/-! Kinds of statements that change a database schema. -/

namespace ModelCatalog

/-- What a statement does to its table. -/
inductive StatementKind where
  | createTable
  | createJoinTable
  | addColumn
  | dropTable
  deriving DecidableEq, Repr

/-- The word for a kind. -/
def StatementKind.label : StatementKind → String
  | createTable => "create_table"
  | createJoinTable => "create_join_table"
  | addColumn => "add_column"
  | dropTable => "drop_table"

/-- The kind of a word, if it is one. -/
def StatementKind.ofLabel? : String → Option StatementKind
  | "create_table" => some createTable
  | "create_join_table" => some createJoinTable
  | "add_column" => some addColumn
  | "drop_table" => some dropTable
  | _ => none

end ModelCatalog
