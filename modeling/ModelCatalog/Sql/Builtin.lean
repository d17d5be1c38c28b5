import ModelCatalog.Model.System
import ModelCatalog.Sql.Statement

/-! The built-in tables, and the fields by which models record who made and changed a row. -/

namespace ModelCatalog

/-- The names of the audit fields. -/
def auditFieldNames : List String := ["created_at", "updated_at", "created_by", "owned_by"]

/-- The audit fields: two times, and two relations to users. -/
def auditFields : List Field :=
  let toUser : Relation := { Relation.to .manyToOne "User" with onDelete := some .setNull }
  [(Field.ofScalar "created_at" .timestamp).withDefault .now,
    (Field.ofScalar "updated_at" .timestamp).withDefault .now,
    Field.ofRelation "created_by" toUser,
    Field.ofRelation "owned_by" toUser]

/-- The audit fields after all others, in the stead of fields of the same names. -/
def withAuditFields (fields : List Field) : List Field :=
  fields.filter (fun field => !auditFieldNames.contains field.name) ++ auditFields

namespace Builtin

/-- An unquoted column. -/
def bareColumn (name : Identifier) (type : String) (constraints : List Constraint) : Column :=
  { name := name, type := type, constraints := constraints, bare := true }

/-- The times at which a row was made and changed. -/
def stamps : List Column :=
  [bareColumn ⟨"created_at", by decide⟩ "TIMESTAMP" [.default .now],
    bareColumn ⟨"updated_at", by decide⟩ "TIMESTAMP" [.default .now]]

/-- The table of roles. -/
def role : Identifier := ⟨"Role", by decide⟩

/-- The table of groups of users. -/
def userGroup : Identifier := ⟨"UserGroup", by decide⟩

/-- The table of users. -/
def user : Identifier := ⟨"User", by decide⟩

/-- The key column of a built-in table. -/
def key (keyType : String) : Column :=
  { name := idIdentifier, type := keyType, constraints := [.primaryKey] }

/-- A table of things that have only a name. -/
def named (table : Identifier) (keyType : String) : Statement :=
  .createTable table
    (key keyType :: bareColumn ⟨"name", by decide⟩ "TEXT" [.unique, .notNull] :: stamps)

/-- A column that refers to another built-in table. -/
def reference (name : Identifier) (keyType : String) (table : Identifier) : Column :=
  { name := name, type := keyType, constraints := [.references table none] }

/-- The statements that create the built-in tables, those referred to first. -/
def statements (system : SystemModels) : List Statement :=
  [named role system.keyType,
    named userGroup system.keyType,
    .createTable user
      ([key system.keyType,
        bareColumn ⟨"username", by decide⟩ "TEXT" [.unique, .notNull],
        bareColumn ⟨"password", by decide⟩ "TEXT" [.notNull],
        reference ⟨"roleId", by decide⟩ system.keyType role,
        reference ⟨"userGroupId", by decide⟩ system.keyType userGroup] ++ stamps)]

end Builtin

end ModelCatalog
