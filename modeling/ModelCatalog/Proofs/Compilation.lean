import ModelCatalog.Proofs.Validation
import ModelCatalog.Sql.Synthesis

/-! Compilation that has succeeded: what a field is compiled to, with one case for each sort of
field, and the parts of what a whole definition is compiled to. -/

namespace ModelCatalog

namespace Context

/-- The column that a field is compiled to, if its table has one for it: a scalar and a choice have
a column of their own name, and a relation the column of its foreign key if it owns that. -/
inductive Compiled (context : Context) (model : Model) (field : Field) : Option Column → Prop where
  | numbered (name : Identifier) (type : ScalarType) (primary : Bool)
    (kind : field.kind = .scalar type primary true) (own : name.text = field.name) :
    Compiled context model field (some (.numbered name))
  | scalar (name : Identifier) (type : ScalarType) (primary : Bool)
    (kind : field.kind = .scalar type primary false) (own : name.text = field.name) :
    Compiled context model field (some {
      name := name
      type := type.columnType
      constraints :=
        constraintIf primary .primaryKey ++ constraintIf field.unique .unique ++
          constraintIf field.required .notNull ++ defaultOf field })
  | choice (name : Identifier) (options : List String) (kind : field.kind = .choice options)
    (own : name.text = field.name) :
    Compiled context model field (some {
      name := name
      type := "VARCHAR(255)"
      constraints :=
        [.oneOf options] ++ constraintIf field.required .notNull ++
          constraintIf field.unique .unique ++ defaultOf field })
  | foreignKey (name target : Identifier) (relation : Relation)
    (kind : field.kind = .relation relation) (owned : relation.kind.hasColumn = true)
    (named : name.text = relation.columnName field.name) (leads : target.text = relation.target) :
    Compiled context model field (some {
      name := name
      type := context.keyType model relation.target
      constraints :=
        constraintIf field.required .notNull ++ [.references target relation.onDelete] ++
          constraintIf (relation.kind = .oneToOne || field.unique) .unique })
  | keyless (relation : Relation) (kind : field.kind = .relation relation)
    (unowned : relation.kind.hasColumn = false) : Compiled context model field none

/-- The join table that a field is compiled to, if it is a many-to-many relation: it has a column
for the key of the model and one for that of the target. -/
inductive Joined (context : Context) (model : Model) (field : Field) : Option Statement → Prop where
  | table (relation : Relation) (related : field.relation? = some relation)
    (uses : relation.kind.usesJoinTable = true) (table left right owner target : Identifier)
    (named : table.text = relation.joinTableName model.name field.name)
    (leftNamed : left.text = (relation.joinColumnNames model.name field.name).1)
    (rightNamed : right.text = (relation.joinColumnNames model.name field.name).2)
    (owns : owner.text = model.name) (leads : target.text = relation.target) :
    Joined context model field (some (.createJoinTable table
      (joinColumn left (context.keyType model model.name) owner)
      (joinColumn right (context.keyType model relation.target) target)))
  | unjoined (unused : ∀ relation, field.relation? = some relation →
      relation.kind.usesJoinTable = false) : Joined context model field none

variable {context : Context} {model : Model} {field : Field}

/-- A field whose column is declared without an error is compiled to that column. -/
theorem compiled_of_column {column : Option Column}
    (done : context.column model field = .ok column) : context.Compiled model field column := by
  unfold Context.column at done
  obtain ⟨name, checked, done⟩ := Outcome.bind_eq_ok.mp done
  have own : name.text = field.name := (Identifier.checkAt_eq_ok.mp checked).2
  cases kind : field.kind with
  -- A scalar column is numbered by the database or declared with its type.
  | scalar type primary autoIncrement =>
    simp only [kind] at done
    cases autoIncrement <;> cases done
    · exact .scalar name type primary kind own
    · exact .numbered name type primary kind own
  | choice options =>
    -- A choice always has a column.
    simp only [kind] at done
    cases done
    exact .choice name options kind own
  | relation relation =>
    simp only [kind] at done
    split at done
    · -- A foreign key is declared once the names of the column and of the target are checked.
      rename_i owned
      obtain ⟨key, made, done⟩ := Outcome.bind_eq_ok.mp done
      obtain ⟨column, named, made⟩ := Outcome.bind_eq_ok.mp made
      obtain ⟨target, leads, made⟩ := Outcome.bind_eq_ok.mp made
      cases done
      cases made
      exact .foreignKey column target relation kind owned (Identifier.checkAt_eq_ok.mp named).2
        (Identifier.checkAt_eq_ok.mp leads).2
    · rename_i unowned
      -- The other side of the relation holds the key.
      cases done
      exact .keyless relation kind (by simpa using unowned)

/-- A field whose join table is declared without an error is compiled to that table. -/
theorem joined_of_joinTable {statement : Option Statement}
    (done : context.joinTable model field = .ok statement) :
    context.Joined model field statement := by
  unfold Context.joinTable at done
  cases kind : field.kind with
  | relation relation =>
    have related := Field.relation?_eq_some.mpr kind
    simp only [kind] at done
    split at done
    · -- The names are checked one after the other, and each check returns its name.
      rename_i uses
      obtain ⟨left, isLeft, done⟩ := Outcome.bind_eq_ok.mp done
      obtain ⟨right, isRight, done⟩ := Outcome.bind_eq_ok.mp done
      obtain ⟨table, isTable, done⟩ := Outcome.bind_eq_ok.mp done
      obtain ⟨owner, isOwner, done⟩ := Outcome.bind_eq_ok.mp done
      obtain ⟨target, isTarget, done⟩ := Outcome.bind_eq_ok.mp done
      cases done
      exact .table relation related uses table left right owner target
        (Identifier.checkAt_eq_ok.mp isTable).2 (Identifier.checkAt_eq_ok.mp isLeft).2
        (Identifier.checkAt_eq_ok.mp isRight).2 (Identifier.checkAt_eq_ok.mp isOwner).2
        (Identifier.checkAt_eq_ok.mp isTarget).2
    · rename_i unused
      -- A relation of another kind has no join table.
      cases done
      refine .unjoined fun other otherRelated => ?_
      rw [related, Option.some.injEq] at otherRelated
      exact otherRelated ▸ Bool.eq_false_iff.mpr unused
  | _ =>
    -- Any other field is no relation at all.
    simp only [kind] at done
    cases done
    refine .unjoined fun relation related => ?_
    rw [Field.relation?_eq_some, kind] at related
    cases related

/-- What a definition is compiled to: its table with the columns of its fields, behind a column for
the key where no field is called `id`, and the join tables of its fields, of each name the first. -/
theorem exists_parts_of_synthesize {synthesis : Synthesis}
    (done : context.synthesize model = .ok synthesis) :
    ∃ own columns joins, own.text = model.name ∧
      model.fields.mapM (context.column model) = .ok columns ∧
      model.fields.mapM (context.joinTable model) = .ok joins ∧
      synthesis = {
        table := .createTable own
          ((if (model.field? idName).isNone then [Column.numbered idIdentifier] else []) ++
            columns.filterMap id)
        joinTables :=
          distinctBy (fun statement => statement.table.text) (joins.filterMap id) } := by
  -- The parts are compiled one after the other: the check, the name, the columns, the join tables.
  obtain ⟨⟨⟩, -, done⟩ := Outcome.bind_eq_ok.mp done
  obtain ⟨own, named, done⟩ := Outcome.bind_eq_ok.mp done
  obtain ⟨columns, columnsDone, done⟩ := Outcome.bind_eq_ok.mp done
  obtain ⟨joins, joinsDone, done⟩ := Outcome.bind_eq_ok.mp done
  cases done
  exact ⟨own, columns, joins, (Identifier.checkAt_eq_ok.mp named).2, columnsDone, joinsDone, rfl⟩

end Context

end ModelCatalog
