import ModelCatalog.Proofs.Columns
import ModelCatalog.Proofs.Compilation

/-! Declarations: the tables and the columns that are compiled from a model, and which tables they
refer to. -/

namespace ModelCatalog

/-! ## Columns -/

namespace Constraint

/-- The table that a constraint refers to, if it refers to one. -/
def reference? : Constraint → Option String
  | references table _ => some table.text
  | _ => none

end Constraint

namespace Column

/-- The tables that a column refers to. -/
def references (column : Column) : List String := column.constraints.filterMap Constraint.reference?

end Column

namespace Context

variable {context : Context} {model : Model} {field : Field}

/-- A constraint that stands only under a condition refers to what it refers to anyway. -/
theorem filterMap_constraintIf {condition : Bool} {constraint : Constraint}
    (plain : constraint.reference? = none) :
    (constraintIf condition constraint).filterMap Constraint.reference? = [] := by
  -- The condition decides between the constraint and none.
  cases condition <;> simp [constraintIf, plain]

/-- A default refers to no table. -/
theorem filterMap_defaultOf (field : Field) :
    (defaultOf field).filterMap Constraint.reference? = [] := by
  -- A default gives a constraint of its own kind, or none.
  unfold defaultOf
  split <;> rfl

/-- A column that is declared for a field bears the name of its column, and refers to no table but
the one the field relates to. -/
theorem of_column {column : Column} (done : context.column model field = .ok (some column)) :
    field.columnName? = some column.name.text ∧
      ∀ table ∈ column.references, field.targets table = true := by
  -- Only a foreign key refers to a table, and of its constraints only one does.
  cases compiled_of_column done with
  | numbered name type primary kind own =>
    exact ⟨by rw [Field.columnName?, kind, ← own]; rfl, fun _ none => by cases none⟩
  | scalar name type primary kind own =>
    refine ⟨by rw [Field.columnName?, kind, own], fun table listed => ?_⟩
    simp only [Column.references, List.filterMap_append, filterMap_defaultOf] at listed
    rw [filterMap_constraintIf rfl, filterMap_constraintIf rfl,
      filterMap_constraintIf rfl] at listed
    cases listed
  | choice name options kind own =>
    -- The column of a choice lists the options in a check, which refers to nothing.
    refine ⟨by rw [Field.columnName?, kind, own], fun table listed => ?_⟩
    simp only [Column.references, List.filterMap_append, filterMap_defaultOf] at listed
    rw [filterMap_constraintIf rfl, filterMap_constraintIf rfl] at listed
    cases listed
  | foreignKey name target relation kind owned named leads =>
    refine ⟨by simp only [Field.columnName?, kind, owned, reduceIte, named],
      fun table listed => ?_⟩
    simp only [Column.references, List.filterMap_append] at listed
    rw [filterMap_constraintIf rfl, filterMap_constraintIf rfl] at listed
    refine Field.targets_iff.mpr ⟨relation, Field.relation?_eq_some.mpr kind, ?_⟩
    simpa [Constraint.reference?, leads, eq_comm] using listed

/-- A field without a declared column has none. -/
theorem columnName?_of_column (done : context.column model field = .ok none) :
    field.columnName? = none := by
  -- Only a relation can go without a column, and then it holds no foreign key.
  cases compiled_of_column done with
  | keyless relation kind unowned =>
    simp only [Field.columnName?, kind, unowned, Bool.false_eq_true, reduceIte]

end Context

/-! ## Statements -/

namespace Statement

/-- The tables that a statement refers to besides the one it changes. -/
def references : Statement → List String
  | createTable _ columns => columns.flatMap Column.references
  | createJoinTable _ left right => left.references ++ right.references
  | addColumn _ column => column.references
  | dropTable _ => []

/-- The statement adds a column to a table. -/
def Adds (statement : Statement) (table column : String) : Prop :=
  ∃ own added, statement = addColumn own added ∧ own.text = table ∧ added.name.text = column

end Statement

namespace Context

variable {context : Context} {model : Model} {field : Field} {statement : Statement}

/-- A join table that is declared for a field joins the model to the one the field relates to. -/
theorem of_joinTable (done : context.joinTable model field = .ok (some statement)) :
    ∃ table left right, statement = .createJoinTable table left right ∧
      field.joinTable? model.name = some table.text ∧
      ∀ other ∈ statement.references, other = model.name ∨ field.targets other = true := by
  cases joined_of_joinTable done with
  | table relation related uses table left right owner target named _ _ owns leads =>
    refine ⟨table, _, _, rfl, ?_, fun other listed => ?_⟩
    · simp only [Field.joinTable?, related, Option.bind_some, uses, reduceIte, named]
    · -- One column refers to the model, and the other one to what the field relates to.
      simp only [Statement.references, Column.references, joinColumn, Constraint.reference?,
        List.filterMap_cons, List.filterMap_nil, List.singleton_append, List.mem_cons,
        List.not_mem_nil, or_false, owns, leads] at listed
      exact listed.imp_right fun isTarget =>
        Field.targets_iff.mpr ⟨relation, related, isTarget.symm⟩

/-- A field without a declared join table has none. -/
theorem joinTable?_of_joinTable (done : context.joinTable model field = .ok none) :
    field.joinTable? model.name = none := by
  cases joined_of_joinTable done with
  | unjoined unused =>
    -- Without a relation there is nothing to join, and a relation of another kind has no table.
    cases related : field.relation? with
    | none => simp only [Field.joinTable?, related, Option.bind_none]
    | some relation =>
      simp only [Field.joinTable?, related, Option.bind_some, unused relation related,
        Bool.false_eq_true, reduceIte]

end Context

/-! ## Compiled models -/

section Distinct

variable {α : Type} {key : α → String} {members : List α} {member : α}

/-- Keeping the first of each key keeps members only. -/
theorem mem_of_mem_distinctBy (kept : member ∈ distinctBy key members) : member ∈ members := by
  -- The induction follows the list; keeping a member only filters those behind it.
  induction members with
  | nil => exact kept
  | cons first rest ih =>
    rcases List.mem_cons.mp kept with rfl | later
    · exact List.mem_cons_self
    · exact List.mem_cons_of_mem _ (ih (List.mem_filter.mp later).1)

/-- Keeping the first of each key keeps every key. -/
theorem exists_mem_distinctBy (key : α → String) (present : member ∈ members) :
    ∃ kept ∈ distinctBy key members, key kept = key member := by
  -- Either the first member has the key, or one behind it does, which is not filtered out.
  induction members with
  | nil => cases present
  | cons first rest ih =>
    by_cases same : key member = key first
    · exact ⟨first, List.mem_cons_self, same.symm⟩
    · rcases List.mem_cons.mp present with rfl | later
      · exact absurd rfl same
      · obtain ⟨kept, listed, alike⟩ := ih later
        refine ⟨kept, List.mem_cons_of_mem _ (List.mem_filter.mpr ⟨listed, ?_⟩), alike⟩
        rw [bne_iff_ne, alike]
        exact same

/-- Keeping the first of each key keeps no key twice. -/
theorem nodup_map_distinctBy (key : α → String) (members : List α) :
    ((distinctBy key members).map key).Nodup := by
  -- Members behind the first have other keys, since those with its key are filtered out.
  induction members with
  | nil => exact List.nodup_nil
  | cons first rest ih =>
    rw [distinctBy, List.map_cons, List.nodup_cons]
    refine ⟨fun again => ?_, ih.sublist (List.filter_sublist.map key)⟩
    obtain ⟨kept, listed, alike⟩ := List.mem_map.mp again
    exact bne_iff_ne.mp (List.mem_filter.mp listed).2 alike

end Distinct

/-- Keeping the first of each name keeps every name. -/
theorem mem_distinctBy_id {name : String} {names : List String} :
    name ∈ distinctBy id names ↔ name ∈ names := by
  -- Every name is its own key, so the one that is kept for it is the name itself.
  refine ⟨mem_of_mem_distinctBy, fun present => ?_⟩
  obtain ⟨kept, listed, rfl⟩ := exists_mem_distinctBy id present
  exact listed

section Compiled

variable {context : Context} {model : Model} {columns : List (Option Column)}
  {joins : List (Option Statement)}

/-- For every field with a column one is declared. -/
theorem Context.exists_column_of_name
    (columnsDone : model.fields.mapM (context.column model) = .ok columns) {name : String}
    (isDeclared : name ∈ model.fields.filterMap Field.columnName?) :
    ∃ column ∈ columns.filterMap id, column.name.text = name := by
  -- The column is that of the field that was compiled at its place.
  obtain ⟨field, present, isColumn⟩ := List.mem_filterMap.mp isDeclared
  obtain ⟨made, isMade, compiled⟩ := Outcome.exists_of_mapM_eq_ok columnsDone present
  cases made with
  | none =>
    rw [columnName?_of_column compiled] at isColumn
    cases isColumn
  | some column =>
    rw [(of_column compiled).1, Option.some.injEq] at isColumn
    exact ⟨column, List.mem_filterMap.mpr ⟨_, isMade, rfl⟩, isColumn⟩

/-- The declared columns refer to models that the model relates to. -/
theorem Context.references_of_columns
    (columnsDone : model.fields.mapM (context.column model) = .ok columns) {column : Column}
    (listed : column ∈ columns.filterMap id) {other : String}
    (referred : other ∈ column.references) : model.references other = true := by
  -- The column is that of a field, which relates to whatever its column refers to.
  obtain ⟨field, present, compiled⟩ := Outcome.exists_input_of_filterMap columnsDone listed
  exact List.any_eq_true.mpr ⟨field, present, (of_column compiled).2 other referred⟩

/-- For every join table of the model one is declared. -/
theorem Context.exists_joinTable_of_name
    (joinsDone : model.fields.mapM (context.joinTable model) = .ok joins) {table : String}
    (listed : table ∈ model.joinTableNames) :
    ∃ statement ∈ joins.filterMap id, statement.table.text = table := by
  -- As for columns, the table is that of the field that was compiled at its place.
  obtain ⟨field, present, isTable⟩ := Model.mem_joinTableNames.mp listed
  obtain ⟨made, isMade, compiled⟩ := Outcome.exists_of_mapM_eq_ok joinsDone present
  cases made with
  | none =>
    rw [joinTable?_of_joinTable compiled] at isTable
    cases isTable
  | some statement =>
    obtain ⟨own, left, right, rfl, isOwn, -⟩ := of_joinTable compiled
    rw [isOwn, Option.some.injEq] at isTable
    exact ⟨_, List.mem_filterMap.mpr ⟨_, isMade, rfl⟩, isTable⟩

/-- The declared join tables are those of the model, and join it to models that it relates to. -/
theorem Context.of_joinTables
    (joinsDone : model.fields.mapM (context.joinTable model) = .ok joins) {statement : Statement}
    (listed : statement ∈ joins.filterMap id) :
    (∃ table left right, statement = .createJoinTable table left right ∧
      table.text ∈ model.joinTableNames) ∧
    ∀ other ∈ statement.references, other = model.name ∨ model.references other = true := by
  -- Each statement was compiled from one of the fields.
  obtain ⟨field, present, compiled⟩ := Outcome.exists_input_of_filterMap joinsDone listed
  obtain ⟨table, left, right, same, isTable, refersTo⟩ := of_joinTable compiled
  refine ⟨⟨table, left, right, same, Model.mem_joinTableNames.mpr ⟨field, present, isTable⟩⟩,
    fun other referred => (refersTo other referred).imp id fun targets => ?_⟩
  exact List.any_eq_true.mpr ⟨field, present, targets⟩

end Compiled

/-- What is compiled from a model declares its tables: its own with all its columns, and the join
tables of its fields. It refers to the model and to those the model relates to. -/
structure Synthesis.Declares (synthesis : Synthesis) (model : Model) : Prop where
  table : ∃ own columns, synthesis.table = .createTable own columns ∧ own.text = model.name ∧
    ∀ name ∈ model.columnNames, ∃ column ∈ columns, column.name.text = name
  refers : ∀ other ∈ synthesis.table.references, model.references other = true
  joined : ∀ table ∈ model.joinTableNames, ∃ statement ∈ synthesis.joinTables,
    statement.table.text = table
  joins : ∀ statement ∈ synthesis.joinTables,
    (∃ table left right, statement = .createJoinTable table left right ∧
      table.text ∈ model.joinTableNames) ∧
    ∀ other ∈ statement.references, other = model.name ∨ model.references other = true

/-- What is compiled from a model declares its tables. -/
theorem Context.declares_of_synthesize {context : Context} {model : Model} {synthesis : Synthesis}
    (done : context.synthesize model = .ok synthesis) : synthesis.Declares model := by
  obtain ⟨own, columns, joins, isOwn, columnsDone, joinsDone, rfl⟩ :=
    exists_parts_of_synthesize done
  refine ⟨⟨own, _, rfl, isOwn, fun name listed => ?_⟩, fun other listed => ?_,
    fun table listed => ?_, fun statement listed => ?_⟩
  · -- The key column is declared when it is no field, and every other column is one of a field.
    simp only [Model.columnNames] at listed
    split at listed
    · rename_i keyed
      rw [if_pos keyed]
      rcases List.mem_cons.mp listed with rfl | isDeclared
      · exact ⟨_, List.mem_append_left _ (List.mem_singleton.mpr rfl), rfl⟩
      · obtain ⟨column, isColumn, isName⟩ := exists_column_of_name columnsDone isDeclared
        exact ⟨column, List.mem_append_right _ isColumn, isName⟩
    · obtain ⟨column, isColumn, isName⟩ := exists_column_of_name columnsDone listed
      exact ⟨column, List.mem_append_right _ isColumn, isName⟩
  · obtain ⟨column, isColumn, referred⟩ := List.mem_flatMap.mp listed
    rcases List.mem_append.mp isColumn with key | isDeclared
    · -- The key column refers to no table.
      split at key
      · rw [List.mem_singleton] at key
        subst key
        cases referred
      · cases key
    · exact references_of_columns columnsDone isDeclared referred
  · -- Of join tables of one name the first is kept, and it bears that name as well.
    obtain ⟨statement, isStatement, isTable⟩ := exists_joinTable_of_name joinsDone listed
    obtain ⟨kept, isKept, same⟩ := exists_mem_distinctBy
      (fun statement : Statement => statement.table.text) isStatement
    exact ⟨kept, isKept, same.trans isTable⟩
  · exact of_joinTables joinsDone (mem_of_mem_distinctBy listed)

end ModelCatalog
