import ModelCatalog.Proofs.Declarations
import ModelCatalog.Proofs.GraphWrite
import ModelCatalog.Relation.DeletePlan

/-! Planned statements: which tables and columns the statements of a plan create, alter and drop. -/

namespace ModelCatalog

/-! ## Writing -/

namespace WritePlan

variable {context : Context} {old : Option Record} {declared : Model} {plan : WritePlan}

/-- A statement that drops the table of a name drops it. -/
theorem of_dropTableOf {name : String} {statement : Statement}
    (made : Statement.dropTableOf name = .ok statement) :
    ∃ table, statement = .dropTable table ∧ table.text = name := by
  -- The name of the table is the one that was checked.
  obtain ⟨table, checked, same⟩ := Outcome.map_eq_ok.mp made
  exact ⟨table, same.symm, (Identifier.checkAt_eq_ok.mp checked).2⟩

/-- A statement that adds a column to the table of a name adds it. -/
theorem of_addColumnTo {name : String} {column : Column} {statement : Statement}
    (made : Statement.addColumnTo name column = .ok statement) :
    statement.Adds name column.name.text ∧ statement.references = column.references := by
  -- The name of the table is the one that was checked, and the column is the given one.
  obtain ⟨table, checked, rfl⟩ := Outcome.map_eq_ok.mp made
  exact ⟨⟨table, column, rfl, (Identifier.checkAt_eq_ok.mp checked).2, rfl⟩, rfl⟩

/-- The statement for the column of a field, if it has one, adds that column and refers to the model
the field relates to. -/
theorem of_columnStatement {table : String} {model : Model} {field : Field}
    {made : Option Statement}
    (done : (do
      match ← context.column model field with
      | some column => return some (← Statement.addColumnTo table column)
      | none => return none : Except Error (Option Statement)) = .ok made) :
    (made = none ∧ field.columnName? = none) ∨
      ∃ statement column, made = some statement ∧ field.columnName? = some column ∧
        statement.Adds table column ∧
        ∀ other ∈ statement.references, field.targets other = true := by
  -- A field that is compiled to a column gets a statement, and any other field gets none.
  obtain ⟨compiled, isCompiled, done⟩ := Outcome.bind_eq_ok.mp done
  cases compiled with
  | none =>
    cases done
    exact Or.inl ⟨rfl, Context.columnName?_of_column isCompiled⟩
  | some column =>
    obtain ⟨statement, isStatement, done⟩ := Outcome.bind_eq_ok.mp done
    cases done
    obtain ⟨named, refers⟩ := Context.of_column isCompiled
    obtain ⟨adds, same⟩ := of_addColumnTo isStatement
    refine Or.inr ⟨statement, _, rfl, named, adds, ?_⟩
    rw [same]
    exact refers

/-- The statements for new columns add them, and refer to models that the model relates to. -/
theorem of_newColumns {before model : Model} {statements : List Statement}
    (done : newColumns context before model = .ok statements) :
    (∀ statement ∈ statements, (∃ column, statement.Adds model.name column) ∧
      ∀ other ∈ statement.references, model.references other = true) ∧
    ∀ column ∈ model.fields.filterMap Field.columnName?,
      column ∈ before.columnNames ∨
        ∃ statement ∈ statements, statement.Adds model.name column := by
  -- Statements are made for the fields whose columns are new, where these have one.
  obtain ⟨all, traversed, done⟩ := Outcome.bind_eq_ok.mp done
  cases done
  constructor
  · -- Every statement was made for one of the fields whose columns are new.
    intro statement listed
    obtain ⟨field, isNew, compiled⟩ := Outcome.exists_input_of_filterMap traversed listed
    rcases of_columnStatement compiled with ⟨none, -⟩ | ⟨other, column, same, -, adds, refers⟩
    · cases none
    · cases same
      exact ⟨⟨column, adds⟩, fun table referred =>
        List.any_eq_true.mpr ⟨field, (List.mem_filter.mp isNew).1, refers table referred⟩⟩
  · intro column isDeclared
    obtain ⟨field, present, named⟩ := List.mem_filterMap.mp isDeclared
    by_cases already : column ∈ before.columnNames
    · exact Or.inl already
    · -- The field is one of those whose columns the old version lacks.
      have isNew : field ∈ model.fieldsWithNewColumns before := by
        refine List.mem_filter.mpr ⟨present, ?_⟩
        simpa [named] using already
      obtain ⟨made, isMade, compiled⟩ := Outcome.exists_of_mapM_eq_ok traversed isNew
      rcases of_columnStatement compiled with ⟨-, none⟩ | ⟨statement, other, same, held, adds, -⟩
      · rw [named] at none
        cases none
      · rw [named, Option.some.injEq] at held
        subst held
        exact Or.inr ⟨statement, List.mem_filterMap.mpr ⟨made, isMade, same⟩, adds⟩

/-- The own statements of a plan: drops of obsolete join tables, the declaration of its model, and
the columns that an old version lacked. -/
structure Builds (context : Context) (old : Option Record) (plan : WritePlan)
    (drops : List Statement) (synthesis : Synthesis) (columns : List Statement) : Prop where
  statements : plan.statements = drops ++ synthesis.table :: columns ++ synthesis.joinTables
  drops : ∀ statement ∈ drops, ∃ table, statement = .dropTable table ∧
    table.text ∈ (changes context.system old plan.definition).obsoleteTables
  declares : synthesis.Declares plan.definition
  adds : ∀ statement ∈ columns, (∃ column, statement.Adds plan.definition.name column) ∧
    ∀ other ∈ statement.references, plan.definition.references other = true
  added : ∀ record, old = some record →
    ∀ column ∈ plan.definition.fields.filterMap Field.columnName?,
      column ∈ record.definition.columnNames ∨
        ∃ statement ∈ columns, statement.Adds plan.definition.name column

/-- A plan builds its model. -/
theorem exists_builds (planned : context.planWrite old declared = .ok plan) :
    ∃ drops synthesis columns, plan.Builds context old drops synthesis columns := by
  -- The parts are those that planning has put together, each of which succeeded.
  obtain ⟨resolved, drops, synthesis, columns, edits, -, -, -, dropped, compiled, lacking, -,
    rfl⟩ := planWrite_eq_ok.mp planned
  refine ⟨drops, synthesis, columns, rfl, fun statement listed => ?_,
    Context.declares_of_synthesize compiled, fun statement listed => ?_, ?_⟩
  · obtain ⟨name, obsolete, made⟩ := Outcome.exists_input_of_mapM_eq_ok dropped listed
    obtain ⟨table, same, isName⟩ := of_dropTableOf made
    exact ⟨table, same, isName ▸ obsolete⟩
  · cases old with
    | none =>
      -- A model without an old version lacks no columns, since its table is only created now.
      cases lacking
      cases listed
    | some record => exact (of_newColumns lacking).1 statement listed
  · rintro record rfl
    exact (of_newColumns lacking).2

/-- An obsolete table is the join table of a field of the old version that does not lead to a system
model, and of no field of the new one. -/
theorem mem_obsoleteTables {system : SystemModels} {old : Option Record} {new : Model}
    {table : String} (obsolete : table ∈ (changes system old new).obsoleteTables) :
    table ∉ new.joinTableNames ∧ ∃ record, old = some record ∧ ∃ field ∈ record.definition.fields,
      field.joinTable? record.definition.name = some table ∧
      ∃ relation, field.relation? = some relation ∧ system.contains relation.target = false := by
  -- Without an old version no table is obsolete.
  cases old with
  | none => cases obsolete
  | some record =>
    -- The table is one of the old join tables that the new version does not use.
    obtain ⟨isOld, unused⟩ := List.mem_filter.mp (mem_of_mem_distinctBy obsolete)
    obtain ⟨⟨field, relation⟩, isRelation, isTable⟩ := List.mem_filterMap.mp isOld
    obtain ⟨present, related⟩ := Model.mem_relations.mp isRelation
    dsimp only at isTable
    split at isTable
    · rename_i leads
      rw [Bool.and_eq_true, Bool.not_eq_true'] at leads
      refine ⟨by simpa using unused, record, rfl, field, present, ?_, relation, related, leads.2⟩
      simp only [Field.joinTable?, related, Option.bind_some, leads.1, reduceIte]
      exact isTable
    · cases isTable

end WritePlan

/-! ## Edits -/

/-- The counterpart that is looked up is the one field that pairs, where there is only one. -/
theorem Model.counterpart_of_filter {model : Model} {source name counterpart : String}
    {placed : Field}
    (only : model.fields.filter (fun field => field.pairsWith source name counterpart) =
      [placed]) :
    (do
      let index ← model.counterpartIndex? source name counterpart
      model.fields[index]?) = some placed := by
  have isPlaced : placed ∈ model.fields ∧ placed.pairsWith source name counterpart = true :=
    List.mem_filter.mp (only ▸ List.mem_singleton.mpr rfl)
  -- A field that pairs is there, so the index is found, and it is that of a field that pairs.
  cases position : model.counterpartIndex? source name counterpart with
  | none =>
    -- Without an index no field would pair, but the one in place does.
    have apart := Model.pairsWith_of_counterpartIndex?_none position placed isPlaced.1
    rw [isPlaced.2] at apart
    cases apart
  | some index =>
    obtain ⟨existing, there, pairs⟩ := Model.exists_of_counterpartIndex? position
    have same : existing ∈ [placed] :=
      only ▸ List.mem_filter.mpr ⟨List.mem_of_getElem? there, pairs⟩
    rw [List.mem_singleton] at same
    exact there.trans (congrArg some same)

namespace TargetEdit

variable {context : Context} {source : String} {before after : Model} {insertion : Insertion}
  {made : Option Statement}

/-- The statement for the column of a counterpart adds a column to the target, and refers to the
source. -/
theorem adds_of_columnFor {statement : Statement}
    (done : columnFor context source before after insertion = .ok (some statement)) :
    (∃ column, statement.Adds before.name column) ∧
      ∀ other ∈ statement.references, other = source := by
  unfold columnFor at done
  dsimp only at done
  -- A statement was made, so the counterpart was found and its column is new.
  split at done
  · cases done
  · rename_i field found
    split at done
    · rcases WritePlan.of_columnStatement done with ⟨none, -⟩ |
        ⟨again, column, same, -, adds, refers⟩
      · cases none
      · cases same
        refine ⟨⟨column, adds⟩, fun other referred => ?_⟩
        -- The field was found as a counterpart, so it relates to the source.
        obtain ⟨index, isIndex, isField⟩ := Option.bind_eq_some_iff.mp found
        obtain ⟨existing, there, pairs⟩ := Model.exists_of_counterpartIndex? isIndex
        rw [isField, Option.some.injEq] at there
        subst there
        obtain ⟨relation, related, leads⟩ := Field.targets_iff.mp (Field.pairsWith_iff.mp pairs).1
        obtain ⟨again, relatedAgain, leadsAgain⟩ := Field.targets_iff.mp (refers other referred)
        rw [related, Option.some.injEq] at relatedAgain
        rw [← leadsAgain, ← relatedAgain, leads]
    · cases done

/-- The column of a counterpart in place was there before, or there is a statement that adds it. -/
theorem column_of_columnFor (done : columnFor context source before after insertion = .ok made)
    {placed : Field}
    (only : after.fields.filter (fun field =>
      field.pairsWith source insertion.field insertion.counterpart.name) = [placed])
    {column : String} (named : placed.columnName? = some column) :
    column ∈ before.columnNames ∨
      ∃ statement, made = some statement ∧ statement.Adds before.name column := by
  -- The field that is looked at for a column is the one counterpart in place.
  have found := Model.counterpart_of_filter only
  unfold columnFor at done
  dsimp only at done
  rw [found] at done
  by_cases already : column ∈ before.columnNames
  · exact Or.inl already
  · -- A column that was not there is a new one.
    have isNew : (placed.columnName?.any fun column => !before.columnNames.contains column) =
        true := by
      simpa [named] using already
    simp only [isNew, reduceIte] at done
    rcases WritePlan.of_columnStatement done with ⟨-, none⟩ |
      -- The statement is about the column of the counterpart.
      ⟨statement, other, same, held, adds, -⟩
    · rw [named] at none
      cases none
    · rw [named, Option.some.injEq] at held
      subst held
      exact Or.inr ⟨statement, same, adds⟩

end TargetEdit

namespace WritePlan

variable {context : Context} {old : Option Record} {declared : Model} {plan : WritePlan}
  {edit : TargetEdit} {before : Model}

/-- The edit of a plan for a known target was completed for it. -/
theorem columns_of_planned (planned : context.planWrite old declared = .ok plan)
    (listed : edit ∈ plan.edits) (known : context.known.find? edit.target = some before) :
    ∃ columns, edit.insertions.mapM (TargetEdit.columnFor (context.withModel plan.definition)
        plan.definition.name before (edit.apply plan.definition.name before).1) = .ok columns ∧
      edit.columns = columns.filterMap id := by
  obtain ⟨resolved, drops, synthesis, columns, edits, -, -, -, -, -, -, propagated, rfl⟩ :=
    planWrite_eq_ok.mp planned
  obtain ⟨draft, -, made⟩ := Outcome.exists_input_of_mapM_eq_ok propagated listed
  -- Completing an edit leaves its target alone, whether the target is known or not.
  have sameTarget : edit.target = draft.target := by
    split at made
    · obtain ⟨-, -, _, -, rfl⟩ := TargetEdit.complete_eq_ok.mp made
      rfl
    · cases made
      rfl
  rw [sameTarget] at known
  simp only [known] at made
  obtain ⟨-, -, columns, compiled, rfl⟩ := TargetEdit.complete_eq_ok.mp made
  exact ⟨columns, compiled, rfl⟩

/-- The statements for a known target add columns to it, and refer to the model of the plan. -/
theorem adds_of_edit (planned : context.planWrite old declared = .ok plan)
    (listed : edit ∈ plan.edits) (known : context.known.find? edit.target = some before)
    {statement : Statement} (isColumn : statement ∈ edit.columns) :
    (∃ column, statement.Adds edit.target column) ∧
      ∀ other ∈ statement.references, other = plan.definition.name := by
  obtain ⟨columns, compiled, same⟩ := columns_of_planned planned listed known
  rw [same] at isColumn
  obtain ⟨insertion, -, done⟩ := Outcome.exists_input_of_filterMap compiled isColumn
  -- The statement was made for the model that the target is known as.
  have named : before.name = edit.target := Roster.name_of_find? known
  rw [← named]
  exact TargetEdit.adds_of_columnFor done

/-- A column of a revised target is one the target had before, or there is a statement that adds
it. -/
theorem column_of_edit (planned : context.planWrite old declared = .ok plan)
    (listed : edit ∈ plan.edits) (known : context.known.find? edit.target = some before)
    {field : Field} (present : field ∈ (edit.apply plan.definition.name before).1.fields)
    {column : String} (named : field.columnName? = some column) :
    column ∈ before.columnNames ∨
      ∃ statement ∈ edit.columns, statement.Adds edit.target column := by
  have orderly := (sound_of_planWrite planned).orderly_edit listed
  -- A field of the revised target was inserted by the edit, or it was there before.
  rcases TargetEdit.mem_apply present with ⟨insertion, inserted, current⟩ | ⟨old, -⟩
  · -- The counterpart in place is the one that was looked at for a column.
    obtain ⟨columns, compiled, same⟩ := columns_of_planned planned listed known
    obtain ⟨made, isMade, done⟩ := Outcome.exists_of_mapM_eq_ok compiled inserted
    obtain ⟨placed, only, -⟩ := (orderly.settledIn_apply before).placed insertion inserted
    have pairs : field.pairsWith plan.definition.name insertion.field
        insertion.counterpart.name = true := by
      exact Field.pairsWith_of_invertsTo
        ((orderly.faces insertion inserted).invertsTo_of_current current) _
    have isPlaced : field ∈ [placed] := only ▸ List.mem_filter.mpr ⟨present, pairs⟩
    rw [List.mem_singleton] at isPlaced
    subst isPlaced
    rcases TargetEdit.column_of_columnFor done only named with already | ⟨statement, isNew, adds⟩
    · exact Or.inl already
    · refine Or.inr ⟨statement, ?_, ?_⟩
      · rw [same]
        exact List.mem_filterMap.mpr ⟨made, isMade, isNew⟩
      · rw [← (show before.name = edit.target from Roster.name_of_find? known)]
        exact adds
  · exact Or.inl (Model.mem_columnNames old named)

/-- The statements of a plan, those of the model itself first and then those of its targets. -/
def submitted (plan : WritePlan) : List Statement :=
  plan.statements ++ plan.edits.flatMap TargetEdit.columns

/-- What the statements of a plan can be: drops of obsolete join tables, the table of the model, the
join tables of its fields, and columns of the model or of one that is known. They refer to the model
and to those it relates to. -/
inductive Submits (context : Context) (old : Option Record) (plan : WritePlan) :
    Statement → Prop where
  | drop (table : Identifier)
    (obsolete : table.text ∈ (changes context.system old plan.definition).obsoleteTables) :
    Submits context old plan (.dropTable table)
  | create (table : Identifier) (columns : List Column) (own : table.text = plan.definition.name)
    (refers : ∀ other ∈ columns.flatMap Column.references,
      plan.definition.references other = true) :
    Submits context old plan (.createTable table columns)
  | join (table : Identifier) (left right : Column)
    (listed : table.text ∈ plan.definition.joinTableNames)
    (refers : ∀ other ∈ left.references ++ right.references,
      other = plan.definition.name ∨ plan.definition.references other = true) :
    Submits context old plan (.createJoinTable table left right)
  | add (table : Identifier) (column : Column)
    (altered : table.text = plan.definition.name ∨ (context.known.find? table.text).isSome = true)
    (refers : ∀ other ∈ column.references,
      other = plan.definition.name ∨ plan.definition.references other = true) :
    Submits context old plan (.addColumn table column)

/-- A plan has no other statements than these. -/
theorem submits_of_mem (planned : context.planWrite old declared = .ok plan)
    {statement : Statement} (listed : statement ∈ plan.submitted) :
    plan.Submits context old statement := by
  obtain ⟨drops, synthesis, columns, builds⟩ := exists_builds planned
  -- The statements are gone through in the order in which they are submitted.
  rcases List.mem_append.mp listed with own | ofTarget
  · rw [builds.statements, List.append_assoc] at own
    -- Of the own statements the drops come first.
    rcases List.mem_append.mp own with drop | other
    · obtain ⟨table, rfl, obsolete⟩ := builds.drops _ drop
      exact .drop table obsolete
    rcases List.mem_cons.mp other with rfl | other
    · obtain ⟨table, columns, same, own, -⟩ := builds.declares.table
      have refers := builds.declares.refers
      rw [same] at refers ⊢
      exact .create table columns own refers
    rcases List.mem_append.mp other with column | join
    · obtain ⟨⟨_, table, added, rfl, own, -⟩, refers⟩ := builds.adds _ column
      exact .add table added (Or.inl own) fun other referred => Or.inr (refers other referred)
    · obtain ⟨⟨table, left, right, rfl, isTable⟩, refers⟩ := builds.declares.joins _ join
      exact .join table left right isTable refers
  · -- The rest are columns for known targets, and counterparts relate to the model alone.
    obtain ⟨edit, isEdit, isColumn⟩ := List.mem_flatMap.mp ofTarget
    have isKnown := (sound_of_planWrite planned).isSome_target isEdit
    obtain ⟨before, known⟩ := Option.isSome_iff_exists.mp isKnown
    obtain ⟨⟨_, table, added, rfl, target, -⟩, refers⟩ := adds_of_edit planned isEdit known isColumn
    exact .add table added (Or.inr (target ▸ isKnown)) fun other referred =>
      Or.inl (refers other referred)

end WritePlan

namespace DeletePlan

/-- Statements that drop the tables of names drop them one by one. -/
theorem of_dropTablesOf {names : List String} {drops : List Statement}
    (made : names.mapM Statement.dropTableOf = .ok drops) :
    ∃ tables : List Identifier, drops = tables.map Statement.dropTable ∧
      tables.map Identifier.text = names := by
  -- The names and the statements are walked side by side.
  induction Outcome.mapM_eq_ok.mp made with
  | nil => exact ⟨[], rfl, rfl⟩
  | cons head tail ih =>
    obtain ⟨first, rfl, named⟩ := WritePlan.of_dropTableOf head
    obtain ⟨rest, rfl, areNamed⟩ := ih (Outcome.mapM_eq_ok.mpr tail)
    exact ⟨first :: rest, rfl, by rw [List.map_cons, named, areNamed]⟩

/-- A deletion drops the table of the model first, and then each of the join tables it takes part
in. -/
theorem exists_drops_of_ofRecord {known : Models} {record : Record} {plan : DeletePlan}
    (planned : ofRecord known record = .ok plan) :
    ∃ (own : Identifier) (joins : List Identifier),
      plan.statements = (own :: joins).map Statement.dropTable ∧
      own.text = record.definition.name ∧
      joins.map Identifier.text = joinTables known record.definition := by
  -- The drops were made one after the other, and all of them have succeeded.
  obtain ⟨first, dropped, planned⟩ := Outcome.bind_eq_ok.mp planned
  obtain ⟨rest, droppedAll, planned⟩ := Outcome.bind_eq_ok.mp planned
  cases planned
  obtain ⟨own, rfl, named⟩ := WritePlan.of_dropTableOf dropped
  obtain ⟨joins, rfl, areTables⟩ := of_dropTablesOf droppedAll
  exact ⟨own, joins, rfl, named, areTables⟩

/-- The statements of a deletion drop the table of the model and the join tables it takes part
in. -/
theorem statements_of_ofRecord {known : Models} {record : Record} {plan : DeletePlan}
    (planned : ofRecord known record = .ok plan) {statement : Statement}
    (listed : statement ∈ plan.statements) :
    ∃ table, statement = .dropTable table ∧ (table.text = record.definition.name ∨
      table.text ∈ joinTables known record.definition) := by
  -- The statements are the drop of the own table, and then those of the join tables.
  obtain ⟨own, joins, drops, named, areTables⟩ := exists_drops_of_ofRecord planned
  rw [drops] at listed
  obtain ⟨table, isDropped, rfl⟩ := List.mem_map.mp listed
  refine ⟨table, rfl, ?_⟩
  rcases List.mem_cons.mp isDropped with rfl | isJoin
  · exact Or.inl named
  · exact Or.inr (areTables ▸ List.mem_map_of_mem isJoin)

/-- A deletion drops the table of the model. -/
theorem exists_drop_of_ofRecord {known : Models} {record : Record} {plan : DeletePlan}
    (planned : ofRecord known record = .ok plan) :
    ∃ table, Statement.dropTable table ∈ plan.statements ∧ table.text = record.definition.name := by
  -- It is the first of the statements.
  obtain ⟨own, joins, drops, named, -⟩ := exists_drops_of_ofRecord planned
  exact ⟨own, drops ▸ List.mem_cons_self, named⟩

/-- The join tables of the relations of one model to another are those of the fields that lead
there. -/
theorem mem_joinTablesTo {model : Model} {target table : String} :
    table ∈ joinTablesTo model target ↔ ∃ field ∈ model.fields,
      field.targets target = true ∧ field.joinTable? model.name = some table := by
  simp only [joinTablesTo, Model.relations, List.filterMap_filterMap, List.mem_filterMap,
    Field.targets_iff]
  refine exists_congr fun field => and_congr_right fun _ => ?_
  -- Only a field with a relation leads anywhere.
  cases related : field.relation? with
  | none => simp
  | some relation => simp [Field.joinTable?, related, and_assoc]

/-- The join tables that a model takes part in are those of its own fields, and those of the fields
of other models that relate to it. -/
theorem mem_joinTables {known : Models} {model : Model} {table : String} :
    table ∈ joinTables known model ↔ table ∈ model.joinTableNames ∨
      ∃ other ∈ known.members, other.name ≠ model.name ∧ ∃ field ∈ other.fields,
        field.targets model.name = true ∧ field.joinTable? other.name = some table := by
  -- Own join tables come first, and then those of the models that refer to the model.
  simp only [joinTables, mem_distinctBy_id, List.mem_append, List.mem_flatMap, mem_joinTablesTo,
    referencingModels, List.mem_filter, Bool.and_eq_true, bne_iff_ne]
  refine or_congr_right (exists_congr fun other => ?_)
  constructor
  · rintro ⟨⟨isKnown, apart, -⟩, joined⟩
    exact ⟨isKnown, apart, joined⟩
  · -- A model with a field that leads there refers to it.
    rintro ⟨isKnown, apart, field, present, leads, isTable⟩
    exact ⟨⟨isKnown, apart, List.any_eq_true.mpr ⟨field, present, leads⟩⟩, field, present, leads,
      isTable⟩

end DeletePlan

end ModelCatalog
