import ModelCatalog.Proofs.PlainFields
import ModelCatalog.Proofs.PlannedStatements
import ModelCatalog.Proofs.StatementTokens

/-! Literals of planned statements: each column that a plan declares holds the options and the text
default of its field, and no other text. -/

namespace ModelCatalog

open Token

/-! ## Fields and their columns -/

namespace Field

/-- The text default of a field, if it has one. -/
def defaultLiterals (field : Field) : List String :=
  match field.default with
  | some value => value.literals
  | none => []

/-- The texts that the column of a field holds: the options of a choice, and a text default. A
numbered column has no default, nor has a foreign key. -/
def literals (field : Field) : List String :=
  match field.kind with
  | .scalar _ _ autoIncrement => if autoIncrement then [] else field.defaultLiterals
  | .choice options => options ++ field.defaultLiterals
  | .relation _ => []

end Field

namespace Column

/-- The column holds these literals, and its type opens no quotes. -/
structure Holds (column : Column) (literals : List String) : Prop where
  type : isUnmarked column.type = true
  literals : column.literals = literals

/-- The column is that of a field: it bears the name and holds the literals. -/
structure StandsFor (column : Column) (field : Field) : Prop extends
    column.Holds field.literals where
  name : field.columnName? = some column.name.text

/-- The key column that the database numbers holds no literals. -/
theorem holds_numbered (name : Identifier) : (numbered name).Holds [] :=
  -- Its type is a word and it has no constraints.
  ⟨show isUnmarked "INT" = true by decide, rfl⟩

end Column

namespace Context

variable {context : Context} {model : Model} {field : Field}

/-- A constraint that stands only under a condition holds no literals when it has none. -/
theorem literals_constraintIf {condition : Bool} {constraint : Constraint}
    (none : constraint.literals = []) :
    (constraintIf condition constraint).flatMap Constraint.literals = [] := by
  -- The condition decides between the constraint and none.
  cases condition <;> simp [constraintIf, none]

/-- A default holds the text default. -/
theorem literals_defaultOf (field : Field) :
    (defaultOf field).flatMap Constraint.literals = field.defaultLiterals := by
  -- Only a default that is a text is written in quotes.
  unfold defaultOf Field.defaultLiterals
  cases field.default <;> simp [Constraint.literals]

/-- The types of scalar columns open no quotes. -/
theorem isUnmarked_columnType (type : ScalarType) : isUnmarked type.columnType = true := by
  -- The types are listed one by one.
  cases type <;> decide

/-- The types of keys open no quotes when that of the system models does not. -/
theorem isUnmarked_keyType (unmarked : isUnmarked context.system.keyType = true) (model : Model)
    (target : String) : isUnmarked (context.keyType model target) = true := by
  unfold keyType
  -- Outside of the system models the type is one of the fixed ones.
  split
  · exact unmarked
  · dsimp only
    split
    · split
      · decide
      · exact isUnmarked_columnType _
    · decide
    · decide

/-- A column that is declared for a field is the column of the field. -/
theorem standsFor_of_column {column : Column}
    (done : context.column model field = .ok (some column))
    (unmarked : isUnmarked context.system.keyType = true) : column.StandsFor field := by
  refine { toHolds := ?_, name := (of_column done).1 }
  cases compiled_of_column done with
  | numbered name type primary kind own =>
    rw [Field.literals, kind]
    exact Column.holds_numbered name
  | scalar name type primary kind own =>
    -- Of the constraints of a scalar only the default holds a literal.
    refine ⟨isUnmarked_columnType type, ?_⟩
    simp only [Column.literals, Field.literals, kind, List.flatMap_append, literals_defaultOf]
    rw [literals_constraintIf rfl, literals_constraintIf rfl, literals_constraintIf rfl]
    rfl
  | choice name options kind own =>
    -- The options and the default are all that a choice holds.
    refine ⟨show isUnmarked "VARCHAR(255)" = true by decide, ?_⟩
    simp only [Column.literals, Field.literals, kind, List.flatMap_append, literals_defaultOf]
    rw [literals_constraintIf rfl, literals_constraintIf rfl]
    simp [Constraint.literals]
  | foreignKey name target relation kind owned named leads =>
    rw [Field.literals, kind]
    -- Neither of the two constraints that may stand beside the reference holds a text.
    refine ⟨isUnmarked_keyType unmarked model _, ?_⟩
    simp only [Column.literals, List.flatMap_append]
    rw [literals_constraintIf rfl, literals_constraintIf rfl]
    rfl

end Context

/-! ## Statements -/

/-- A statement renders a part of a definition: its table with a column for each field that has
one, one such column, a join table, or nothing at all. -/
inductive Statement.Renders (definition : Model) : Statement → Prop where
  | table (name : Identifier) (columns : List Column) (named : name.text = definition.name)
    (each : List.Forall₂ Column.StandsFor columns
      (definition.fields.filter fun field => field.columnName?.isSome)) :
    Renders definition (.createTable name
      ((if (definition.field? idName).isNone then [Column.numbered idIdentifier] else []) ++
        columns))
  | joinTable (name : Identifier) (left right : Column) (leftHolds : left.Holds [])
    (rightHolds : right.Holds []) : Renders definition (.createJoinTable name left right)
  | column (name : Identifier) (column : Column) (field : Field)
    (named : name.text = definition.name) (present : field ∈ definition.fields)
    (stands : column.StandsFor field) : Renders definition (.addColumn name column)
  | drop (name : Identifier) : Renders definition (.dropTable name)

/-- The columns of a statement that renders a definition have types that open no quotes. -/
theorem Statement.Renders.isUnmarked {definition : Model} {statement : Statement}
    (renders : statement.Renders definition) :
    ∀ column ∈ statement.columns, Token.isUnmarked column.type = true := by
  intro column listed
  -- The columns of the table are those of the fields, with the key in front where it is added.
  cases renders with
  | table name columns named each =>
    rcases List.mem_append.mp listed with key | declared
    · split at key
      · exact List.mem_singleton.mp key ▸ (Column.holds_numbered idIdentifier).type
      · cases key
    · -- The columns go with fields, and each of these stands for its field.
      clear listed
      generalize definition.fields.filter _ = fields at each
      induction each with
      | nil => cases declared
      | cons head tail ih =>
        rcases List.mem_cons.mp declared with rfl | later
        · exact head.type
        · exact ih later
  | joinTable name left right leftHolds rightHolds =>
    rcases List.mem_cons.mp listed with rfl | other
    · exact leftHolds.type
    · exact List.mem_singleton.mp other ▸ rightHolds.type
  | column name added field named present stands => exact List.mem_singleton.mp listed ▸ stands.type
  | drop name => cases listed

namespace Context

variable {context : Context} {model : Model} {field : Field}

/-- The declared columns stand for the fields that have one. -/
theorem standsFor_of_columns {fields : List Field} {columns : List (Option Column)}
    (done : fields.mapM (context.column model) = .ok columns)
    (unmarked : isUnmarked context.system.keyType = true) :
    List.Forall₂ Column.StandsFor (columns.filterMap id)
      (fields.filter fun field => field.columnName?.isSome) := by
  -- Along the fields, each that has a column gives one that stands for it.
  induction Outcome.mapM_eq_ok.mp done with
  | nil => exact .nil
  | @cons field made _ _ head tail ih =>
    have rest := ih (Outcome.mapM_eq_ok.mpr tail)
    cases made with
    | none =>
      have missing := columnName?_of_column head
      simpa [missing] using rest
    | some column =>
      have stands := standsFor_of_column head unmarked
      simpa [stands.name] using And.intro stands rest

/-- A join table holds no literals. -/
theorem renders_of_joinTable {statement : Statement}
    (done : context.joinTable model field = .ok (some statement))
    (unmarked : isUnmarked context.system.keyType = true) (definition : Model) :
    statement.Renders definition := by
  -- Both columns of a join table have the type of a key and refer to a table.
  have holds : ∀ (name table : Identifier) (target : String),
      (joinColumn name (context.keyType model target) table).Holds [] :=
    fun name table target => ⟨isUnmarked_keyType unmarked model target, rfl⟩
  cases joined_of_joinTable done with
  | table relation related uses table left right owner target named _ _ owns leads =>
    exact .joinTable table _ _ (holds _ _ _) (holds _ _ _)

/-- The statements that a definition is compiled into render it. -/
theorem renders_of_synthesize {synthesis : Synthesis}
    (done : context.synthesize model = .ok synthesis)
    (unmarked : isUnmarked context.system.keyType = true) :
    ∀ statement ∈ synthesis.statements, statement.Renders model := by
  obtain ⟨own, columns, joins, isOwn, columnsDone, joinsDone, rfl⟩ :=
    exists_parts_of_synthesize done
  intro statement listed
  -- The table comes first, and behind it are the join tables, each of a field.
  rcases List.mem_cons.mp listed with rfl | join
  · exact .table own _ isOwn (standsFor_of_columns columnsDone unmarked)
  · obtain ⟨field, -, compiled⟩ :=
      Outcome.exists_input_of_filterMap joinsDone (mem_of_mem_distinctBy join)
    exact renders_of_joinTable compiled unmarked model

/-- The statement for the column of a field renders the definition the field is in. -/
theorem renders_of_columnStatement {table : String} {statement : Statement}
    (done : (do
      match ← context.column model field with
      | some column => return some (← Statement.addColumnTo table column)
      | none => return none : Except Error (Option Statement)) = .ok (some statement))
    (unmarked : isUnmarked context.system.keyType = true) {definition : Model}
    (named : table = definition.name) (present : field ∈ definition.fields) :
    statement.Renders definition := by
  -- The statement is made from the column that stands for the field.
  obtain ⟨compiled, isCompiled, done⟩ := Outcome.bind_eq_ok.mp done
  cases compiled with
  | none => cases done
  | some column =>
    obtain ⟨added, isAdded, done⟩ := Outcome.bind_eq_ok.mp done
    cases done
    obtain ⟨own, checked, rfl⟩ := Outcome.map_eq_ok.mp isAdded
    exact .column own column field ((Identifier.checkAt_eq_ok.mp checked).2.trans named) present
      (standsFor_of_column isCompiled unmarked)

end Context

/-! ## Plans -/

namespace WritePlan

variable {context : Context} {old : Option Record} {declared : Model} {plan : WritePlan}

/-- The statements for new columns render the definition. -/
theorem renders_of_newColumns {before model : Model} {statements : List Statement}
    (done : newColumns context before model = .ok statements)
    (unmarked : isUnmarked context.system.keyType = true) :
    ∀ statement ∈ statements, statement.Renders model := by
  obtain ⟨all, traversed, done⟩ := Outcome.bind_eq_ok.mp done
  cases done
  -- A new column is that of a field of the definition.
  intro statement listed
  obtain ⟨field, isNew, compiled⟩ := Outcome.exists_input_of_filterMap traversed listed
  exact Context.renders_of_columnStatement compiled unmarked rfl (List.mem_filter.mp isNew).1

/-- The statements for the columns of a known target render what the edit makes of it. -/
theorem renders_of_edit (planned : context.planWrite old declared = .ok plan)
    (unmarked : isUnmarked context.system.keyType = true) {edit : TargetEdit}
    (listed : edit ∈ plan.edits) {before : Model}
    (known : context.known.find? edit.target = some before) :
    ∀ statement ∈ edit.columns,
      statement.Renders (edit.apply plan.definition.name before).1 := by
  obtain ⟨columns, compiled, same⟩ := columns_of_planned planned listed known
  intro statement isColumn
  rw [same] at isColumn
  -- Each column of the edit was made for a field of the target as it is after the edit.
  obtain ⟨insertion, -, done⟩ := Outcome.exists_input_of_filterMap compiled isColumn
  unfold TargetEdit.columnFor at done
  dsimp only at done
  split at done
  · cases done
  · rename_i field found
    split at done
    · obtain ⟨index, -, isField⟩ := Option.bind_eq_some_iff.mp found
      exact Context.renders_of_columnStatement done unmarked (TargetEdit.name_apply ..).symm
        (List.mem_of_getElem? isField)
    · cases done

/-- Each statement of a plan renders a definition that shares its plain fields with the one that was
given, or with one that is known. -/
theorem renders_of_planWrite (planned : context.planWrite old declared = .ok plan)
    (unmarked : isUnmarked context.system.keyType = true) :
    ∀ statement ∈ plan.submitted, ∃ given ∈ declared :: context.known.members, ∃ definition,
      definition.SharesPlain given ∧ statement.Renders definition := by
  intro statement listed
  rcases List.mem_append.mp listed with own | ofTarget
  · -- The own statements render what the definition is resolved to.
    obtain ⟨resolved, drops, synthesis, columns, edits, -, done, -, dropped, compiled, lacking, -,
      rfl⟩ := planWrite_eq_ok.mp planned
    refine ⟨declared, List.mem_cons_self, resolved,
      ⟨(Context.of_resolve done).1, Context.plain_of_resolve done⟩, ?_⟩
    have declares := Context.renders_of_synthesize compiled unmarked
    have own : statement ∈ drops ++ (synthesis.table :: columns ++ synthesis.joinTables) := by
      rwa [← List.append_assoc]
    -- Own statements drop tables, create the table, add columns or create join tables.
    rcases List.mem_append.mp own with drop | other
    · obtain ⟨name, -, made⟩ := Outcome.exists_input_of_mapM_eq_ok dropped drop
      obtain ⟨table, rfl, -⟩ := of_dropTableOf made
      exact .drop table
    rcases List.mem_cons.mp other with rfl | other
    · exact declares _ List.mem_cons_self
    rcases List.mem_append.mp other with column | join
    · cases old with
      | none =>
        cases lacking
        cases column
      | some record =>
        exact renders_of_newColumns lacking unmarked _ column
    · exact declares _ (List.mem_cons_of_mem _ join)
  · -- The others render what the edits make of the targets.
    obtain ⟨edit, isEdit, isColumn⟩ := List.mem_flatMap.mp ofTarget
    have sound := sound_of_planWrite planned
    obtain ⟨before, known⟩ := Option.isSome_iff_exists.mp (sound.isSome_target isEdit)
    refine ⟨before, List.mem_cons_of_mem _ (Roster.mem_of_find? known), _,
      ⟨TargetEdit.name_apply .., TargetEdit.plain_apply _ _ fun insertion inserted => ?_⟩,
      renders_of_edit planned unmarked isEdit known statement isColumn⟩
    exact Field.isPlain_of_targets
      (Field.targets_of_invertsTo ((sound.orderly_edit isEdit).faces insertion inserted).inverts)

end WritePlan

/-- A deletion declares nothing. -/
theorem DeletePlan.renders_of_ofRecord {known : Models} {record : Record} {plan : DeletePlan}
    (planned : ofRecord known record = .ok plan) (definition : Model) :
    ∀ statement ∈ plan.statements, statement.Renders definition := by
  -- Every statement of a deletion drops a table.
  intro statement listed
  obtain ⟨table, rfl, -⟩ := statements_of_ofRecord planned listed
  exact .drop table

/-- A roster of a list has only members of the list. -/
theorem Roster.mem_of_mem_ofList {α : Type} [Named α] {listed : List α} {member : α}
    (filed : member ∈ (Roster.ofList listed).members) : member ∈ listed := by
  -- Filing one by one, every member comes from the list or was there before.
  have run : ∀ (others : List α) (roster : Roster α),
      member ∈ (roster.insertAll others).members → member ∈ others ∨ member ∈ roster.members := by
    intro others
    induction others with
    | nil => exact fun roster before => Or.inr before
    | cons first rest ih =>
      intro roster filed
      rcases ih (roster.insert first) filed with later | before
      · exact Or.inl (List.mem_cons_of_mem _ later)
      · rcases mem_of_mem_place before with rfl | before
        · exact Or.inl List.mem_cons_self
        · -- What was there before stays, unless it was replaced.
          exact Or.inr before
  -- The first roster is empty, so nothing was there.
  rcases run listed empty filed with isListed | nothing
  · exact isListed
  · cases nothing

namespace RepairPlan

variable {system : SystemModels}

/-- The statements of one model that is applied again render it. -/
theorem renders_of_reapplyOne {context : Context} {model : Model} {part : Reapplied}
    (done : reapplyOne context model = .ok part)
    (unmarked : isUnmarked context.system.keyType = true) :
    ∀ statement ∈ part.table :: part.columns ++ part.joinTables, statement.Renders model := by
  obtain ⟨synthesis, compiled, done⟩ := Outcome.bind_eq_ok.mp done
  obtain ⟨columns, columnsDone, done⟩ := Outcome.bind_eq_ok.mp done
  cases done
  have declares := Context.renders_of_synthesize compiled unmarked
  intro statement listed
  -- The parts are the statements of the synthesis and those for the columns of fields.
  rcases List.mem_append.mp listed with own | join
  · rcases List.mem_cons.mp own with rfl | column
    · exact declares _ List.mem_cons_self
    · obtain ⟨field, isOther, made⟩ := Outcome.exists_input_of_filterMap columnsDone column
      exact Context.renders_of_columnStatement made unmarked rfl (List.mem_filter.mp isOther).1
  · exact declares _ (List.mem_cons_of_mem _ join)

/-- Each statement of a repair renders a repaired definition. -/
theorem exists_renders_of_reapply {repaired : Models} {statements : List Statement}
    (done : reapply system repaired = .ok statements)
    (unmarked : isUnmarked system.keyType = true) :
    ∀ statement ∈ statements, ∃ definition ∈ repaired.members, statement.Renders definition := by
  obtain ⟨parts, partsDone, done⟩ := Outcome.bind_eq_ok.mp done
  cases done
  -- A statement of a part renders the model that the part was made of.
  have ofPart : ∀ part ∈ parts, ∀ statement ∈ part.table :: part.columns ++ part.joinTables,
      ∃ definition ∈ repaired.members, statement.Renders definition := by
    intro part listed statement inPart
    obtain ⟨model, isModel, made⟩ := Outcome.exists_input_of_mapM_eq_ok partsDone listed
    obtain ⟨name, -, found⟩ := List.mem_filterMap.mp isModel
    exact ⟨model, Roster.mem_of_find? found,
      renders_of_reapplyOne made unmarked statement inPart⟩
  intro statement listed
  -- A statement of the repair is one of the three sorts that every part has.
  rcases List.mem_append.mp listed with own | join
  · rcases List.mem_append.mp own with table | column
    · obtain ⟨part, isPart, rfl⟩ := List.mem_map.mp table
      exact ofPart part isPart _ (by simp)
    · obtain ⟨part, isPart, inPart⟩ := List.mem_flatMap.mp column
      exact ofPart part isPart _ (by simp [inPart])
  · obtain ⟨part, isPart, inPart⟩ := List.mem_flatMap.mp (mem_of_mem_distinctBy join)
    exact ofPart part isPart _ (by simp [inPart])

/-- Each statement for a missing column renders a repaired definition. -/
theorem exists_renders_of_missingColumns {scanned repaired : Models} {statements : List Statement}
    (done : missingColumns system scanned repaired = .ok statements)
    (unmarked : isUnmarked system.keyType = true) :
    ∀ statement ∈ statements, ∃ definition ∈ repaired.members, statement.Renders definition := by
  obtain ⟨parts, partsDone, done⟩ := Outcome.bind_eq_ok.mp done
  cases done
  intro statement listed
  -- Each statement was made for a model that changed, whose columns are new.
  obtain ⟨part, isPart, inPart⟩ := List.mem_flatten.mp listed
  obtain ⟨model, isModel, made⟩ := Outcome.exists_input_of_mapM_eq_ok partsDone isPart
  refine ⟨model, isModel, ?_⟩
  unfold missingColumnsOf at made
  split at made
  · cases made
    cases inPart
  · split at made
    · cases made
      cases inPart
    · exact WritePlan.renders_of_newColumns made unmarked statement inPart

/-- Each statement of a repair renders a definition that shares its plain fields with a stored
one. -/
theorem renders_of_ofRecords {records : List Record} {reapplying : Bool} {plan : RepairPlan}
    (planned : ofRecords system records reapplying = .ok plan)
    (unmarked : isUnmarked system.keyType = true) :
    ∀ statement ∈ plan.statements, ∃ given ∈ records.map Record.definition, ∃ definition,
      definition.SharesPlain given ∧ statement.Renders definition := by
  unfold ofRecords at planned
  intro statement listed
  -- Whether all models are applied again or not, what is rendered is a repaired definition.
  have rendered : ∃ definition ∈ (repair system (Roster.ofList (records.map Record.definition))
      (.untouched records.length)).models.members, statement.Renders definition := by
    cases reapplying with
    | true =>
      obtain ⟨statements, done, planned⟩ := Outcome.bind_eq_ok.mp planned
      cases planned
      exact exists_renders_of_reapply done unmarked statement listed
    | false =>
      obtain ⟨statements, done, planned⟩ := Outcome.bind_eq_ok.mp planned
      cases planned
      exact exists_renders_of_missingColumns done unmarked statement listed
  obtain ⟨definition, isRepaired, renders⟩ := rendered
  -- The repaired definition stands under the name of a stored one.
  have keeps := keepsPlain_repair system (Roster.ofList (records.map Record.definition))
    (.untouched records.length) (Named.name definition)
  rw [Roster.mem_iff_find?.mp isRepaired, Option.map_some] at keeps
  obtain ⟨given, found, same⟩ := Option.map_eq_some_iff.mp keeps.symm
  exact ⟨given, Roster.mem_of_mem_ofList (Roster.mem_of_find? found), definition,
    ⟨(Roster.name_of_find? found).symm, same.symm⟩, renders⟩

end RepairPlan

end ModelCatalog
