import ModelCatalog.Proofs.Outcome
import ModelCatalog.Proofs.Roster
import ModelCatalog.Proofs.StatementTokens
import ModelCatalog.Sql.Synthesis

/-! Redaction: a definition without its texts, that is the options of choices and the text defaults.
What is compiled from it is what is compiled from the definition, without the texts. -/

namespace ModelCatalog

/-! ## Definitions without texts -/

/-- The default, with an empty text for any text. -/
def DefaultValue.redacted : DefaultValue → DefaultValue
  | text _ => text ""
  | other => other

namespace Field

/-- The field, with an empty text for every option and for a text default. -/
def redacted (field : Field) : Field :=
  { field with
    default := field.default.map DefaultValue.redacted
    kind :=
      match field.kind with
      | .choice options => .choice (options.map fun _ => "")
      | other => other }

section

/-! What relations, columns and keys are made of is kept. -/

variable (field : Field) (source fieldName name : String)

/-- A field without its texts has its name. -/
@[simp] theorem name_redacted : field.redacted.name = field.name := rfl

/-- What a field requires is no text. -/
@[simp] theorem required_redacted : field.redacted.required = field.required := rfl

/-- Whether a field is unique is no text. -/
@[simp] theorem unique_redacted : field.redacted.unique = field.unique := rfl

/-- The relation of a field is no text. -/
@[simp] theorem relation?_redacted : field.redacted.relation? = field.relation? := by
  -- Of the three kinds of fields only a choice is changed, and a choice is no relation.
  cases kind : field.kind <;> simp [relation?, redacted, kind]

/-- A field without its texts leads where the field leads. -/
@[simp] theorem targets_redacted : field.redacted.targets name = field.targets name := by
  -- A field leads somewhere by its relation, which is the same.
  cases kind : field.kind <;> simp [targets, redacted, kind]

/-- A field without its texts has the column that it has. -/
@[simp] theorem columnName?_redacted : field.redacted.columnName? = field.columnName? := by
  -- The column is named by the field or by its relation, and neither has texts.
  cases kind : field.kind <;> simp [columnName?, redacted, kind]

/-- Whether a field is the key of its model does not depend on texts. -/
@[simp] theorem isKey_redacted : field.redacted.isKey = field.isKey := by
  -- Only scalars are keys, and a scalar keeps its kind.
  cases kind : field.kind <;> simp [isKey, redacted, kind]

/-- A field inverts to the same fields without its texts. -/
@[simp] theorem invertsTo_redacted :
    field.redacted.invertsTo source fieldName = field.invertsTo source fieldName := by
  -- Inverting is said in terms of the relation, which is the same.
  simp [invertsTo]

/-- A field pairs with the same fields without its texts. -/
@[simp] theorem pairsWith_redacted :
    field.redacted.pairsWith source fieldName name = field.pairsWith source fieldName name := by
  -- Pairing is inverting or bearing a name, and both are kept.
  simp [pairsWith]

/-- A field goes with the same fields without its texts. -/
@[simp] theorem isRemovedWith_redacted :
    field.redacted.isRemovedWith source fieldName name =
      field.isRemovedWith source fieldName name := by
  -- What goes with a removed field is told by the relation and the name.
  simp [isRemovedWith]

/-- A field without its texts names its counterpart as the field does. -/
@[simp] theorem counterpartName_redacted :
    field.redacted.counterpartName source = field.counterpartName source := by
  -- The name is that of the inverse, or made from the name of the field.
  simp [counterpartName]

/-- A field without its texts has the counterpart that it has. -/
@[simp] theorem counterpart?_redacted :
    field.redacted.counterpart? source = field.counterpart? source := by
  -- A counterpart is made from the name and the relation, and has no texts of its own.
  simp [counterpart?]

end

/-- A relation without a default has no texts. -/
@[simp] theorem redacted_ofRelation (name : String) (relation : Relation) :
    (ofRelation name relation).redacted = ofRelation name relation := rfl

/-- To bring a counterpart up to date does not mix its texts with others. -/
theorem redacted_mergeInto (desired existing : Field) :
    (desired.mergeInto existing).redacted = desired.redacted.mergeInto existing.redacted := by
  -- Only relations are brought up to date, and they have no texts.
  cases desiredKind : desired.kind <;> cases existingKind : existing.kind <;>
    simp [mergeInto, redacted, desiredKind, existingKind]

end Field

namespace Model

/-- The definition, with an empty text for every text. -/
def redacted (model : Model) : Model := { model with fields := model.fields.map Field.redacted }

section

variable (model : Model) (name : String)

/-- A model without its texts has its name. -/
@[simp] theorem name_redacted : model.redacted.name = model.name := rfl

/-- The fields of a model without its texts are those of the model, each without its own. -/
@[simp] theorem fields_redacted : model.redacted.fields = model.fields.map Field.redacted := rfl

/-- A field is found by its name, with or without texts. -/
@[simp] theorem field?_redacted :
    model.redacted.field? name = (model.field? name).map Field.redacted := by
  -- The search asks for the name alone, which redaction keeps.
  simp [field?, List.find?_map, Function.comp_def]

/-- The relations are listed with the fields they belong to, and the fields have no texts any more.
-/
theorem relations_redacted :
    model.redacted.relations = model.relations.map fun pair => (pair.1.redacted, pair.2) := by
  -- A field without its texts has the relation that it has.
  simp [relations, List.filterMap_map, List.map_filterMap, Function.comp_def]

/-- The join tables of a model are named without regard to texts. -/
@[simp] theorem joinTableNames_redacted : model.redacted.joinTableNames = model.joinTableNames := by
  -- Only relations name join tables.
  simp [joinTableNames, relations_redacted, List.filterMap_map, Function.comp_def]

/-- The columns of a model are named without regard to texts. -/
@[simp] theorem columnNames_redacted : model.redacted.columnNames = model.columnNames := by
  -- Each field names the column that it named.
  simp [columnNames, List.filterMap_map]

/-- The fields with new columns are the same ones, without their texts. -/
theorem fieldsWithNewColumns_redacted (old : Model) :
    model.redacted.fieldsWithNewColumns old.redacted =
      (model.fieldsWithNewColumns old).map Field.redacted := by
  -- A column is new when the earlier model does not name it, and names are kept.
  simp [fieldsWithNewColumns, List.filter_map, Function.comp_def]

end

end Model

namespace Roster

variable {α β : Type} [Named α] [Named β] {change : α → β}
  {keepsName : ∀ member, Named.name (change member) = Named.name member} (roster : Roster α)

/-- Changing members under their names changes the list of them. -/
theorem members_map : (roster.map change keepsName).members = roster.members.map change := rfl

/-- Changing members under their names keeps the names. -/
theorem names_map : (roster.map change keepsName).names = roster.names := by
  -- Each member keeps its name, so the list of the names is the same.
  simp [names, members_map, keepsName]

/-- Changing members under their names keeps what is there. -/
theorem contains_map (name : String) :
    (roster.map change keepsName).contains name = roster.contains name := by
  -- Whether a name is there is asked of the names alone.
  simp [contains, members_map, keepsName, Function.comp_def]

/-- A changed member is filed where the member was. -/
theorem map_insert (member : α) :
    (roster.insert member).map change keepsName =
      (roster.map change keepsName).insert (change member) := by
  -- Two rosters are one when every name finds the same in both.
  refine eq_of_find? fun name => ?_
  rw [find?_map, find?_insert, find?_insert, find?_map, keepsName]
  split <;> rfl

/-- The roster of changed members is that of the members, changed. -/
theorem map_ofList (members : List α) :
    (ofList members).map change keepsName = ofList (members.map change) := by
  -- Filing one by one, the rosters stay each other's image.
  have run : ∀ (members : List α) (roster : Roster α),
      (roster.insertAll members).map change keepsName =
        (roster.map change keepsName).insertAll (members.map change) := by
    intro members
    induction members with
    | nil => exact fun _ => rfl
    | cons first rest ih =>
      intro roster
      exact (ih (roster.insert first)).trans
        (congrArg (fun filed => filed.insertAll (rest.map change)) (map_insert roster first))
  exact run members empty

end Roster

/-- The models, with an empty text for every text. -/
def Models.redacted (models : Models) : Models := models.map Model.redacted fun _ => rfl

namespace Models

variable (models : Models) (name : String)

/-- A model is found by its name, with or without texts. -/
@[simp] theorem find?_redacted :
    models.redacted.find? name = (models.find? name).map Model.redacted :=
  Roster.find?_map _ _ _ _

/-- The same models are known without texts. -/
@[simp] theorem contains_redacted : models.redacted.contains name = models.contains name :=
  Roster.contains_map _ _

/-- The models without texts are those that are known, each without its texts. -/
@[simp] theorem members_redacted : models.redacted.members = models.members.map Model.redacted :=
  rfl

/-- The known models have their names without texts. -/
@[simp] theorem names_redacted : models.redacted.names = models.names := Roster.names_map _

/-- A model can be redacted before it is filed or afterwards. -/
theorem redacted_insert (model : Model) :
    Models.redacted (models.insert model) = models.redacted.insert model.redacted :=
  Roster.map_insert _ _

end Models

/-- The context, with an empty text for every text. -/
def Context.redacted (context : Context) : Context := ⟨context.system, context.known.redacted⟩

/-! ## Statements without texts -/

/-- The constraint, with an empty text for every text. -/
def Constraint.redacted : Constraint → Constraint
  | oneOf options => oneOf (options.map fun _ => "")
  | default value => default value.redacted
  | other => other

/-- The column, with an empty text for every text. -/
def Column.redacted (column : Column) : Column :=
  { column with constraints := column.constraints.map Constraint.redacted }

/-- The statement, with an empty text for every text. -/
def Statement.redacted : Statement → Statement
  | createTable table columns => createTable table (columns.map Column.redacted)
  | createJoinTable table left right => createJoinTable table left.redacted right.redacted
  | addColumn table column => addColumn table column.redacted
  | dropTable table => dropTable table

/-- A statement without its texts changes the same table. -/
@[simp] theorem Statement.table_redacted (statement : Statement) :
    statement.redacted.table = statement.table := by
  -- Each kind of statement has its table in the same place.
  cases statement <;> rfl

namespace Token

/-- To redact parts between separators is to redact each of them. -/
theorem map_redacted_intercalate (separator : List Token) (parts : List (List Token)) :
    (separator.intercalate parts).map redacted =
      (separator.map redacted).intercalate (parts.map (List.map redacted)) := by
  -- A separator stands between two parts only, so one part alone is a case of its own.
  induction parts with
  | nil => simp
  | cons first rest ih =>
    cases rest with
    | nil => simp
    | cons next others =>
      rw [List.intercalate_cons_cons, List.map_append, List.map_append, ih]
      exact (List.intercalate_cons_cons ..).symm

/-- There is nothing to redact outside of literals. -/
@[simp] theorem map_redacted_plains (text : String) : (plains text).map redacted = plains text := by
  -- A plain token is one that redaction leaves alone.
  simp [plains, redacted]

end Token

open Token

/-- The tokens of a redacted default are the redacted tokens. -/
theorem DefaultValue.tokens_redacted (value : DefaultValue) :
    value.redacted.tokens = value.tokens.map Token.redacted := by
  -- Of the kinds of defaults the text is the only one with something to redact.
  cases value <;> simp [redacted, tokens, Token.redacted]

namespace Column

variable (column : Column)

/-- A redacted column has its name. -/
@[simp] theorem nameTokens_redacted : column.redacted.nameTokens = column.nameTokens := rfl

/-- There is nothing to redact in a name. -/
@[simp] theorem map_redacted_nameTokens :
    column.nameTokens.map Token.redacted = column.nameTokens := by
  unfold nameTokens
  -- Whether the name is quoted does not matter, for either spelling is one plain token.
  split <;> simp [Token.redacted]

/-- The tokens of a redacted constraint are the redacted tokens. -/
theorem constraintTokens_redacted (constraint : Constraint) :
    column.redacted.constraintTokens constraint.redacted =
      (column.constraintTokens constraint).map Token.redacted := by
  -- A constraint with options or a default is redacted in its literals, and the others have none.
  cases constraint with
  | oneOf options =>
    simp [Constraint.redacted, constraintTokens, map_redacted_intercalate, Token.redacted,
      Function.comp_def]
  | references table onDelete =>
    cases onDelete <;> simp [Constraint.redacted, constraintTokens, Token.redacted]
  | default value => simp [Constraint.redacted, constraintTokens, DefaultValue.tokens_redacted]
  | _ => simp [Constraint.redacted, constraintTokens, constraintSql]

/-- The tokens of a redacted column are the redacted tokens. -/
theorem tokens_redacted : column.redacted.tokens = column.tokens.map Token.redacted := by
  -- A column is written as its name, its type and its constraints, one behind the other.
  unfold tokens
  rw [map_redacted_intercalate]
  simp [redacted, ← constraintTokens_redacted, Function.comp_def]
  rfl

end Column

/-- The tokens of a redacted statement are the redacted tokens. -/
theorem Statement.tokens_redacted (statement : Statement) :
    statement.redacted.tokens = statement.tokens.map Token.redacted := by
  -- Texts stand in the columns alone, whose tokens were shown to be the redacted ones.
  cases statement <;>
    simp [redacted, tokens, creationTokens, map_redacted_intercalate, Token.redacted,
      Column.tokens_redacted, Function.comp_def]

/-! ## Compilation -/

namespace Context

variable (context : Context) (model : Model) (field : Field)

/-- Types of keys do not depend on texts. -/
@[simp] theorem keyType_redacted (target : String) :
    context.redacted.keyType model.redacted target = context.keyType model target := by
  -- What counts is the kind of the `id` field of the target, if it is known and has one.
  -- Where the condition fails there is no constraint on either side.
  have definition : (if target = model.redacted.name then some model.redacted
      else context.redacted.known.find? target) =
      (if target = model.name then some model else context.known.find? target).map
        Model.redacted := by
    rw [Model.name_redacted]
    -- There is a default of the redacted field exactly when there is one of the field.
    split
    · rfl
    · exact Models.find?_redacted _ _
  unfold keyType
  dsimp only
  rw [definition]
  generalize (if target = model.name then some model else context.known.find? target) = found
  cases found with
  | none => rfl
  | some found =>
    simp only [Option.map_some, Option.bind_some, Model.field?_redacted, Option.map_map]
    cases found.field? idName with
    | none => rfl
    | some key => cases kind : key.kind <;> simp [Field.redacted, kind, redacted]

/-- A constraint under a condition is redacted under the same condition. -/
theorem redacted_constraintIf (condition : Bool) (constraint : Constraint) :
    (constraintIf condition constraint).map Constraint.redacted =
      constraintIf condition constraint.redacted := by
  cases condition <;> simp [constraintIf]

/-- The default of a redacted field is the redacted default. -/
theorem defaultOf_redacted :
    defaultOf field.redacted = (defaultOf field).map Constraint.redacted := by
  cases held : field.default <;> simp [defaultOf, Field.redacted, held, Constraint.redacted]

/-- A foreign key does not depend on texts. -/
theorem foreignKeyColumn_redacted (relation : Relation) :
    context.redacted.foreignKeyColumn model.redacted field.redacted relation =
      (context.foreignKeyColumn model field relation).map Column.redacted := by
  unfold foreignKeyColumn
  -- The names of the column and of the table are checked, and they are names of the relation.
  rw [Outcome.map_bind]
  refine Outcome.bind_congr_of_ok fun name _ => ?_
  rw [Outcome.map_bind]
  refine Outcome.bind_congr_of_ok fun table _ => ?_
  simp [Except.map, pure, Except.pure, Column.redacted, redacted_constraintIf, Constraint.redacted]

/-- The column of a redacted field is the redacted column. -/
theorem column_redacted :
    context.redacted.column model.redacted field.redacted =
      (context.column model field).map (Option.map Column.redacted) := by
  unfold Context.column
  -- The name is checked in either case, and it is the same name.
  rw [Outcome.map_bind, Field.name_redacted]
  refine Outcome.bind_congr_of_ok fun name _ => ?_
  cases kind : field.kind with
  | scalar type primary autoIncrement =>
    have same : field.redacted.kind = .scalar type primary autoIncrement := by
      simp [Field.redacted, kind]
    simp only [same]
    -- A numbered column has constraints of its own, and none of them holds a text.
    cases autoIncrement <;>
      simp [Except.map, pure, Except.pure, Column.redacted, Column.numbered, redacted_constraintIf,
        defaultOf_redacted, Constraint.redacted]
  | choice options =>
    have same : field.redacted.kind = .choice (options.map fun _ => "") := by
      simp [Field.redacted, kind]
    simp only [same]
    simp [Except.map, pure, Except.pure, Column.redacted, redacted_constraintIf,
      defaultOf_redacted, Constraint.redacted]
  | relation relation =>
    have same : field.redacted.kind = .relation relation := by simp [Field.redacted, kind]
    simp only [same]
    -- A relation has a column when its kind has one.
    split
    · rw [foreignKeyColumn_redacted, Outcome.bind_map, Outcome.map_bind]
      rfl
    · rfl

/-- A join table does not depend on texts. -/
theorem joinTable_redacted :
    context.redacted.joinTable model.redacted field.redacted =
      (context.joinTable model field).map (Option.map Statement.redacted) := by
  unfold Context.joinTable
  -- Only relations have join tables, and a relation has nothing to redact.
  cases kind : field.kind with
  | relation relation =>
    have same : field.redacted.kind = .relation relation := by simp [Field.redacted, kind]
    simp only [same, Model.name_redacted, Field.name_redacted, keyType_redacted]
    split
    · simp only [Outcome.map_bind]
      rfl
    · rfl
  | _ => simp [Field.redacted, kind, Except.map, pure, Except.pure]

/-- What a definition is compiled into, whether it is valid or not. -/
def compile : Except Error Synthesis := do
  let table ← Identifier.check model.name
  let columns ← model.fields.mapM (context.column model)
  let joinTables ← model.fields.mapM (context.joinTable model)
  let key := if (model.field? idName).isNone then [Column.numbered idIdentifier] else []
  return {
    table := .createTable table (key ++ columns.filterMap id)
    joinTables := distinctBy (fun statement => statement.table.text) (joinTables.filterMap id) }

/-- A definition is compiled when it is valid. -/
theorem synthesize_eq : context.synthesize model = (do
    model.validate context.system context.known
    context.compile model) := rfl

end Context

/-- The statements of a definition, with an empty text for every text. -/
def Synthesis.redacted (synthesis : Synthesis) : Synthesis where
  table := synthesis.table.redacted
  joinTables := synthesis.joinTables.map Statement.redacted

/-- Keeping the first of each key goes along with a change that keeps the keys. -/
theorem distinctBy_map {α : Type} {key : α → String} {change : α → α}
    (keeps : ∀ member, key (change member) = key member) (members : List α) :
    distinctBy key (members.map change) = (distinctBy key members).map change := by
  induction members with
  | nil => rfl
  | cons first rest ih =>
    -- Two members have one key exactly when their images do, so the same ones are left out.
    simp [distinctBy, ih, keeps, List.filter_map, Function.comp_def]

/-- What is there after a change is what was there, changed. -/
theorem filterMap_id_map {α β : Type} (change : α → β) (made : List (Option α)) :
    (made.map (Option.map change)).filterMap id = (made.filterMap id).map change := by
  -- On either side each place is passed over or changed.
  rw [List.filterMap_map, List.map_filterMap]
  rfl

/-- What a redacted definition is compiled into is the redacted one. -/
theorem Context.compile_redacted (context : Context) (model : Model) :
    context.redacted.compile model.redacted =
      (context.compile model).map Synthesis.redacted := by
  have columns := @Outcome.mapM_map _ _ _ _ _ Field.redacted _ _ _ model.fields
    fun field _ => context.column_redacted model field
  have joins := @Outcome.mapM_map _ _ _ _ _ Field.redacted _ _ _ model.fields
    fun field _ => context.joinTable_redacted model field
  -- One stage after the other: what a stage of the redacted definition gives is what the stage
  -- gives, redacted.
  unfold compile
  rw [Outcome.map_bind, Model.name_redacted]
  refine Outcome.bind_congr_of_ok fun table _ => ?_
  rw [Model.fields_redacted, columns, Outcome.bind_map, Outcome.map_bind]
  refine Outcome.bind_congr_of_ok fun columns _ => ?_
  rw [joins, Outcome.bind_map, Outcome.map_bind]
  refine Outcome.bind_congr_of_ok fun joins _ => ?_
  -- The key column has no texts, and join tables bear the names they had.
  have key :
      (if (model.redacted.field? idName).isNone then [Column.numbered idIdentifier] else []) =
      (if (model.field? idName).isNone then [Column.numbered idIdentifier] else []).map
        Column.redacted := by
    rw [Model.field?_redacted, Option.isNone_map]
    split <;> rfl
  have distinct := @distinctBy_map _ (fun statement : Statement => statement.table.text)
    Statement.redacted (fun statement => by simp) (joins.filterMap id)
  rw [key, filterMap_id_map, filterMap_id_map, distinct]
  dsimp only
  rw [← List.map_append]
  rfl

end ModelCatalog
