import ModelCatalog.Proofs.BracketedLists
import ModelCatalog.Proofs.PrimaryKey

/-! Declared columns: a definition that is valid is compiled, and the columns that its table
declares are read back from the text of the statement, in order. -/

namespace ModelCatalog

open Token

/-- A default keeps the level. -/
theorem DefaultValue.level_tokens (value : DefaultValue) : level 0 value.tokens = some 0 := by
  -- Texts are literals and words have no brackets, and numbers have neither.
  cases value with
  | integer value => exact level_of_isNumeric (isNumeric_toString _) 0
  | float value => exact level_of_isNumeric (isNumeric_write rfl value) 0
  | boolean value => cases value <;> rfl
  | _ => rfl

namespace Column

variable {column : Column}

/-- The declaration of a column whose name stands in quotes begins with it. -/
theorem sql_eq_of_quoted (quoted : column.bare = false) :
    ∃ rest, column.sql = "\"" ++ column.name.text ++ "\" " ++ rest := by
  -- The name in its quotes and the space behind it are the beginning of what is joined.
  have named : column.nameSql ++ " " = "\"" ++ column.name.text ++ "\" " := by
    rw [nameSql, quoted, if_neg Bool.false_ne_true, Identifier.quoted, String.append_assoc]
    rfl
  refine ⟨String.intercalate " " (column.type :: column.constraints.map column.constraintSql), ?_⟩
  rw [sql, String.intercalate_cons_cons, named]

/-- A constraint keeps the level. -/
theorem level_constraintTokens (quoted : column.bare = false) (constraint : Constraint) :
    level 0 (column.constraintTokens constraint) = some 0 := by
  cases constraint with
  | oneOf options =>
    -- The options stand in two pairs of brackets, where commas end nothing.
    have listed : level 2 ((plains ", ").intercalate
        (options.map fun option => [Token.literal option])) = some 2 := by
      refine level_intercalate rfl fun part isPart => ?_
      obtain ⟨option, -, rfl⟩ := List.mem_map.mp isPart
      rfl
    have opened : level 0 (plains "CHECK (" ++ column.nameTokens ++ plains " IN (") = some 2 := by
      rw [nameTokens, quoted]
      rfl
    rw [constraintTokens, level_append, level_append, opened, Option.bind_some, listed]
    rfl
  | references table onDelete =>
    -- A reference has one pair of brackets around a quoted name.
    cases onDelete with
    | none => rfl
    | some action => cases action <;> rfl
  | default value =>
    rw [constraintTokens, level_append]
    exact value.level_tokens
  | primaryKey => exact (show level 0 (plains "PRIMARY KEY") = some 0 by decide)
  | identity => exact (show level 0 (plains "GENERATED ALWAYS AS IDENTITY") = some 0 by decide)
  | unique => exact (show level 0 (plains "UNIQUE") = some 0 by decide)
  | notNull => exact (show level 0 (plains "NOT NULL") = some 0 by decide)

/-- The tokens of the declaration of a column, with those that its type has by itself. -/
def spelling (column : Column) : List Token := column.tokensWith ((ofSql column.type).getD [])

/-- A declaration is read as its tokens, if its type stays within it. -/
theorem reads_spelling (stays : staysWithin column.type = true) :
    Reads column.sql column.spelling := by
  -- The type has tokens by itself, since it stays within the declaration.
  obtain ⟨type, isType, -⟩ := exists_tokens_of_staysWithin stays
  rw [spelling, isType]
  exact reads_tokensWith (reads_of_ofSql isType)

/-- The tokens of a declaration begin with the name and stay within it, if its type does. -/
theorem exists_spelling_eq (quoted : column.bare = false)
    (stays : staysWithin column.type = true) :
    ∃ tail, column.spelling = .name column.name.text :: tail ∧ level 0 tail = some 0 := by
  obtain ⟨type, isType, typeStays⟩ := exists_tokens_of_staysWithin stays
  -- Behind the name come the type and the constraints, and all of them keep the level.
  refine ⟨plains " " ++ (plains " ").intercalate
    (type :: column.constraints.map column.constraintTokens), ?_, ?_⟩
  · rw [spelling, isType, tokensWith, List.intercalate_cons_cons, nameTokens, quoted]
    rfl
  · rw [level_append]
    refine level_intercalate rfl (List.forall_mem_cons.mpr ⟨typeStays, fun part isPart => ?_⟩)
    obtain ⟨constraint, -, rfl⟩ := List.mem_map.mp isPart
    exact level_constraintTokens quoted constraint

end Column

namespace Statement

/-- The text of a statement that creates a table is that of its parts between brackets. -/
theorem creationSql_eq (table : Identifier) (parts : List String) :
    creationSql table parts = "CREATE TABLE IF NOT EXISTS \"" ++ table.text ++ "\" (\n  " ++
      String.intercalate ",\n  " parts ++ "\n)" := by
  -- The text is the same once the quotes are joined to the words beside them.
  have written : creationSql table parts = "CREATE TABLE IF NOT EXISTS " ++
      ("\"" ++ table.text ++ "\"") ++ " (\n  " ++ String.intercalate ",\n  " parts ++ "\n)" := rfl
  have opening : "CREATE TABLE IF NOT EXISTS \"" = "CREATE TABLE IF NOT EXISTS " ++ "\"" := by
    decide +kernel
  have closing : "\" (\n  " = "\"" ++ " (\n  " := by decide +kernel
  rw [written, opening, closing]
  simp only [String.append_assoc]

/-- The columns that the text of a statement declares, by their names, if it can be read. -/
def declaredColumns? (sql : String) : Option (List String) := (ofSql sql).bind (declared? .ahead)

/-- The tokens of a statement that creates a table declare what its parts begin with. -/
theorem declared?_creationTokens (table : Identifier) {names : List String}
    {parts : List (List Token)} (begin : List.Forall₂ (fun text part =>
      ∃ tail, part = Token.name text :: tail ∧ level 0 tail = some 0) names parts) :
    declared? .ahead (creationTokens table parts) = some names := by
  have apart : Token.plain '(' ∉ plains "CREATE TABLE IF NOT EXISTS " ++
      [Token.name table.text] ++ plains " " := by
    simp [plains]
  have split : creationTokens table parts = (plains "CREATE TABLE IF NOT EXISTS " ++
      [Token.name table.text] ++ plains " ") ++ Token.plain '(' ::
        (plains "\n  " ++ ((plains ",\n  ").intercalate parts ++ plains "\n)")) := by
    simp [creationTokens, plains]
  -- The first bracket opens the list, and a line break comes before the first column.
  have led : ∀ rest, declared? .before (plains "\n  " ++ rest) = declared? .before rest :=
    fun _ => rfl
  rw [split, declared?_ahead apart, led, declared?_parts begin]

/-- The text of a statement that creates a table declares its columns, in order, if each of their
types stays within its declaration. -/
theorem declaredColumns?_createTable (table : Identifier) {columns : List Column}
    (quoted : ∀ column ∈ columns, column.bare = false)
    (stay : ∀ column ∈ columns, staysWithin column.type = true) :
    declaredColumns? (createTable table columns).sql =
      some (columns.map fun column => column.name.text) := by
  -- Each column is read as its own tokens, which begin with its name.
  have reads : List.Forall₂ Reads (columns.map Column.sql) (columns.map Column.spelling) := by
    rw [List.forall₂_map_left_iff, List.forall₂_map_right_iff]
    exact List.forall₂_same.mpr fun column listed => Column.reads_spelling (stay column listed)
  have begin : List.Forall₂ (fun text part => ∃ tail, part = Token.name text :: tail ∧
      level 0 tail = some 0) (columns.map fun column => column.name.text)
      (columns.map Column.spelling) := by
    rw [List.forall₂_map_left_iff, List.forall₂_map_right_iff]
    exact List.forall₂_same.mpr fun column listed =>
      Column.exists_spelling_eq (quoted column listed) (stay column listed)
  have read := (reads_creationSql table reads).ofSql_eq
  show (ofSql (creationSql table (columns.map Column.sql))).bind (declared? .ahead) = _
  rw [read]
  exact declared?_creationTokens table begin

end Statement

namespace Context

variable {context : Context} {model : Model} {field : Field}

/-- The key of a model has the type of a scalar, unless it is one of a system model. -/
theorem keyType_cases (context : Context) (model : Model) (target : String) :
    context.keyType model target = context.system.keyType ∨
      ∃ type : ScalarType, context.keyType model target = type.columnType := by
  -- The three cases of the type are those of the field `id` that is looked up.
  unfold keyType
  split
  · exact Or.inl rfl
  · refine Or.inr ?_
    dsimp only
    split
    · split
      · exact ⟨.integer, rfl⟩
      · exact ⟨_, rfl⟩
    · exact ⟨.text, rfl⟩
    · exact ⟨.integer, rfl⟩

/-- The column of a field is declared with its name in quotes, and has the type of a scalar or that
of the keys of system models. -/
theorem type_of_column {column : Column} (done : context.column model field = .ok (some column)) :
    column.bare = false ∧ (column.type = context.system.keyType ∨
      ∃ type : ScalarType, column.type = type.columnType) := by
  -- A scalar has its own type or that of numbers, a choice is a text, and a relation has a key.
  cases compiled_of_column done with
  | numbered name type primary kind own => exact ⟨rfl, Or.inr ⟨.integer, rfl⟩⟩
  | scalar name type primary kind own => exact ⟨rfl, Or.inr ⟨type, rfl⟩⟩
  | choice name options kind own => exact ⟨rfl, Or.inr ⟨.text, rfl⟩⟩
  | foreignKey name target relation kind owned named leads =>
    exact ⟨rfl, context.keyType_cases model relation.target⟩

/-- A definition is refused by compilation for what the check refuses it for. -/
theorem synthesize_eq_error_iff {error : Error} :
    context.synthesize model = .error error ↔
      model.validate context.system context.known = .error error := by
  -- Nothing else than the check refuses a definition.
  cases checked : model.validate context.system context.known with
  | error cause => simp [synthesize, checked, bind, Except.bind]
  | ok valid =>
    -- A definition that has passed the check can be compiled.
    obtain ⟨synthesis, done⟩ := exists_synthesize_iff.mpr checked
    simp [done]

/-- The table of a model that can be compiled has the columns that the model lists, each of them
declared with its name in quotes and in the type of a scalar or of the keys of system models. -/
theorem exists_columns_of_synthesize {synthesis : Synthesis}
    (done : context.synthesize model = .ok synthesis) :
    ∃ table columns, synthesis.table = .createTable table columns ∧ table.text = model.name ∧
      (columns.map fun column => column.name.text) = model.columnNames ∧
      ∀ column ∈ columns, column.bare = false ∧ (column.type = context.system.keyType ∨
        ∃ type : ScalarType, column.type = type.columnType) := by
  obtain ⟨own, columns, joins, isOwn, columnsDone, -, rfl⟩ := exists_parts_of_synthesize done
  refine ⟨own, _, rfl, isOwn, ?_, fun column listed => ?_⟩
  · -- The names of the columns are those of the fields, behind that of the key where it is added.
    have names := map_name_of_columns columnsDone
    unfold Model.columnNames
    dsimp only
    split
    · rw [List.map_append, names]
      rfl
    · rw [List.nil_append, names]
  · rcases List.mem_append.mp listed with key | isDeclared
    · -- The key column is that of a model without a field of its name.
      split at key
      · obtain rfl := List.mem_singleton.mp key
        exact ⟨rfl, Or.inr ⟨.integer, rfl⟩⟩
      · cases key
    · obtain ⟨field, -, made⟩ := Outcome.exists_input_of_filterMap columnsDone isDeclared
      exact type_of_column made

/-- A field of a formed definition has a column declared exactly when it has one, and the
declaration begins with its name in quotes. -/
theorem exists_column_begins {system : SystemModels} {known : Models}
    (formed : field.Formed system known model.name) :
    ∃ declared, context.column model field = .ok declared ∧
      field.columnName? = declared.map (fun column => column.name.text) ∧
      ∀ column ∈ declared, ∃ rest, column.sql = "\"" ++ column.name.text ++ "\" " ++ rest := by
  -- A formed field compiles, and what it compiles to is looked at next.
  obtain ⟨declared, made⟩ := @exists_column_of_formed context model field _ _ formed
  refine ⟨declared, made, ?_, ?_⟩
  · cases declared with
    | none => exact columnName?_of_column made
    | some column => exact (of_column made).1
  · rintro column isDeclared
    obtain rfl := Option.mem_def.mp isDeclared
    exact Column.sql_eq_of_quoted (type_of_column made).1

/-- A definition is compiled exactly when it is valid, and is refused for what the check refuses it
for. The statement that creates its table declares the columns that the definition lists, in order
and none of them twice: its text is that of their declarations, each of which begins with the name
in quotes, and where the type of the keys of system models stays within a declaration the columns
are read back from the text. A field has a column declared exactly when it has one, and that begins
with its name in quotes. -/
theorem synthesize_declares_columns (context : Context) (model : Model) :
    ((∃ synthesis, context.synthesize model = .ok synthesis) ↔
      model.validate context.system context.known = .ok ()) ∧
    (∀ error, context.synthesize model = .error error ↔
      model.validate context.system context.known = .error error) ∧
    ∀ synthesis, context.synthesize model = .ok synthesis →
      model.columnNames.Nodup ∧
      (∃ columns : List Column,
        synthesis.table.sql = "CREATE TABLE IF NOT EXISTS \"" ++ model.name ++ "\" (\n  " ++
          String.intercalate ",\n  " (columns.map Column.sql) ++ "\n)" ∧
        (columns.map fun column => column.name.text) = model.columnNames ∧
        ∀ column ∈ columns, ∃ rest, column.sql = "\"" ++ column.name.text ++ "\" " ++ rest) ∧
      (staysWithin context.system.keyType = true →
        Statement.declaredColumns? synthesis.table.sql = some model.columnNames) ∧
      ∀ field ∈ model.fields, ∃ declared, context.column model field = .ok declared ∧
        field.columnName? = declared.map (fun column => column.name.text) ∧
        ∀ column ∈ declared, ∃ rest, column.sql = "\"" ++ column.name.text ++ "\" " ++ rest := by
  refine ⟨exists_synthesize_iff, fun error => synthesize_eq_error_iff, fun synthesis done => ?_⟩
  -- The rest is about a definition that was compiled, which is therefore valid.
  have valid := exists_synthesize_iff.mp ⟨synthesis, done⟩
  obtain ⟨table, columns, creates, named, names, declared⟩ := exists_columns_of_synthesize done
  refine ⟨Model.nodup_columnNames valid, ⟨columns, ?_, names, fun column listed => ?_⟩,
    fun stays => ?_, fun field present => ?_⟩
  · rw [creates, ← named]
    exact Statement.creationSql_eq table _
  · exact Column.sql_eq_of_quoted (declared column listed).1
  · -- Reading the text back gives the names of the declared columns.
    rw [creates, ← names]
    refine Statement.declaredColumns?_createTable table
      (fun column listed => (declared column listed).1) fun column listed => ?_
    -- A type of keys stays within by assumption, and the types of scalars always do.
    rcases (declared column listed).2 with isKey | ⟨type, isScalar⟩
    · rw [isKey, stays]
    · rw [isScalar]
      exact staysWithin_columnType type
  · exact exists_column_begins ((Model.validate_eq_ok.mp valid).1.fields field present)

/-- Posts whose texts imitate the declarations of columns, and whose relations have columns of other
names. -/
def deceptivePost : Model where
  name := "Post"
  fields := [
    .ofRelation "tags" (.to .manyToMany "Tag"),
    { Field.ofKind "state" (.choice ["it's), \"fake\" INT,\n  \"name\" TEXT", "(", "--"]) with
      default := some (.text "x'), (\"y") },
    .ofScalar "price" .decimal,
    .ofRelation "author" { Relation.to .manyToOne "User" with foreignKey := some "written_by" },
    .ofRelation "related" { Relation.to .oneToOne "Post" with onDelete := some .setNull }]

/-- Tags, and users whose keys are of a type of its own. -/
def deceived : Context where
  system := SystemModels.standard.withKeyType "\"key, (type\"(1, 2)"
  known := Roster.ofList [{ name := "Tag", fields := [] }]

/-- From the text of the table of these posts their own columns are read, and nothing that stands in
a literal or in the type. -/
theorem synthesize_declares_columns_deceptive :
    ∃ synthesis, deceived.synthesize deceptivePost = .ok synthesis ∧
      staysWithin deceived.system.keyType = true ∧
      Statement.declaredColumns? synthesis.table.sql =
        some ["id", "state", "price", "written_by", "related_id"] := by
  -- The text is worked out, and reading it back is the theorem.
  obtain ⟨-, -, declares⟩ := synthesize_declares_columns deceived deceptivePost
  obtain ⟨synthesis, done⟩ := @Outcome.exists_of_isOk _ _ (deceived.synthesize deceptivePost)
    (by decide +kernel)
  have stays : staysWithin deceived.system.keyType = true := by decide
  exact ⟨synthesis, done, stays, (declares synthesis done).2.2.1 stays⟩

end Context

end ModelCatalog
