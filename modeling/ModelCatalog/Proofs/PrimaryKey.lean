import ModelCatalog.Proofs.Declarations
import ModelCatalog.Proofs.Synthesis

/-! The primary key: a table has at most one, and columns of different names. It is keyed by `id`
unless the definition brings a field of that name which is no key. -/

namespace ModelCatalog

namespace Column

/-- The column is declared as the primary key. -/
def isPrimary (column : Column) : Bool := column.constraints.contains .primaryKey

/-- Of these columns one is called `id`, one is the primary key, and it is the same one. -/
def KeyedById (columns : List Column) : Prop :=
  ∃ key ∈ columns, (columns.filter fun column => column.name.text == idName) = [key] ∧
    columns.filter isPrimary = [key]

instance (columns : List Column) : Decidable (KeyedById columns) :=
  inferInstanceAs (Decidable (∃ key ∈ columns,
    (columns.filter fun column => column.name.text == idName) = [key] ∧
      columns.filter isPrimary = [key]))

/-- Columns of which at most one is a primary key, under names of their own, are keyed by `id` when
a column of that name is a primary key. -/
theorem keyedById_iff {columns : List Column}
    (names : (columns.map fun column => column.name.text).Nodup)
    (oneKey : (columns.filter isPrimary).length ≤ 1) :
    KeyedById columns ↔
      ∃ column ∈ columns, column.name.text = idName ∧ column.isPrimary = true := by
  -- Names that are apart have each name once at most, and a list with one member at most is that
  -- member.
  have oneId : (columns.filter fun column => column.name.text == idName).length ≤ 1 := by
    have counted := List.nodup_iff_count_le_one.mp names idName
    rwa [List.count, List.countP_map, List.countP_eq_length_filter] at counted
  have only : ∀ {kept : List Column} {column : Column}, kept.length ≤ 1 → column ∈ kept →
      kept = [column] := by
    intro kept column atMost listed
    obtain ⟨one, rfl⟩ := List.length_eq_one_iff.mp
      (Nat.le_antisymm atMost (List.length_pos_of_mem listed))
    rw [List.mem_singleton.mp listed]
  constructor
  · rintro ⟨key, present, isId, isOnly⟩
    have named : key ∈ columns.filter fun column => column.name.text == idName :=
      isId ▸ List.mem_singleton_self key
    have primary : key ∈ columns.filter isPrimary := isOnly ▸ List.mem_singleton_self key
    exact ⟨key, present, beq_iff_eq.mp (List.mem_filter.mp named).2, (List.mem_filter.mp primary).2⟩
  · rintro ⟨key, present, named, primary⟩
    exact ⟨key, present, only oneId (List.mem_filter.mpr ⟨present, beq_iff_eq.mpr named⟩),
      only oneKey (List.mem_filter.mpr ⟨present, primary⟩)⟩

end Column

namespace Context

variable {context : Context} {model : Model} {field : Field}

/-- What stands only under a condition, and is no primary key, does not make one. -/
theorem not_mem_constraintIf {condition : Bool} {constraint : Constraint}
    (other : constraint ≠ .primaryKey) : .primaryKey ∉ constraintIf condition constraint := by
  -- Where the condition does not hold there is no constraint at all.
  cases condition <;> simp [constraintIf, other.symm]

/-- A default makes no primary key. -/
theorem not_mem_defaultOf (field : Field) : .primaryKey ∉ defaultOf field := by
  unfold defaultOf
  -- The default is there or not, and is no key in either case.
  split <;> simp

/-- A column is declared as the primary key exactly when its field is a key. -/
theorem isPrimary_of_column {column : Column}
    (done : context.column model field = .ok (some column)) : column.isPrimary = field.isKey := by
  -- A numbered column is a key, any other scalar one when it says so, and nothing else is.
  cases compiled_of_column done with
  | numbered name type primary kind own =>
    simp [Column.isPrimary, Column.numbered, Field.isKey, kind]
  | scalar name type primary kind own =>
    simp [Column.isPrimary, Field.isKey, kind, not_mem_defaultOf, constraintIf]
  | choice name options kind own =>
    simp [Column.isPrimary, Field.isKey, kind, not_mem_constraintIf, not_mem_defaultOf]
  | foreignKey name target relation kind owned named leads =>
    simp [Column.isPrimary, Field.isKey, kind, not_mem_constraintIf]

/-- A key has a column of its own name. -/
theorem columnName?_of_isKey (key : field.isKey = true) : field.columnName? = some field.name := by
  -- A key is a field without a relation.
  unfold Field.isKey at key
  split at key
  · rename_i kind
    simp only [Field.columnName?, kind]
  · cases key

/-- The declared columns bear the names of the columns of the fields, in their order. -/
theorem map_name_of_columns {fields : List Field} {columns : List (Option Column)}
    (done : fields.mapM (context.column model) = .ok columns) :
    (columns.filterMap id).map (fun column => column.name.text) =
      fields.filterMap Field.columnName? := by
  -- Fields and columns are walked side by side; a field without a column has no name for one.
  induction Outcome.mapM_eq_ok.mp done with
  | nil => rfl
  | @cons field column _ _ head tail ih =>
    have others := ih (Outcome.mapM_eq_ok.mpr tail)
    cases column with
    | none => simpa [columnName?_of_column head] using others
    | some column => simpa [(of_column head).1] using others

/-- As many columns are declared as primary keys as there are fields that are keys. -/
theorem length_isPrimary_of_columns {fields : List Field} {columns : List (Option Column)}
    (done : fields.mapM (context.column model) = .ok columns) :
    ((columns.filterMap id).filter Column.isPrimary).length =
      (fields.filter Field.isKey).length := by
  -- A field without a column is no key, since a key has one.
  induction Outcome.mapM_eq_ok.mp done with
  | nil => rfl
  | @cons field column _ _ head tail ih =>
    have others := ih (Outcome.mapM_eq_ok.mpr tail)
    cases column with
    | none =>
      have plain : field.isKey = false := by
        by_contra key
        have named := columnName?_of_isKey (Bool.not_eq_false _ ▸ key)
        rw [columnName?_of_column head] at named
        cases named
      simpa [plain] using others
    -- A declared column is a primary key when the field is a key.
    | some column =>
      have same := isPrimary_of_column head
      cases key : field.isKey <;> simpa [same, key] using others

/-- A declared column called `id` is a primary key exactly when a field of that name is a key. -/
theorem exists_primary_id_iff {columns : List (Option Column)}
    (done : model.fields.mapM (context.column model) = .ok columns) :
    (∃ column ∈ columns.filterMap id, column.name.text = idName ∧ column.isPrimary = true) ↔
      ∃ field ∈ model.fields, field.name = idName ∧ field.isKey = true := by
  -- The column and the field have one name, for a key has a column of its own name.
  constructor
  · -- A primary key was declared for a field that is a key, and that has a column of its own name.
    rintro ⟨column, listed, named, primary⟩
    obtain ⟨field, present, declared⟩ := Outcome.exists_input_of_filterMap done listed
    rw [isPrimary_of_column declared] at primary
    have ownName := (of_column declared).1
    rw [columnName?_of_isKey primary, Option.some.injEq] at ownName
    exact ⟨field, present, ownName.trans named, primary⟩
  · -- A key has a column, and it is declared as a primary key.
    rintro ⟨field, present, named, key⟩
    have hasColumn := columnName?_of_isKey key
    obtain ⟨column, isColumn, declared⟩ := Outcome.exists_of_mapM_eq_ok done present
    cases column with
    | none =>
      rw [columnName?_of_column declared] at hasColumn
      cases hasColumn
    | some column =>
      rw [(of_column declared).1, Option.some.injEq] at hasColumn
      exact ⟨column, List.mem_filterMap.mpr ⟨_, isColumn, rfl⟩, hasColumn.trans named,
        (isPrimary_of_column declared).trans key⟩

end Context

/-- The columns of a formed definition with its key in place have names of their own. -/
theorem Model.nodup_columnNames {system : SystemModels} {known : Models} {model : Model}
    (valid : model.validate system known = .ok ()) : model.columnNames.Nodup := by
  obtain ⟨formed, keyed⟩ := validate_eq_ok.mp valid
  unfold columnNames
  dsimp only
  -- Where the key column is added nothing else has its name.
  split
  · rename_i missing
    exact List.nodup_cons.mpr ⟨(keyed_iff.mp keyed missing).2, formed.columns⟩
  · exact formed.columns

namespace Context

variable {context : Context} {model : Model}

/-- The table of a valid definition has columns of different names and at most one primary key. It
is keyed by `id` exactly when every field of that name is a key, as when there is none. -/
theorem keyedById_synthesize_iff (valid : model.validate context.system context.known = .ok ()) :
    ∃ synthesis table columns, context.synthesize model = .ok synthesis ∧
      synthesis.table = .createTable table columns ∧ table.text = model.name ∧
      (columns.map fun column => column.name.text) = model.columnNames ∧
      model.columnNames.Nodup ∧ (columns.filter Column.isPrimary).length ≤ 1 ∧
      (Column.KeyedById columns ↔
        ∀ field ∈ model.fields, field.name = idName → field.isKey = true) := by
  -- The synthesis is taken apart into the columns of the fields and the key in front of them.
  obtain ⟨synthesis, synthesized⟩ := exists_synthesize_iff.mpr valid
  obtain ⟨own, columns, joins, isOwn, columnsDone, -, rfl⟩ :=
    exists_parts_of_synthesize synthesized
  obtain ⟨formed, keyed⟩ := Model.validate_eq_ok.mp valid
  have names := map_name_of_columns columnsDone
  have keys := length_isPrimary_of_columns columnsDone
  have distinct := Model.nodup_columnNames valid
  refine ⟨_, own, _, synthesized, rfl, isOwn, ?_⟩
  cases missing : (model.field? idName).isNone with
  | true =>
    -- The key column is added to columns none of which is a key or has its name.
    obtain ⟨noKey, -⟩ := Model.keyed_iff.mp keyed missing
    rw [List.map_eq_nil_iff.mp noKey, List.length_nil] at keys
    have all : ([Column.numbered idIdentifier] ++ columns.filterMap id).map
        (fun column => column.name.text) = model.columnNames := by
      simp only [Model.columnNames, missing, reduceIte, List.map_append, names]
      rfl
    have oneKey : (([Column.numbered idIdentifier] ++ columns.filterMap id).filter
        Column.isPrimary).length ≤ 1 := by
      rw [List.filter_append, List.length_append, keys]
      decide
    refine ⟨all, distinct, oneKey, iff_of_true ?_ fun field present isId => ?_⟩
    · exact (Column.keyedById_iff (all ▸ distinct) oneKey).mpr
        ⟨_, List.mem_append_left _ (List.mem_singleton_self _), rfl, rfl⟩
    · -- No field has the name, so nothing is asked of one.
      exact absurd isId
        (Model.field?_eq_none.mp (Option.isNone_iff_eq_none.mp missing) field present)
  -- The key is declared by a field, so the columns are those of the fields.
  | false =>
    have all : (columns.filterMap id).map (fun column => column.name.text) = model.columnNames := by
      simp only [Model.columnNames, missing, Bool.false_eq_true, reduceIte, names]
    have oneKey : ((columns.filterMap id).filter Column.isPrimary).length ≤ 1 :=
      keys ▸ formed.oneKey
    refine ⟨all, distinct, oneKey, (Column.keyedById_iff (all ▸ distinct) oneKey).trans
      ((exists_primary_id_iff columnsDone).trans ⟨?_, fun isKey => ?_⟩)⟩
    · -- There is only one field of this name.
      rintro ⟨key, inModel, keyName, isKey⟩ field present isId
      rwa [List.inj_on_of_nodup_map formed.names present inModel (isId.trans keyName.symm)]
    · -- The field that is there is the key.
      obtain ⟨field, found⟩ := Option.isSome_iff_exists.mp (Option.isNone_eq_false_iff.mp missing)
      obtain ⟨present, isId⟩ := Model.mem_of_field? found
      exact ⟨field, present, isId, isKey field present isId⟩

/-- A post that brings a key of its own. -/
def keyedPost : Model where
  name := "Post"
  fields := [.asPrimaryKey (.ofScalar "id" .text), .ofRelation "author" (.to .manyToOne "User")]

/-- The table of the post is keyed by the field. -/
theorem keyedById_keyedPost :
    keyedPost.validate .standard ∅ = .ok () ∧
      ∃ synthesis table columns, (Context.mk .standard ∅).synthesize keyedPost = .ok synthesis ∧
        synthesis.table = .createTable table columns ∧ Column.KeyedById columns := by
  -- The post passes, and the `id` it declares is its key.
  have valid : keyedPost.validate .standard ∅ = .ok () := by decide +kernel
  obtain ⟨synthesis, table, columns, synthesized, isTable, -, -, -, -, keyed⟩ :=
    @keyedById_synthesize_iff ⟨.standard, ∅⟩ _ valid
  exact ⟨valid, synthesis, table, columns, synthesized, isTable, keyed.mpr (by decide)⟩

/-- A post with an `id` that is a plain text, and another field for its key. -/
def sluggedPost : Model where
  name := "Post"
  fields := [.ofScalar "id" .text, .asPrimaryKey (.ofScalar "slug" .text)]

/-- The post is accepted, and its table has an `id` that is no key. -/
theorem not_keyedById_sluggedPost :
    sluggedPost.validate .standard ∅ = .ok () ∧
      ∃ synthesis table columns, (Context.mk .standard ∅).synthesize sluggedPost = .ok synthesis ∧
        synthesis.table = .createTable table columns ∧ ¬Column.KeyedById columns ∧
        (columns.filter Column.isPrimary).map (fun column => column.name.text) = ["slug"] ∧
        synthesis.table.sql = "CREATE TABLE IF NOT EXISTS \"Post\" (\n" ++
          "  \"id\" VARCHAR(255),\n  \"slug\" VARCHAR(255) PRIMARY KEY\n)" := by
  -- Checks and columns are worked out, and the columns are searched for a primary key.
  refine ⟨by decide +kernel, _, _, _, rfl, rfl, by decide +kernel, by decide +kernel, ?_⟩
  decide +kernel

end Context

end ModelCatalog
