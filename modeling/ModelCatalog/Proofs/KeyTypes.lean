import ModelCatalog.Proofs.PrimaryKey
import ModelCatalog.Proofs.Reapplication

/-! The types of references: a column that refers to a model has the type of the key of its table,
unless that key is itself a foreign key of another type. -/

namespace ModelCatalog

/-- The columns of a join table. -/
def Statement.joinColumns : Statement → List Column
  | createJoinTable _ left right => [left, right]
  | _ => []

/-- The columns that a field brings about: its own, and those of its join table. -/
def Context.columnsOf (context : Context) (model : Model) (field : Field) :
    Except Error (List Column) := do
  let column ← context.column model field
  let joinTable ← context.joinTable model field
  return column.toList ++ joinTable.toList.flatMap Statement.joinColumns

/-- The tables that the columns of a relation refer to: its own that of the target, and those of the
join table that of the model and that of the target. -/
def Relation.referred (relation : Relation) (model : String) : List String :=
  (if relation.kind.hasColumn then [relation.target] else []) ++
    if relation.kind.usesJoinTable then [model, relation.target] else []

/-- Fields of one column are one field, where every column has a field of its own. -/
theorem Model.eq_of_columnName_eq {model : Model}
    (distinct : (model.fields.filterMap Field.columnName?).Nodup) {field other : Field}
    (present : field ∈ model.fields) (otherPresent : other ∈ model.fields) {column : String}
    (occupies : field.columnName? = some column)
    (otherOccupies : other.columnName? = some column) : field = other := by
  have symmetric : Std.Symm fun one other : Field => ∀ column, one.columnName? = some column →
      ∀ second, other.columnName? = some second → column ≠ second :=
    ⟨fun _ _ apart _ own _ second same => apart _ second _ own same.symm⟩
  -- Two of them would be apart in the list, and then so would their columns.
  by_contra differ
  exact (List.pairwise_filterMap.mp distinct).forall present otherPresent differ
    column occupies column otherOccupies rfl

/-- A field without a relation has a column of its own name. -/
theorem Field.columnName?_plain {field : Field} (unrelated : field.relation? = none) :
    field.columnName? = some field.name := by
  -- The field has another column only when its kind is a relation.
  unfold columnName?
  split
  · rename_i relation kind
    rw [relation?_eq_some.mpr kind] at unrelated
    cases unrelated
  · rfl

namespace Context

variable {context : Context} {model : Model} {field : Field} {relation : Relation}

/-! ## References -/

/-- The columns refer to these tables, one each, in the types that their keys have from the
model. -/
def Refer (context : Context) (model : Model) (columns : List Column) (tables : List String) :
    Prop :=
  columns.map (fun column => (column.references, column.type)) =
    tables.map fun table => ([table], context.keyType model table)

/-- The own column of a relation, if it has one, is its foreign key. -/
theorem refer_column {column : Option Column} (related : field.relation? = some relation)
    (done : context.column model field = .ok column) :
    context.Refer model column.toList
      (if relation.kind.hasColumn then [relation.target] else []) := by
  -- Of the constraints of a foreign key only the reference names a table.
  cases compiled_of_column done with
  | foreignKey name target other kind owned named leads =>
    rw [Field.relation?_eq_some.mpr kind, Option.some.injEq] at related
    subst related
    rw [if_pos owned]
    simp only [Refer, Column.references, Option.toList_some, List.map_cons, List.map_nil,
      List.filterMap_append]
    rw [filterMap_constraintIf rfl, filterMap_constraintIf rfl]
    simp [Constraint.reference?, leads]
  | keyless other kind unowned =>
    rw [Field.relation?_eq_some.mpr kind, Option.some.injEq] at related
    subst related
    simp [Refer, unowned]
  | _ =>
    -- A field without a relation is none of those meant here.
    rename_i kind _
    rw [Field.relation?_eq_some, kind] at related
    cases related

/-- A column of a join table refers to one of the two tables. -/
@[simp] theorem references_joinColumn (name table : Identifier) (type : String) :
    -- The constraint of the column names the table it was made for.
    (joinColumn name type table).references = [table.text] := rfl

/-- The columns of the join table of a relation, if it has one, refer to both models. -/
theorem refer_joinTable {statement : Option Statement} (related : field.relation? = some relation)
    (done : context.joinTable model field = .ok statement) :
    context.Refer model (statement.toList.flatMap Statement.joinColumns)
      (if relation.kind.usesJoinTable then [model.name, relation.target] else []) := by
  -- What was compiled is a join table or nothing, as the kind of the relation has it.
  cases joined_of_joinTable done with
  | table other otherRelated uses table left right owner target _ _ _ owns leads =>
    rw [related, Option.some.injEq] at otherRelated
    subst otherRelated
    rw [if_pos uses, ← owns, ← leads]
    rfl
  | unjoined unused =>
    rw [if_neg (by simp [unused relation related])]
    rfl

/-- The fields of a valid model have their columns, and those of a relation refer to its tables. -/
theorem exists_columnsOf (valid : model.validate context.system context.known = .ok ())
    (present : field ∈ model.fields) (related : field.relation? = some relation) :
    ∃ columns, context.columnsOf model field = .ok columns ∧
      context.Refer model columns (relation.referred model.name) := by
  have formed := (Model.validate_eq_ok.mp valid).1
  have fieldFormed := formed.fields field present
  obtain ⟨column, made⟩ := @exists_column_of_formed context model field _ _ fieldFormed
  obtain ⟨joinTable, joined⟩ :=
    @exists_joinTable_of_formed context model field _ _ formed.name fieldFormed
  -- A formed field compiles, and then each of its columns was shown to refer as it should.
  refine ⟨_, Outcome.bind_eq_ok.mpr ⟨column, made, Outcome.bind_eq_ok.mpr ⟨joinTable, joined, rfl⟩⟩,
    ?_⟩
  unfold Refer Relation.referred
  rw [List.map_append, List.map_append, refer_column related made, refer_joinTable related joined]

/-- Columns that refer to tables have the types of their keys. -/
theorem Refer.type {columns : List Column} {tables : List String}
    (refer : context.Refer model columns tables) {reference : Column}
    (listed : reference ∈ columns) {table : String} (refers : table ∈ reference.references) :
    table ∈ tables ∧ reference.type = context.keyType model table := by
  -- The references and types of the columns are those listed, so this one is among them.
  obtain ⟨own, isOwn, same⟩ := List.mem_map.mp (refer ▸ List.mem_map_of_mem
    (f := fun column : Column => (column.references, column.type)) listed)
  obtain ⟨references, type⟩ := Prod.mk.inj same
  obtain rfl := List.mem_singleton.mp (references ▸ refers)
  exact ⟨isOwn, type.symm⟩

/-! ## Keys -/

/-- The type of the key of a model that is known is the same from each known model. -/
theorem keyType_of_known {source target : Model} (listed : source ∈ context.known.members)
    (found : context.known.find? target.name = some target) :
    context.keyType source target.name = context.keyType target target.name := by
  unfold keyType
  -- From the model itself its key is its own, and from elsewhere it is looked up by its name.
  split
  · rfl
  · by_cases own : target.name = source.name
    · have same : some source = some target := by
        rw [← Roster.mem_iff_find?.mp listed, ← found, own]
        rfl
      simp [own, Option.some.inj same]
    · simp [own, found]

/-- The column of a field without a relation refers to nothing. -/
theorem references_plain {column : Column} (unrelated : field.relation? = none)
    (done : context.column model field = .ok (some column)) : column.references = [] := by
  refine List.eq_nil_iff_forall_not_mem.mpr fun table listed => ?_
  -- What a column refers to is a target of its field, and this field has none.
  have targets := (of_column done).2 table listed
  rw [Field.not_targets_of_none unrelated] at targets
  cases targets

/-- The type of the key is that of the column of `id`, where this is a field without a relation. -/
theorem keyType_plain {column : Column} (outside : context.system.contains model.name = false)
    (found : model.field? idName = some field) (unrelated : field.relation? = none)
    (done : context.column model field = .ok (some column)) :
    context.keyType model model.name = column.type := by
  -- Both the column and the key take the type of the field, and choices are texts on both sides.
  cases compiled_of_column done with
  | numbered name type primary kind own =>
    simp [keyType, outside, found, kind, integerKeyType, Column.numbered]
  | scalar name type primary kind own => simp [keyType, outside, found, kind]
  | choice name options kind own => simp [keyType, outside, found, kind]
  | foreignKey name target relation kind owned named leads =>
    rw [Field.relation?_eq_some.mpr kind] at unrelated
    cases unrelated

/-- The type of the key is that of numbers, where no field without a relation is called `id`. -/
theorem keyType_integer (outside : context.system.contains model.name = false)
    (related : ∀ field, model.field? idName = some field → field.relation? ≠ none) :
    context.keyType model model.name = integerKeyType := by
  -- Without a field `id` the key is added with the type of numbers, and a relation gives that type
  -- as well.
  cases found : model.field? idName with
  | none => simp [keyType, outside, found]
  | some field =>
    obtain ⟨relation, leads⟩ := Option.ne_none_iff_exists'.mp (related field found)
    simp [keyType, outside, found, Field.relation?_eq_some.mp leads]

/-- The column `id` of a valid model has the type of its key, or else is a foreign key, and the type
of the key is that of numbers. -/
theorem key_column (valid : model.validate context.system context.known = .ok ())
    (outside : context.system.contains model.name = false) {synthesis : Synthesis}
    {table : Identifier} {declared : List Column}
    (done : context.synthesize model = .ok synthesis)
    (creates : synthesis.table = .createTable table declared) {key : Column}
    (listed : key ∈ declared) (named : key.name.text = idName) :
    (key.references = [] ∧ context.keyType model model.name = key.type) ∨
      (key.references ≠ [] ∧ context.keyType model model.name = integerKeyType) := by
  obtain ⟨formed, keyed⟩ := Model.validate_eq_ok.mp valid
  obtain ⟨own, columns, joins, -, columnsDone, -, rfl⟩ := exists_parts_of_synthesize done
  obtain ⟨-, rfl⟩ := Statement.createTable.inj creates
  rcases List.mem_append.mp listed with numbered | declared
  · -- The key column is added where no field is called `id`.
    split at numbered
    · rename_i missing
      obtain rfl := List.mem_singleton.mp numbered
      refine Or.inl ⟨rfl, keyType_integer outside fun field found => ?_⟩
      rw [Option.isNone_iff_eq_none.mp missing] at found
      cases found
    · cases numbered
  · obtain ⟨field, present, made⟩ := Outcome.exists_input_of_filterMap columnsDone declared
    have occupies : field.columnName? = some idName := named ▸ (of_column made).1
    -- The field that has the column decides: without a relation it is `id` itself.
    cases related : field.relation? with
    | none =>
      have isId : field.name = idName :=
        Option.some.inj ((Field.columnName?_plain related).symm.trans occupies)
      have found : model.field? idName = some field :=
        isId ▸ Model.field?_of_mem formed.names present
      exact Or.inl ⟨references_plain related made, keyType_plain outside found related made⟩
    | some relation =>
      refine Or.inr ⟨?_, keyType_integer outside fun other found plain => ?_⟩
      · have refer := refer_column related made
        unfold Refer at refer
        split at refer
        · obtain ⟨references, -⟩ := Prod.mk.inj (List.cons.inj refer).1
          simp [references]
        · cases refer
      · -- Another field called `id` would have the same column.
        obtain ⟨otherPresent, isId⟩ := Model.mem_of_field? found
        have same := Model.eq_of_columnName_eq formed.columns present otherPresent occupies
          (isId ▸ Field.columnName?_plain plain)
        rw [same, plain] at related
        cases related

/-- The tables of the relations of a known and valid model are those of known models, except for
system models. -/
theorem isSome_find?_referred (valid : model.validate context.system context.known = .ok ())
    (listed : model ∈ context.known.members) (present : field ∈ model.fields)
    (related : field.relation? = some relation) {table : String}
    (among : table ∈ relation.referred model.name)
    (outside : context.system.contains table = false) :
    (context.known.find? table).isSome = true := by
  have itself : (context.known.find? model.name).isSome = true :=
    Option.isSome_iff_exists.mpr ⟨model, Roster.mem_iff_find?.mp listed⟩
  -- Tables referred to are that of the model, which is known, and that of the target, which
  -- validity asks for.
  have either : table = model.name ∨ table = relation.target := by
    unfold Relation.referred at among
    grind
  rcases either with rfl | rfl
  · exact itself
  · have formed := (Model.validate_eq_ok.mp valid).1.fields field present
    rcases (formed.relation relation related).present with own | isSystem | known
    · exact own ▸ itself
    · rw [outside] at isSystem
      cases isSystem
    · rwa [Roster.contains_eq] at known

/-- Among valid models the columns of a relation refer to its tables. For each reference that is not
one to a system model the table is known, and the reference has the type of the key of that table
exactly when this key is no foreign key or is a number. -/
theorem reference_type_iff (valid : context.known.Valid context.system)
    (listed : model ∈ context.known.members) (present : field ∈ model.fields)
    (related : field.relation? = some relation) :
    ∃ columns, context.columnsOf model field = .ok columns ∧
      columns.map Column.references = (relation.referred model.name).map (fun table => [table]) ∧
      ∀ reference ∈ columns, ∀ table ∈ reference.references,
        context.system.contains table = false →
        ∃ target, context.known.find? table = some target ∧
        ∃ synthesis own declared, context.synthesize target = .ok synthesis ∧
          synthesis.table = .createTable own declared ∧
          ∀ key ∈ declared, key.name.text = idName →
            (reference.type = key.type ↔ key.references = [] ∨ key.type = integerKeyType) := by
  -- Synthesis of a valid model gives the columns, and each refers to what the relation says.
  obtain ⟨columns, done, refer⟩ := exists_columnsOf (valid model listed) present related
  refine ⟨columns, done, ?_, fun reference isReference table refers outside => ?_⟩
  · simpa [Function.comp_def] using congrArg (List.map Prod.fst) refer
  -- The reference has the type that the context finds for the key of its table.
  obtain ⟨among, type⟩ := refer.type isReference refers
  obtain ⟨target, found⟩ := Option.isSome_iff_exists.mp
    (isSome_find?_referred (valid model listed) listed present related among outside)
  obtain rfl : target.name = table := Roster.name_of_find? found
  -- The table belongs to a valid model, whose key column is declared by its own synthesis.
  have targetValid := valid target (Roster.mem_of_find? found)
  obtain ⟨synthesis, own, declared, synthesized, creates, -⟩ := keyedById_synthesize_iff targetValid
  refine ⟨target, found, synthesis, own, declared, synthesized, creates, fun key isKey named => ?_⟩
  rw [type, keyType_of_known listed found]
  -- The key is a plain column or a foreign key, and only the latter is taken for a number.
  rcases key_column targetValid outside synthesized creates isKey named with
    ⟨plain, same⟩ | ⟨foreign, integer⟩
  · simp [plain, same]
  · simp [foreign, integer, eq_comm]

/-- The field by which a post has its tags. -/
def tagsOfPost : Field := .ofRelation "tags" (.to .manyToMany "Tag")

/-- Posts, and the tags that they have, whose keys are texts. -/
def taggedPosts : Context where
  system := .standard
  known := Roster.ofList [{ name := "Post", fields := [tagsOfPost] },
    { name := "Tag", fields := [.asPrimaryKey (.ofScalar "id" .text)] }]

/-- The join table of posts and tags refers to either table in the type of its key. -/
theorem reference_type_iff_taggedPosts :
    taggedPosts.known.Valid taggedPosts.system ∧
      ∃ columns, taggedPosts.columnsOf { name := "Post", fields := [tagsOfPost] } tagsOfPost =
          .ok columns ∧ columns.map Column.references = [["Post"], ["Tag"]] ∧
        columns.map Column.type = ["INT", "VARCHAR(255)"] := by
  -- The two models are valid, and the relation of posts has a join table.
  have valid : taggedPosts.known.Valid taggedPosts.system := by decide +kernel
  obtain ⟨columns, done, refers, -⟩ := reference_type_iff valid
    (show { name := "Post", fields := [tagsOfPost] } ∈ taggedPosts.known.members by decide +kernel)
    (List.mem_singleton_self tagsOfPost) rfl
  -- The types of the two columns are worked out.
  have types : (taggedPosts.columnsOf { name := "Post", fields := [tagsOfPost] }
      tagsOfPost).toOption.map (List.map Column.type) = some ["INT", "VARCHAR(255)"] := by
    decide +kernel
  rw [done] at types
  exact ⟨valid, columns, done, refers, Option.some.inj types⟩

/-- Accounts whose key is that of a user. -/
def userAccount : Model where
  name := "Account"
  fields := [.ofRelation "id" { (Relation.to .oneToOne "User") with foreignKey := some "id" }]

/-- The field by which a session has its account. -/
def accountOfSession : Field := .ofRelation "account" (.to .manyToOne "Account")

/-- These accounts, and their sessions. -/
def accountSessions : Context where
  system := .standard
  known := Roster.ofList [userAccount, { name := "Session", fields := [accountOfSession] }]

/-- A session refers to its account by a number, and the key of the account is a text. -/
theorem reference_type_differs_accountSessions :
    accountSessions.known.Valid accountSessions.system ∧
      ∃ columns synthesis own declared,
        accountSessions.columnsOf { name := "Session", fields := [accountOfSession] }
          accountOfSession = .ok columns ∧
        accountSessions.synthesize userAccount = .ok synthesis ∧
        synthesis.table = .createTable own declared ∧
        columns.map Column.sql = ["\"account_id\" INT REFERENCES \"Account\"(\"id\")"] ∧
        declared.map Column.sql =
          ["\"id\" VARCHAR(255) REFERENCES \"User\"(\"id\") UNIQUE"] ∧
        ∃ reference ∈ columns, reference.references = ["Account"] ∧
          ∃ key ∈ declared, key.name.text = idName ∧ reference.type ≠ key.type := by
  -- The key of the account refers to the users, so that its text type is not seen.
  refine ⟨by decide +kernel, _, _, _, _, rfl, rfl, rfl, by decide +kernel, by decide +kernel,
    _, List.mem_singleton_self _, ?_, _, List.mem_singleton_self _, ?_, ?_⟩ <;> decide +kernel

end Context

end ModelCatalog
