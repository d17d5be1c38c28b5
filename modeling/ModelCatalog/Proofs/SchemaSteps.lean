import ModelCatalog.Proofs.Schema
import ModelCatalog.Proofs.TableDrops

/-! Steps of the schema: a write and a deletion submit statements that keep the schema of the
database in step with the stored definitions. -/

namespace ModelCatalog

/-- The stored relations leave the tables alone: none of them bears the name of the key column, each
join table has a name that is for join tables, and fields of different models share one only as each
other's counterpart. -/
structure Store.Regular (tables : String → Prop) (store : Store) : Prop where
  keyed : ∀ definition ∈ store.definitions, ∀ field ∈ definition.fields,
    field.name = idName → field.relation? = none
  named : ∀ joint ∈ store.joints, tables joint.table
  shared : ∀ one ∈ store.joints, ∀ other ∈ store.joints, one.model ≠ other.model →
    one.table = other.table → one.Counterparts other

/-- A schema mirrors a catalog: each model has its table with all its columns, each join table is
there, and besides there are only tables whose names are for join tables. -/
structure Schema.Mirrors (tables : String → Prop) (schema : Schema) (catalog : Catalog) : Prop where
  only : ∀ name, schema.contains name = true →
    (catalog.definition? name).isSome = true ∨ tables name
  apart : ∀ name, (catalog.definition? name).isSome = true → ¬tables name
  modelled : ∀ name definition, catalog.definition? name = some definition →
    schema.contains name = true ∧ ∀ column ∈ definition.columnNames, schema.HasColumn name column
  joined : ∀ joint ∈ catalog.store.joints, schema.contains joint.table = true

variable {configuration : Configuration} {catalog : Catalog} {now : Nat} {tables : String → Prop}
  {schema : Schema}

/-- A stored definition has the key column unless it has a relation of that name. -/
theorem Store.Regular.idName_mem_columnNames (regular : catalog.store.Regular tables)
    {name : String} {definition : Model} (stored : catalog.definition? name = some definition) :
    idName ∈ definition.columnNames := by
  -- A stored definition has no relation under the name of the key.
  refine Model.idName_mem_columnNames fun field present => ?_
  refine regular.keyed definition (Catalog.mem_definitions_store.mpr ?_) field present
  rw [Catalog.name_of_definition? stored, stored]

/-! ## Writing -/

namespace WritePlan

variable {plan : WritePlan} {declared : Model}

/-- The statements of a plan in order: drops, the table of the model, its new columns, its join
tables, and the columns of its targets. -/
theorem Builds.submitted_eq {context : Context} {old : Option Record}
    {drops columns : List Statement} {synthesis : Synthesis}
    (builds : plan.Builds context old drops synthesis columns) :
    plan.submitted = (drops ++ [synthesis.table]) ++
      (columns ++ synthesis.joinTables ++ plan.edits.flatMap TargetEdit.columns) := by
  -- Only the brackets differ.
  rw [submitted, builds.statements]
  simp only [List.append_assoc, List.cons_append, List.nil_append]

/-- A write leaves the tables alone whose names are not for join tables. -/
theorem not_drops (regular : catalog.store.Regular tables)
    (planned : (configuration.context catalog).planWrite (catalog.find? plan.definition.name)
      declared = .ok plan) {name : String} (isModel : ¬tables name) :
    ∀ statement ∈ plan.submitted, ¬statement.Drops name := by
  -- A write only drops join tables, and these have names that are for them.
  rintro _ listed ⟨table, rfl, rfl⟩
  obtain ⟨joint, joins, -, same, -⟩ := exists_joint_of_drop planned listed
  exact isModel (same ▸ regular.named joint joins)

/-- A model that a planned definition relates to is the model itself, a system model or stored. -/
theorem of_references
    (sound : plan.Sound (configuration.context catalog) (catalog.find? plan.definition.name))
    {name : String} (refers : plan.definition.references name = true) :
    name = plan.definition.name ∨ configuration.system.contains name = true ∨
      (catalog.definition? name).isSome = true := by
  -- A definition that was admitted relates to nothing that is missing.
  obtain ⟨field, present, targets⟩ := List.any_eq_true.mp refers
  obtain ⟨relation, related, rfl⟩ := Field.targets_iff.mp targets
  refine (sound.admitted.relations field present relation related).present.imp id (Or.imp id ?_)
  intro known
  rwa [Roster.contains_eq, Configuration.find?_context] at known

/-- What the statements of a write need is the table of the model itself, or of a system model, or
of one that is stored. -/
theorem of_needs
    (planned : (configuration.context catalog).planWrite (catalog.find? plan.definition.name)
      declared = .ok plan) {statement : Statement} (listed : statement ∈ plan.submitted)
    {name : String} (needed : name ∈ statement.needs) :
    name = plan.definition.name ∨ configuration.system.contains name = true ∨
      (catalog.definition? name).isSome = true := by
  have related : plan.definition.references name = true → _ :=
    of_references (sound_of_planWrite planned)
  -- The cases are the kinds of statements that a plan can submit.
  cases submits_of_mem planned listed with
  | drop table obsolete => cases needed
  | create table columns own refers =>
    exact related (refers name (List.mem_filter.mp needed).1)
  | join table left right isTable refers =>
    exact (refers name needed).elim Or.inl related
  | add table column altered refers =>
    rcases List.mem_cons.mp needed with rfl | referred
    · rw [Configuration.find?_context] at altered
      exact altered.imp id Or.inr
    · exact (refers name referred).elim Or.inl related

/-- The tables that a write creates are that of the model and the join tables of its fields. -/
theorem of_creates
    (planned : (configuration.context catalog).planWrite (catalog.find? plan.definition.name)
      declared = .ok plan) {statement : Statement} (listed : statement ∈ plan.submitted)
    {name : String} (creates : statement.Creates name) :
    name = plan.definition.name ∨ name ∈ plan.definition.joinTableNames := by
  -- Only the declaration of the model and those of its join tables create anything.
  cases submits_of_mem planned listed with
  | drop table obsolete => cases creates
  | create table columns own refers => exact Or.inl (creates.symm.trans own)
  | join table left right isTable refers => exact Or.inr (creates ▸ isTable)
  | add table column altered refers => cases creates

end WritePlan

/-- The statements of a deletion are drops. -/
theorem DeletePlan.drops_of_mem {name : String} {plan : DeletePlan}
    (planned : catalog.deletion name = .ok plan) {statement : Statement}
    (listed : statement ∈ plan.statements) : ∃ table, statement.Drops table := by
  -- The plan was made of the stored record, and each of its statements drops a table.
  obtain ⟨record, stored, -⟩ := Catalog.fits_of_deletion planned
  rw [Catalog.deletion, stored] at planned
  obtain ⟨table, same, -⟩ := statements_of_ofRecord planned listed
  exact ⟨table.text, table, same, rfl⟩

/-- In a symmetric catalog the join table of a field that leads to another stored model is also that
of a field of the other. -/
theorem Symmetric.exists_joint_of_targets
    (symmetric : Symmetric configuration.system catalog.models) {joint : Joint}
    (joins : joint ∈ catalog.store.joints) {name : String} {target : Model}
    (leads : joint.field.targets name = true) (apart : name ≠ joint.model)
    (stored : catalog.definition? name = some target) :
    ∃ other ∈ catalog.store.joints, other.model = name ∧ other.table = joint.table := by
  obtain ⟨definition, found, present, isTable⟩ := Catalog.mem_joints_store.mp joins
  obtain ⟨relation, related, rfl⟩ := Field.targets_iff.mp leads
  -- The other table is that of the mate, which mates share.
  have known : catalog.models.find? joint.model = some definition := by
    rw [Catalog.find?_models, found]
  have targetKnown : catalog.models.find? relation.target = some target := by
    rw [Catalog.find?_models, stored]
  obtain ⟨other, otherKnown, mate, matePresent, mates⟩ := symmetric.mated joint.model definition
    known joint.field present relation related ⟨apart, symmetric.inCatalog _ _ targetKnown⟩
  rw [Catalog.find?_models] at otherKnown
  have resolved := (symmetric.tidy _ _ known).resolved joint.field present relation related
  have shared := mates.joinTable?_eq related resolved
  rw [Catalog.name_of_definition? otherKnown, isTable] at shared
  exact ⟨⟨relation.target, mate, joint.table⟩,
    Catalog.mem_joints_store.mpr ⟨other, otherKnown, matePresent, shared⟩, rfl, rfl⟩

/-- In a symmetric catalog the tables that a deletion drops are that of the deleted model and its
own join tables. -/
theorem DeletePlan.exists_own_joint_of_drop
    (symmetric : Symmetric configuration.system catalog.models) {name : String} {plan : DeletePlan}
    (planned : catalog.deletion name = .ok plan) {table : Identifier}
    (dropped : Statement.dropTable table ∈ plan.statements) :
    table.text = name ∨
      ∃ joint ∈ catalog.store.joints, joint.model = name ∧ joint.table = table.text := by
  rcases exists_joint_of_drop planned dropped with isOwn | ⟨gone, joins, isTable, source | leads⟩
  · exact Or.inl isOwn
  · exact Or.inr ⟨gone, joins, source, isTable⟩
  · by_cases isName : gone.model = name
    · exact Or.inr ⟨gone, joins, isName, isTable⟩
    · -- A field of another model has its mate in the deleted one.
      obtain ⟨record, found, -⟩ := Catalog.fits_of_deletion planned
      have stored : catalog.definition? name = some record.definition :=
        Catalog.definition?_of_find? found
      obtain ⟨own, ownJoins, isOwn, shared⟩ :=
        symmetric.exists_joint_of_targets joins leads (Ne.symm isName) stored
      exact Or.inr ⟨own, ownJoins, isOwn, shared.trans isTable⟩

namespace Schema.Mirrors

variable {plan : WritePlan} {declared : Model}

/-- Where a model is not stored, drops leave no table of its name. -/
theorem absent_of_drops (mirrors : schema.Mirrors tables catalog) {name : String}
    (unstored : catalog.find? name = none) (isModel : ¬tables name) {drops : List Statement}
    (drop : ∀ statement ∈ drops, ∃ table, statement = .dropTable table) :
    (schema.replay drops).contains name = false := by
  rw [Bool.eq_false_iff]
  -- The table would have been there before, for a model or as a join table, or be created.
  intro there
  rcases of_contains_replay there with ⟨before, -⟩ | ⟨statement, dropped, creates⟩
  · rcases mirrors.only _ before with stored | isJoin
    · rw [Catalog.isSome_definition?, unstored] at stored
      cases stored
    · exact isModel isJoin
  · obtain ⟨table, rfl⟩ := drop statement dropped
    exact creates

/-- After a write the model has its table with all its columns. -/
theorem modelled_self (mirrors : schema.Mirrors tables catalog)
    (regular : catalog.store.Regular tables)
    (planned : (configuration.context catalog).planWrite (catalog.find? plan.definition.name)
      declared = .ok plan) (isModel : ¬tables plan.definition.name) :
    (schema.replay plan.submitted).contains plan.definition.name = true ∧
      ∀ column ∈ plan.definition.columnNames,
        (schema.replay plan.submitted).HasColumn plan.definition.name column := by
  -- The declaration of the model makes sure of the table, so the columns are what matters.
  have kept := WritePlan.not_drops regular planned isModel
  obtain ⟨drops, synthesis, columns, builds⟩ := WritePlan.exists_builds planned
  obtain ⟨own, declaredColumns, isTable, named, complete⟩ := builds.declares.table
  have submitted := builds.submitted_eq
  rw [isTable] at submitted
  have created : Statement.createTable own declaredColumns ∈ plan.submitted := by
    rw [submitted]
    exact List.mem_append_left _ (List.mem_append_right _ List.mem_cons_self)
  refine ⟨contains_replay_of_creates created named kept, fun column listed => ?_⟩
  -- The table was there with all columns it needed, or it is new.
  cases old : catalog.find? plan.definition.name with
  | none =>
    -- Without an old version there is no table of the name, so it is created with its columns.
    have fresh : (schema.replay drops).contains own.text = false := by
      rw [named]
      exact mirrors.absent_of_drops old isModel fun statement dropped =>
        (builds.drops statement dropped).imp fun _ drop => drop.1
    obtain ⟨added, isAdded, rfl⟩ := complete column listed
    have creates : (schema.replay (drops ++ [Statement.createTable own declaredColumns])).HasColumn
        own.text added.name.text := by
      rw [replay_append]
      exact hasColumn_of_create isAdded fresh
    rw [submitted, replay_append, ← named]
    refine creates.replay fun statement isLater => ?_
    refine named ▸ kept statement ?_
    rw [submitted]
    exact List.mem_append_right _ isLater
  | some record =>
    have stored : catalog.definition? plan.definition.name = some record.definition :=
      Catalog.definition?_of_find? old
    obtain ⟨there, has⟩ := mirrors.modelled _ _ stored
    rcases Model.of_mem_columnNames listed with rfl | ⟨field, present, isColumn⟩
    · -- The id column belongs to every table from the start.
      exact (has _ (regular.idName_mem_columnNames stored)).replay kept
    · -- What the old version lacked is added.
      rcases builds.added record old column (List.mem_filterMap.mpr ⟨field, present, isColumn⟩) with
        before | ⟨statement, isNew, adds⟩
      · exact (has _ before).replay kept
      · refine hasColumn_replay_of_adds there ?_ adds kept
        rw [submitted]
        exact List.mem_append_right _ (List.mem_append_left _ (List.mem_append_left _ isNew))

/-- After a write every other model has its table with all columns of its revised definition. -/
theorem modelled_other (mirrors : schema.Mirrors tables catalog)
    (regular : catalog.store.Regular tables)
    (planned : (configuration.context catalog).planWrite (catalog.find? plan.definition.name)
      declared = .ok plan) {name : String} {before : Model}
    (stored : catalog.definition? name = some before) :
    (schema.replay plan.submitted).contains name = true ∧
      ∀ column ∈ ((WritePlan.sound_of_planWrite planned).after before).columnNames,
        (schema.replay plan.submitted).HasColumn name column := by
  -- The table was there and nothing drops it, so the columns are what matters.
  have kept := WritePlan.not_drops regular planned (mirrors.apart name (by rw [stored]; rfl))
  obtain ⟨there, has⟩ := mirrors.modelled name before stored
  have named := Catalog.name_of_definition? stored
  have sound := WritePlan.sound_of_planWrite planned
  refine ⟨contains_replay there kept, fun column listed => ?_⟩
  rcases Model.of_mem_columnNames listed with rfl | ⟨field, present, isColumn⟩
  · exact (has _ (regular.idName_mem_columnNames stored)).replay kept
  · by_cases isTarget : name ∈ plan.edits.map TargetEdit.target
    · -- The edit of a target adds the columns that the target lacked.
      obtain ⟨edit, isEdit, rfl⟩ := List.mem_map.mp isTarget
      rw [← sound.apply_edit isEdit named] at present
      have known : (configuration.context catalog).known.find? edit.target = some before := by
        rw [Configuration.find?_context, stored]
      rcases WritePlan.column_of_edit planned isEdit known present isColumn with
        old | ⟨statement, isNew, adds⟩
      · exact (has _ old).replay kept
      · exact hasColumn_replay_of_adds there
          (List.mem_append_right _ (List.mem_flatMap.mpr ⟨edit, isEdit, isNew⟩)) adds kept
    · rw [sound.after_eq_self (named.symm ▸ isTarget)] at present
      exact (has _ (Model.mem_columnNames present isColumn)).replay kept

/-- After a write every stored join table is there. -/
theorem joined_applied (mirrors : schema.Mirrors tables catalog)
    (regular : catalog.store.Regular tables)
    (planned : (configuration.context catalog).planWrite (catalog.find? plan.definition.name)
      declared = .ok plan) {joint : Joint}
    (joins : joint ∈ (catalog.applied plan now).store.joints) :
    (schema.replay plan.submitted).contains joint.table = true := by
  -- A table that is dropped is neither one of the new version nor shared with another model.
  have kept : ∀ statement ∈ plan.submitted, ¬statement.Drops joint.table := by
    rintro _ listed ⟨table, rfl, same⟩
    obtain ⟨old, oldJoins, -, isTable, -, others⟩ := WritePlan.exists_joint_of_drop planned listed
    obtain ⟨before, apart, unpaired⟩ := others now joint joins same.symm
    exact unpaired (regular.shared old oldJoins joint before (Ne.symm apart) (isTable.trans same))
  rcases Catalog.mem_joints_of_applied (WritePlan.sound_of_planWrite planned) joins with
    new | ⟨-, before, -⟩
  · -- A join table of the new version is declared with it.
    obtain ⟨drops, synthesis, columns, builds⟩ := WritePlan.exists_builds planned
    obtain ⟨statement, listed, named⟩ := builds.declares.joined _ new
    obtain ⟨⟨table, left, right, rfl, -⟩, -⟩ := builds.declares.joins statement listed
    have creates : (Statement.createJoinTable table left right).Creates joint.table := named
    refine contains_replay_of_creates ?_ creates kept
    rw [WritePlan.submitted, builds.statements]
    exact List.mem_append_left _ (List.mem_append_right _ listed)
  · exact contains_replay (mirrors.joined joint before) kept

/-- A write keeps the schema in step. -/
theorem applied (mirrors : schema.Mirrors tables catalog) (regular : catalog.store.Regular tables)
    (planned : (configuration.context catalog).planWrite (catalog.find? plan.definition.name)
      declared = .ok plan) (isModel : ¬tables plan.definition.name)
    (regularAfter : (catalog.applied plan now).store.Regular tables) :
    (schema.replay plan.submitted).Mirrors tables (catalog.applied plan now) := by
  have sound := WritePlan.sound_of_planWrite planned
  obtain ⟨own, ownStored, -⟩ := Catalog.definition?_applied_self sound now
  -- A write stores its own model and no other.
  have before : ∀ name, name ≠ plan.definition.name →
      ((catalog.applied plan now).definition? name).isSome = (catalog.definition? name).isSome := by
    intro name apart
    rw [Catalog.definition?_applied sound apart, Option.isSome_map]
  refine ⟨fun name there => ?_, fun name stored => ?_, fun name definition stored => ?_,
    fun joint joins => mirrors.joined_applied regular planned joins⟩
  · by_cases same : name = plan.definition.name
    · rw [same, ownStored]
      exact Or.inl rfl
    rcases of_contains_replay there with ⟨earlier, -⟩ | ⟨statement, listed, creates⟩
    · rw [before name same]
      exact mirrors.only name earlier
    · -- A join table that is created is stored, and so has a name that is for one.
      rcases WritePlan.of_creates planned listed creates with isOwn | isJoin
      · exact absurd isOwn same
      · rcases Catalog.of_definition?_applied sound ownStored with ⟨-, alike⟩ | ⟨apart, -⟩
        · have named := Catalog.name_of_definition? ownStored
          rw [← Model.joinTableNames_eq_of_outline_eq named alike] at isJoin
          obtain ⟨field, present, isTable⟩ := Model.mem_joinTableNames.mp isJoin
          exact Or.inr (regularAfter.named ⟨own.name, field, name⟩
            (Catalog.mem_joints_store.mpr ⟨own, named.symm ▸ ownStored, present, isTable⟩))
        · exact absurd rfl apart
  · -- The name of the model itself is for one, and other names were stored before.
    by_cases same : name = plan.definition.name
    · exact same ▸ isModel
    · exact mirrors.apart name (before name same ▸ stored)
  · -- A stored definition has the columns of its table, whether it was written or was there.
    rcases Catalog.of_definition?_applied sound stored with
      ⟨rfl, alike⟩ | ⟨-, earlier, found, rfl⟩
    · rw [Model.columnNames_eq_of_outline_eq alike]
      exact mirrors.modelled_self regular planned isModel
    · exact mirrors.modelled_other regular planned found

/-- Up to the declaration of its model a write needs only tables of stored models. -/
theorem stored_of_early
    (planned : (configuration.context catalog).planWrite (catalog.find? plan.definition.name)
      declared = .ok plan) {drops columns : List Statement} {synthesis : Synthesis}
    (builds : plan.Builds (configuration.context catalog) (catalog.find? plan.definition.name)
      drops synthesis columns) {statement : Statement}
    (listed : statement ∈ drops ++ [synthesis.table]) {name : String}
    (needed : name ∈ statement.needs) (outside : configuration.system.contains name = false) :
    (catalog.definition? name).isSome = true := by
  have inPlan : statement ∈ plan.submitted :=
    builds.submitted_eq ▸ List.mem_append_left _ listed
  rcases WritePlan.of_needs planned inPlan needed with isOwn | system | stored
  · -- A drop needs nothing, and a declaration does not count the table it creates.
    exfalso
    rcases List.mem_append.mp listed with drop | declaration
    · obtain ⟨table, rfl, -⟩ := builds.drops statement drop
      cases needed
    · obtain ⟨own, declaredColumns, isTable, named, -⟩ := builds.declares.table
      rw [List.mem_singleton, isTable] at declaration
      subst declaration
      have apart := (List.mem_filter.mp needed).2
      rw [bne_iff_ne, named] at apart
      exact apart isOwn
  · -- The name is that of no system model.
    rw [outside] at system
    cases system
  · exact stored

/-- The statements of a write find what they need. -/
theorem admits_write (mirrors : schema.Mirrors tables catalog)
    (regular : catalog.store.Regular tables)
    (planned : (configuration.context catalog).planWrite (catalog.find? plan.definition.name)
      declared = .ok plan) (isModel : ¬tables plan.definition.name) :
    schema.Admits configuration.system plan.submitted := by
  obtain ⟨drops, synthesis, columns, builds⟩ := WritePlan.exists_builds planned
  have submitted := builds.submitted_eq
  -- Nothing drops the table of the model or of one that is stored.
  have kept : ∀ name, name = plan.definition.name ∨ (catalog.definition? name).isSome = true →
      ∀ statement ∈ plan.submitted, ¬statement.Drops name := by
    rintro name (rfl | stored)
    · exact WritePlan.not_drops regular planned isModel
    · exact WritePlan.not_drops regular planned (mirrors.apart name stored)
  -- Every stored model has its table before the write.
  have there : ∀ name, (catalog.definition? name).isSome = true → schema.contains name = true := by
    intro name stored
    obtain ⟨definition, found⟩ := Option.isSome_iff_exists.mp stored
    exact (mirrors.modelled name definition found).1
  rw [submitted] at kept ⊢
  refine (admits_of_contains ?_).append (admits_of_contains ?_)
  · -- Up to the declaration only tables of stored models are needed, and these stay.
    intro statement listed name needed outside
    have stored := stored_of_early planned builds listed needed outside
    exact ⟨there name stored, fun other isOther =>
      kept name (Or.inr stored) other (List.mem_append_left _ isOther)⟩
  · -- Behind the declaration the model has its table as well.
    intro statement listed name needed outside
    have inPlan : statement ∈ plan.submitted := submitted ▸ List.mem_append_right _ listed
    have isModel : name = plan.definition.name ∨ (catalog.definition? name).isSome = true := by
      rcases WritePlan.of_needs planned inPlan needed with isOwn | system | stored
      · exact Or.inl isOwn
      · rw [outside] at system
        cases system
      · exact Or.inr stored
    have keptEarlier := fun other isOther =>
      kept name isModel other (List.mem_append_left _ isOther)
    refine ⟨?_, fun other isOther => kept name isModel other (List.mem_append_right _ isOther)⟩
    rcases isModel with rfl | stored
    · obtain ⟨own, declaredColumns, isTable, named, -⟩ := builds.declares.table
      have creates : synthesis.table.Creates plan.definition.name := by
        rw [isTable]
        exact named
      exact contains_replay_of_creates (List.mem_append_right _ List.mem_cons_self) creates
        keptEarlier
    · -- The table was there before, and it is kept.
      exact contains_replay (there name stored) keptEarlier

/-! ## Deleting -/

variable {deletion : DeletePlan} {name : String}

/-- A join table that is in use after a deletion stays, even if the deleted model took part in one
of its name. -/
theorem kept_of_deleted (symmetric : Symmetric configuration.system catalog.models)
    (regular : catalog.store.Regular tables) (planned : catalog.deletion name = .ok deletion)
    (isModel : ¬tables name) {joint : Joint}
    (left : joint ∈ (catalog.deleted name now).store.joints) :
    ∀ statement ∈ deletion.statements, ¬statement.Drops joint.table := by
  rintro _ listed ⟨table, rfl, same⟩
  obtain ⟨apart, -, before⟩ := Catalog.mem_joints_of_deleted left
  rcases DeletePlan.exists_own_joint_of_drop symmetric planned listed with
    isOwn | ⟨gone, joins, source, isTable⟩
  · exact absurd (regular.named joint before) (by rw [← same, isOwn]; exact isModel)
  · -- Models that share a table do so as counterparts, and none of them is left.
    have counterparts := regular.shared gone joins joint before
      (fun equal => apart (equal.symm.trans source)) (isTable.trans same)
    exact (DeletePlan.apart_of_deleted (Or.inl source) left).2 counterparts

/-- A deletion keeps the schema in step. -/
theorem deleted (mirrors : schema.Mirrors tables catalog)
    (symmetric : Symmetric configuration.system catalog.models)
    (regular : catalog.store.Regular tables) (planned : catalog.deletion name = .ok deletion)
    (isModel : ¬tables name) :
    (schema.replay deletion.statements).Mirrors tables (catalog.deleted name now) := by
  obtain ⟨record, stored, -⟩ := Catalog.fits_of_deletion planned
  -- The table of the deleted model is gone, since no statement brings it back.
  obtain ⟨own, isDropped, named⟩ : ∃ own, Statement.dropTable own ∈ deletion.statements ∧
      own.text = name := by
    rw [Catalog.deletion, stored] at planned
    obtain ⟨own, isDropped, named⟩ := DeletePlan.exists_drop_of_ofRecord planned
    exact ⟨own, isDropped, named.trans (Roster.name_of_find? stored)⟩
  -- A table of a model that is left is neither that of the deleted one nor a join table.
  have kept : ∀ other, (catalog.definition? other).isSome = true → other ≠ name →
      ∀ statement ∈ deletion.statements, ¬statement.Drops other := by
    rintro other there apart _ listed ⟨table, rfl, same⟩
    rcases DeletePlan.exists_joint_of_drop planned listed with isOwn | ⟨gone, joins, isTable, -⟩
    · exact apart (same.symm.trans isOwn)
    · exact mirrors.apart other there (same ▸ isTable ▸ regular.named gone joins)
  refine ⟨fun other there => ?_, fun other there => ?_, fun other definition left => ?_,
    fun joint left => ?_⟩
  · -- A table that is left was there before, since a deletion creates none.
    rcases of_contains_replay there with ⟨earlier, stays⟩ | ⟨statement, listed, creates⟩
    · refine (mirrors.only other earlier).imp (fun there => ?_) id
      have apart : other ≠ name := by
        rintro rfl
        exact stays _ isDropped ⟨own, rfl, named⟩
      rw [Catalog.definition?_deleted, if_neg apart, Option.isSome_map]
      exact there
    · obtain ⟨dropped, isDrop⟩ := DeletePlan.drops_of_mem planned listed
      exact absurd creates isDrop.not_creates
  · rw [Catalog.definition?_deleted] at there
    split at there
    · cases there
    · rw [Option.isSome_map] at there
      exact mirrors.apart other there
  · -- The columns of a stripped definition are among those it had before.
    obtain ⟨apart, before, found, rfl⟩ := Catalog.of_definition?_deleted left
    have stays := kept other (by rw [found]; rfl) apart
    obtain ⟨there, has⟩ := mirrors.modelled other before found
    refine ⟨contains_replay there stays, fun column listed => ?_⟩
    rcases Model.of_mem_columnNames listed with rfl | ⟨field, present, isColumn⟩
    · exact (has _ (regular.idName_mem_columnNames found)).replay stays
    · have inBefore := (List.mem_filter.mp present).1
      exact (has _ (Model.mem_columnNames inBefore isColumn)).replay stays
  · -- A join table that is left was in use before by the same field.
    obtain ⟨-, -, before⟩ := Catalog.mem_joints_of_deleted left
    exact contains_replay (mirrors.joined joint before)
      (kept_of_deleted symmetric regular planned isModel left)

end Schema.Mirrors

/-- The statements of a deletion need nothing. -/
theorem Schema.admits_delete {name : String} {plan : DeletePlan} {system : SystemModels}
    (planned : catalog.deletion name = .ok plan) : schema.Admits system plan.statements := by
  -- Drops do not refer to anything.
  refine admits_of_contains fun statement listed other needed => ?_
  obtain ⟨_, _, rfl, -⟩ := DeletePlan.drops_of_mem planned listed
  cases needed

end ModelCatalog
