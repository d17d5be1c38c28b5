import ModelCatalog.Proofs.Formation
import ModelCatalog.Proofs.PlainFields
import ModelCatalog.Proofs.PlannedStatements
import ModelCatalog.Proofs.RedactedRelations
import ModelCatalog.Relation.DeletePlan
import ModelCatalog.Relation.RepairPlan

/-! Redacted plans: what is planned for definitions without their texts is what is planned for the
definitions, without the texts. -/

namespace ModelCatalog

open WritePlan

/-- The record, with an empty text for every text. -/
def Record.redacted (record : Record) : Record :=
  { record with definition := record.definition.redacted }

/-- A column is added alike with and without texts. -/
theorem Statement.addColumnTo_redacted (table : String) (column : Column) :
    addColumnTo table column.redacted = (addColumnTo table column).map redacted := by
  -- The statement is made where the name of the table is one.
  unfold addColumnTo
  cases Identifier.check table <;> rfl

/-- The statement for the column of a field goes along with redaction. -/
theorem Context.columnStatement_redacted (context : Context) (table : String) (model : Model)
    (field : Field) :
    (do
      match ← context.redacted.column model.redacted field.redacted with
      | some column => return some (← Statement.addColumnTo table column)
      | none => return none : Except Error (Option Statement)) =
    (do
      match ← context.column model field with
      | some column => return some (← Statement.addColumnTo table column)
      | none => return none : Except Error (Option Statement)).map
        (Option.map Statement.redacted) := by
  -- Where the field has a column, the statement for it is that for the redacted column.
  rw [column_redacted, Outcome.bind_map, Outcome.map_bind]
  refine Outcome.bind_congr_of_ok fun compiled _ => ?_
  cases compiled with
  | none => rfl
  | some column =>
    simp only [Option.map_some, Statement.addColumnTo_redacted, Outcome.bind_map, Outcome.map_bind]
    rfl

/-! ## Edits -/

namespace TargetEdit

variable (source target before : Model) (edit : TargetEdit)

/-- The edit, with an empty text for every text in its statements. -/
def redacted (edit : TargetEdit) : TargetEdit :=
  { edit with columns := edit.columns.map Statement.redacted }

/-- What collides does not depend on texts. -/
theorem checkCollisions_redacted (insertions : List Insertion) :
    checkCollisions source.redacted target.redacted insertions =
      checkCollisions source target insertions := by
  -- Whether one insertion collides is asked of names and relations, which have no texts.
  have each : ∀ insertion, collision source.redacted target.redacted insertion =
      collision source target insertion := by
    intro insertion
    unfold collision
    simp only [Model.field?_redacted]
    cases target.field? insertion.counterpart.name with
    | none => rfl
    | some existing =>
      simp only [Option.map_some, Field.relation?_redacted, Model.name_redacted, Option.any_map,
        Field.targets_redacted]
  induction insertions with
  | nil => rfl
  | cons first rest ih => simp only [checkCollisions, each, ih, Model.name_redacted]

/-- An edit goes along with redaction when its counterparts have no texts. -/
theorem apply_redacted (source : String)
    (plain : ∀ insertion ∈ edit.insertions, insertion.counterpart.redacted =
      insertion.counterpart) :
    (edit.apply source target.redacted).1 = (edit.apply source target).1.redacted := by
  -- The removals come first, and on them the insertions, both one by one.
  have removals : ∀ (removals : List Removal) (reached : Model),
      applyRemovals source reached.redacted removals =
        (applyRemovals source reached removals).redacted := by
    intro removals
    induction removals with
    | nil => exact fun _ => rfl
    -- A removal looks at outlines.
    | cons first rest ih =>
      intro reached
      refine Eq.trans ?_ (ih _)
      simp only [applyRemovals, List.foldl_cons, Model.removeCounterpart_redacted]
  have insertions : ∀ (insertions : List Insertion) (reached : Model),
      (∀ insertion ∈ insertions, insertion.counterpart.redacted = insertion.counterpart) →
      (applyInsertions source reached.redacted insertions).1 =
        (applyInsertions source reached insertions).1.redacted := by
    intro insertions
    induction insertions with
    | nil => exact fun _ _ => rfl
    -- An insertion puts a counterpart in place that is the same with and without its texts.
    | cons first rest ih =>
      intro reached plain
      have placed := reached.upsertCounterpart_redacted source first.field first.counterpart
      rw [plain first List.mem_cons_self] at placed
      have after := ih (reached.upsertCounterpart source first.field first.counterpart).target
        fun insertion later => plain insertion (List.mem_cons_of_mem _ later)
      simpa only [applyInsertions, placed] using after
  simp only [apply, removals]
  exact insertions _ _ plain

/-- Whether an edited target fits does not depend on texts. -/
theorem checkFit_redacted (source : String) :
    checkFit source target.redacted = checkFit source target := by
  -- Names and columns of a field are all that is taken.
  have each : ∀ (taken : Taken) (field : Field),
      checkFieldFits source target.name taken field.redacted =
        checkFieldFits source target.name taken field := by
    intro taken field
    cases kind : field.kind <;>
      simp [checkFieldFits, Field.redacted, Field.columnName?, kind]
  simp only [checkFit, Model.fields_redacted, Model.name_redacted, List.foldlM_map, each]

/-- The statement for the column of a counterpart goes along with redaction. -/
theorem columnFor_redacted (context : Context) (source : String) (before after : Model)
    (insertion : Insertion) :
    columnFor context.redacted source before.redacted after.redacted insertion =
      (columnFor context source before after insertion).map (Option.map Statement.redacted) := by
  have placed : (do
      let index ← after.redacted.counterpartIndex? source insertion.field insertion.counterpart.name
      after.redacted.fields[index]?) =
      (do
        let index ← after.counterpartIndex? source insertion.field insertion.counterpart.name
        after.fields[index]?).map Field.redacted := by
    -- The counterpart stands at the same place in both versions, and brings the same column.
    rw [Model.counterpartIndex?_redacted]
    cases after.counterpartIndex? source insertion.field insertion.counterpart.name <;> simp
  unfold columnFor
  dsimp only
  rw [placed]
  cases (do
      let index ← after.counterpartIndex? source insertion.field insertion.counterpart.name
      after.fields[index]?) with
  | none => rfl
  | some field =>
    simp only [Option.map_some, Field.columnName?_redacted, Model.columnNames_redacted]
    split
    · exact context.columnStatement_redacted before.name after field
    · rfl

/-- Completing an edit goes along with redaction when its counterparts have no texts. -/
theorem complete_redacted (context : Context)
    (plain : ∀ insertion ∈ edit.insertions, insertion.counterpart.redacted =
      insertion.counterpart) :
    edit.complete context.redacted source.redacted before.redacted =
      (edit.complete context source before).map redacted := by
  have columns := @Outcome.mapM_result _ _ _ _ _ _ _ edit.insertions fun insertion _ =>
    columnFor_redacted context source.name before (edit.apply source.name before).1 insertion
  -- One check after the other passes alike, and then the columns are made.
  unfold complete
  simp only [checkCollisions_redacted, Model.name_redacted, apply_redacted _ _ _ plain,
    checkFit_redacted]
  rw [Outcome.map_bind]
  refine Outcome.bind_congr_of_ok fun _ _ => ?_
  rw [Outcome.map_bind]
  refine Outcome.bind_congr_of_ok fun _ _ => ?_
  rw [columns, Outcome.bind_map, Outcome.map_bind]
  refine Outcome.bind_congr_of_ok fun made _ => ?_
  rw [filterMap_id_map]
  rfl

end TargetEdit

namespace WritePlan

variable (context : Context) (old : Option Record) (source model : Model)

/-- What changes in the relations does not depend on texts. -/
theorem changes_redacted (system : SystemModels) (resolved : Model) :
    (changes system (old.map Record.redacted) resolved.redacted).obsoleteTables =
        (changes system old resolved).obsoleteTables ∧
      (changes system (old.map Record.redacted) resolved.redacted).removed =
        (changes system old resolved).removed.map Field.redacted := by
  -- Relations are compared by names and by what they lead to.
  have fields : ∀ model : Model, RelationChange.relationFields model.redacted =
      (RelationChange.relationFields model).map Field.redacted := by
    intro model
    simp [RelationChange.relationFields, Model.relations_redacted]
  have same : ∀ one other : Field,
      RelationChange.isSame one.redacted other.redacted = RelationChange.isSame one other := by
    intro one other
    simp [RelationChange.isSame]
  -- A first version removes nothing and leaves no table behind.
  cases old with
  | none => exact ⟨rfl, rfl⟩
  | some record =>
    constructor
    · -- Tables are told by names.
      simp [changes, RelationChange.between, RelationChange.obsolete, Record.redacted,
        Model.relations_redacted, List.filterMap_map, Function.comp_def]
    · -- Removed fields are told by comparison, and redacted like all others.
      simp [changes, RelationChange.between, Record.redacted, fields, List.filter_map, same,
        Function.comp_def]

/-- The edits for the targets of a write do not depend on texts. -/
theorem drafts_redacted (removed : List Field) :
    drafts context.redacted source.redacted (removed.map Field.redacted) =
      drafts context source removed := by
  -- Both lists are read off the relations, which redaction keeps.
  have gone : removals context.redacted source.name (removed.map Field.redacted) =
      removals context source.name removed := by
    simp [removals, List.filterMap_map, Context.redacted]
  have put : insertions context.redacted source.redacted = insertions context source := by
    simp only [insertions, Model.fields_redacted, List.filterMap_map, Function.comp_def,
      Field.relation?_redacted, Field.counterpart?_redacted]
    rfl
  simp only [drafts, Model.name_redacted, gone, put]

/-- The edits of a plan go along with redaction. -/
theorem propagation_redacted (after : Context) (removed : List Field) :
    propagation context.redacted after.redacted source.redacted (removed.map Field.redacted) =
      (propagation context after source removed).map (List.map TargetEdit.redacted) := by
  unfold propagation
  rw [drafts_redacted]
  refine Outcome.mapM_result fun edit listed => ?_
  -- A draft has no statements yet, and its counterparts are made without texts.
  rw [(of_mem_drafts listed).1]
  have plain : ∀ insertion ∈ (draft context source removed edit.target).insertions,
      insertion.counterpart.redacted = insertion.counterpart := by
    intro insertion inserted
    obtain ⟨field, -, relation, -, -, -, rfl⟩ :=
      mem_insertions.mp (mem_insertions_draft.mp inserted)
    exact Field.redacted_ofRelation _ _
  rw [show context.redacted.known.find? _ = _ from Models.find?_redacted _ _]
  cases context.known.find? (draft context source removed edit.target).target with
  | none => rfl
  | some before => exact TargetEdit.complete_redacted source before _ after plain

/-- New columns are added by the statements for the columns of fields. -/
theorem newColumns_eq (before : Model) : newColumns context before model = (do
    -- The statements are made one by one and those that are there are kept.
    let statements ← (model.fieldsWithNewColumns before).mapM
      (RepairPlan.columnStatement context model)
    return statements.filterMap id) := rfl

/-- The statements for new columns go along with redaction. -/
theorem newColumns_redacted (before : Model) :
    newColumns context.redacted before.redacted model.redacted =
      (newColumns context before model).map (List.map Statement.redacted) := by
  -- Each column is made for the same field, whose statement goes along with redaction.
  have columns := @Outcome.mapM_map _ _ _ _ _ Field.redacted _
    (RepairPlan.columnStatement context model)
    (RepairPlan.columnStatement context.redacted model.redacted)
    (model.fieldsWithNewColumns before) fun field _ =>
      context.columnStatement_redacted model.name model field
  rw [newColumns_eq, newColumns_eq, Model.fieldsWithNewColumns_redacted, columns, Outcome.bind_map,
    Outcome.map_bind]
  refine Outcome.bind_congr_of_ok fun made _ => ?_
  rw [filterMap_id_map]
  rfl

/-- The columns of a new version go along with redaction. -/
theorem ownColumns_redacted (old : Option Model) :
    ownColumns context.redacted (old.map Model.redacted) model.redacted =
      (ownColumns context old model).map (List.map Statement.redacted) := by
  cases old with
  -- A first version has no columns to add.
  | none => rfl
  -- A later one has those that differ from the version before.
  | some before => exact newColumns_redacted context model before

end WritePlan

/-! ## Validity -/

/-- The options of every choice differ. -/
def Model.DistinctOptions (model : Model) : Prop :=
  ∀ field ∈ model.fields, ∀ options, field.kind = .choice options → options.Nodup

/-- Whether options differ is a matter of the plain fields. -/
theorem Model.DistinctOptions.of_plain {model other : Model} (distinct : model.DistinctOptions)
    (same : other.plain = model.plain) : other.DistinctOptions := by
  -- A choice is a plain field, and the plain fields are the same.
  intro field present options kind
  have plain : field ∈ model.plain := by
    rw [← same]
    exact List.mem_filter.mpr ⟨present, by simp [Field.isPlain, Field.relation?, kind]⟩
  exact distinct field (List.mem_filter.mp plain).1 options kind

section

variable {system : SystemModels} {known later : Models} {model twin : Model}

/-- A default without its texts is as finite as it was. -/
theorem Field.finite_redacted {field : Field} : field.redacted.Finite ↔ field.Finite := by
  -- Only a text default is redacted, and texts are finite.
  rcases held : field.default with _ | (_ | _ | number | _ | _) <;>
    simp [Finite, redacted, held, DefaultValue.redacted]

/-- Fields that are the same but for texts have as many options. -/
theorem Field.options_of_redacted {field twin : Field} (same : field.redacted = twin.redacted)
    {options : List String} (kind : twin.kind = .choice options) :
    ∃ others, field.kind = .choice others ∧ others.length = options.length := by
  -- A choice is redacted to one with as many options.
  have kinds := congrArg Field.kind same
  cases own : field.kind <;> simp_all [redacted]

/-- The key of a definition is in place with or without texts. -/
theorem Model.keyed_redacted {model : Model} : model.redacted.Keyed ↔ model.Keyed := by
  -- Neither the names of fields nor which of them are primary keys depend on texts.
  simp [Keyed]

/-- A field that is the same but for texts is formed when its options differ. -/
theorem Field.Formed.of_redacted {name : String} {field twin : Field}
    (formed : field.Formed system known name) (same : field.redacted = twin.redacted)
    (there : ∀ name, known.contains name = true → later.contains name = true)
    (distinct : ∀ options, twin.kind = .choice options → options.Nodup) :
    twin.Formed system later name := by
  have named : field.name = twin.name := by simpa using congrArg Field.name same
  have related : field.relation? = twin.relation? := by
    rw [← relation?_redacted, same, relation?_redacted]
  have moved := formed.of_known fun relation _ => there relation.target
  -- What the rules ask of a field is asked of what redaction keeps, except that options differ.
  refine ⟨named ▸ formed.name, finite_redacted.mp (same ▸ finite_redacted.mpr formed.finite),
    fun options kind => ⟨?_, distinct options kind⟩,
    fun relation isRelation => named ▸ moved.relation relation (related ▸ isRelation)⟩
  -- A choice keeps the number of its options, which is not zero.
  obtain ⟨others, own, alike⟩ := options_of_redacted same kind
  have some_option := (formed.options others own).1
  rw [ne_eq, ← List.length_eq_zero_iff] at some_option ⊢
  rwa [← alike]

/-- A definition that is the same but for texts is valid when the options of its choices differ. -/
theorem Model.validate_of_redacted (same : model.redacted = twin.redacted)
    (known_same : known.redacted = later.redacted) (distinct : twin.DistinctOptions)
    (valid : model.validate system known = .ok ()) : twin.validate system later = .ok () := by
  obtain ⟨formed, keyed⟩ := validate_eq_ok.mp valid
  have named : model.name = twin.name := by simpa using congrArg Model.name same
  have there : ∀ name, known.contains name = true → later.contains name = true := by
    intro name
    rw [← Models.contains_redacted, known_same, Models.contains_redacted]
    exact id
  -- What the rules ask of the fields together is asked of them without their texts.
  have names := congrArg (fun model => model.fields.map Field.name) same
  have columns := congrArg (fun model => model.fields.filterMap Field.columnName?) same
  have keys := congrArg (fun model => (model.fields.filter Field.isKey).length) same
  simp only [fields_redacted, List.map_map, List.filterMap_map, List.filter_map, List.length_map,
    Function.comp_def, Field.name_redacted, Field.columnName?_redacted,
    Field.isKey_redacted] at names columns keys
  refine validate_eq_ok.mpr ⟨⟨named ▸ formed.name, fun field present => ?_, ?_, ?_, ?_⟩,
    keyed_redacted.mp (same ▸ keyed_redacted.mpr keyed)⟩
  · -- For every field there is one that is the same but for texts.
    have listed : field.redacted ∈ model.redacted.fields := by
      rw [same]
      exact List.mem_map_of_mem present
    obtain ⟨other, isOther, alike⟩ := List.mem_map.mp listed
    exact named ▸ (formed.fields other isOther).of_redacted alike there (distinct field present)
  · exact names ▸ formed.names
  · exact columns ▸ formed.columns
  · exact keys ▸ formed.oneKey

/-- Contexts are the same but for texts when the system models are and the known models are but for
texts. -/
theorem Context.redacted_eq_iff {context other : Context} : context.redacted = other.redacted ↔
    context.system = other.system ∧ context.known.redacted = other.known.redacted := by
  -- Both parts are compared apart.
  simp [redacted]

/-- A definition that is the same but for texts is compiled into the same statements but for
texts, when the options of its choices differ. -/
theorem Context.exists_synthesize_of_redacted {context other : Context}
    (same : model.redacted = twin.redacted) (sameContext : context.redacted = other.redacted)
    (distinct : twin.DistinctOptions) {synthesis : Synthesis}
    (done : context.synthesize model = .ok synthesis) :
    ∃ again, other.synthesize twin = .ok again ∧ again.redacted = synthesis.redacted := by
  obtain ⟨systems, knownSame⟩ := redacted_eq_iff.mp sameContext
  -- Validation and compilation agree apart, and only validation looks at the options.
  rw [synthesize_eq, Outcome.unit_bind_eq_ok] at done
  have compiled : (context.compile model).map Synthesis.redacted =
      (other.compile twin).map Synthesis.redacted := by
    rw [← compile_redacted, ← compile_redacted, same, sameContext]
  obtain ⟨again, made, alike⟩ := Outcome.exists_of_map_eq compiled done.2
  have valid := Model.validate_of_redacted same knownSame distinct done.1
  rw [systems] at valid
  exact ⟨again, by rw [synthesize_eq, Outcome.unit_bind_eq_ok]; exact ⟨valid, made⟩, alike⟩

end

/-! ## Whole plans -/

/-- Statements of edits without their texts. -/
theorem TargetEdit.flatMap_columns_redacted (edits : List TargetEdit) :
    (edits.map redacted).flatMap columns = (edits.flatMap columns).map Statement.redacted := by
  -- The statements lie one level below the edits and are reached one list after the other.
  simp [redacted, List.flatMap_map, List.map_flatMap]

/-- Where everything is the same but for texts, and the options of choices differ, a write is
planned by the same statements but for texts. -/
theorem Context.exists_planWrite_of_redacted {context other : Context} {old older : Option Record}
    {model twin : Model} (sameContext : context.redacted = other.redacted)
    (sameOld : old.map Record.redacted = older.map Record.redacted)
    (same : model.redacted = twin.redacted) (distinct : twin.DistinctOptions) {plan : WritePlan}
    (planned : context.planWrite old model = .ok plan) :
    ∃ again, other.planWrite older twin = .ok again ∧
      again.submitted.map Statement.redacted = plan.submitted.map Statement.redacted := by
  obtain ⟨resolved, drops, synthesis, columns, edits, valid, done, resolvedValid, dropped, made,
    added, propagated, rfl⟩ := planWrite_eq_ok.mp planned
  obtain ⟨systems, knownSame⟩ := redacted_eq_iff.mp sameContext
  have before : (old.map Record.definition).map Model.redacted =
      (older.map Record.definition).map Model.redacted := by
    have definitions := congrArg (Option.map Record.definition) sameOld
    simpa [Record.redacted, Function.comp_def] using definitions
  -- Both versions are resolved to definitions that are the same but for texts.
  obtain ⟨again, resolvedAgain, alike⟩ := Outcome.exists_of_map_eq
    (show (context.resolve _ model).map Model.redacted =
        (other.resolve (older.map Record.definition) twin).map Model.redacted by
      rw [← resolve_redacted, ← resolve_redacted, sameContext, before, same]) done
  have afterSame : (context.withModel resolved).redacted = (other.withModel again).redacted := by
    simp only [redacted, withModel, Models.redacted_insert, knownSame, systems, alike]
  -- The options of the resolved definition are those of the declared one.
  have distinctAgain := distinct.of_plain (plain_of_resolve resolvedAgain)
  -- Each part of the plan is made of what is the same but for texts.
  have changed := changes_redacted old context.system resolved
  have changedAgain := changes_redacted older other.system again
  rw [← sameOld, alike, ← systems] at changedAgain
  have tables := changedAgain.1.symm.trans changed.1
  have removed := changedAgain.2.symm.trans changed.2
  obtain ⟨synthesisAgain, madeAgain, synthesized⟩ :=
    exists_synthesize_of_redacted alike.symm afterSame distinctAgain made
  obtain ⟨columnsAgain, addedAgain, columnsAlike⟩ := Outcome.exists_of_map_eq
    (show (ownColumns _ _ resolved).map (List.map Statement.redacted) =
        (ownColumns (other.withModel again) (older.map Record.definition) again).map
          (List.map Statement.redacted) by
      rw [← ownColumns_redacted, ← ownColumns_redacted, afterSame, before, alike]) added
  obtain ⟨editsAgain, propagatedAgain, editsAlike⟩ := Outcome.exists_of_map_eq
    (show (propagation context _ resolved _).map (List.map TargetEdit.redacted) =
        (propagation other (other.withModel again) again
          (changes other.system older again).removed).map (List.map TargetEdit.redacted) by
      rw [← propagation_redacted, ← propagation_redacted, sameContext, afterSame, alike, ← systems,
        removed]) propagated
  refine ⟨_, planWrite_eq_ok.mpr ⟨again, drops, synthesisAgain, columnsAgain, editsAgain, ?_,
    resolvedAgain, ?_, ?_, madeAgain, addedAgain, propagatedAgain, rfl⟩, ?_⟩
  · exact systems ▸ Model.validate_of_redacted same knownSame distinct valid
  · exact systems ▸ Model.validate_of_redacted alike.symm knownSame distinctAgain resolvedValid
  · -- The same tables are dropped.
    rw [← systems, tables]
    exact dropped
  · -- The statements of the plan are put together from these parts.
    have parts := Synthesis.mk.injEq .. ▸ synthesized
    have columnsOf := congrArg (List.flatMap TargetEdit.columns) editsAlike
    rw [TargetEdit.flatMap_columns_redacted, TargetEdit.flatMap_columns_redacted] at columnsOf
    simp only [submitted, List.map_append, List.map_cons, columnsAlike, columnsOf, parts.1, parts.2]

/-- A deletion is planned alike whatever the texts are. -/
theorem DeletePlan.ofRecord_redacted (known : Models) (record : Record) :
    ofRecord known.redacted record.redacted = ofRecord known record := by
  -- The plan is made of names alone, so each part that it is made of is the same.
  have referring : ∀ name, referencingModels known.redacted name =
      (referencingModels known name).map Model.redacted := by
    intro name
    simp [referencingModels, List.filter_map, Model.references, Function.comp_def]
  have joins : ∀ (model : Model) (target : String),
      joinTablesTo model.redacted target = joinTablesTo model target := by
    intro model target
    simp [joinTablesTo, Model.relations_redacted, List.filterMap_map, Function.comp_def]
  have tables : joinTables known.redacted record.definition.redacted =
      joinTables known record.definition := by
    simp [joinTables, referring, List.flatMap_map, joins]
  simp [ofRecord, Record.redacted, tables, referring, Function.comp_def]

end ModelCatalog
