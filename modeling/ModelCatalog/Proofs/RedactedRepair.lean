import ModelCatalog.Proofs.PlannedLiterals
import ModelCatalog.Proofs.Reapplication
import ModelCatalog.Proofs.RedactedPlans

/-! Redacted repairs: a repair makes of definitions without their texts what it makes of the
definitions, without the texts. -/

namespace ModelCatalog

open RepairPlan

variable (system : SystemModels)

/-! ## The order of tables -/

namespace TableOrder

/-- The tables that those of a model refer to do not depend on texts. -/
theorem dependencies_redacted (models : Models) (model : Model) :
    dependencies system models.redacted model.redacted = dependencies system models model := by
  -- Only the names of the models and their relations are asked.
  simp [dependencies, Model.relations_redacted, List.filterMap_map]

/-- The order of tables does not depend on texts. -/
theorem tableOrder_redacted (models : Models) :
    models.redacted.tableOrder system = models.tableOrder system := by
  -- The order is found in rounds, and in each round the same models are free to be placed.
  have arranged : ∀ (rounds : Nat) (left : List Model) (placed : List String),
      arrange (dependencies system models.redacted) rounds (left.map Model.redacted) placed =
        arrange (dependencies system models) rounds left placed := by
    intro rounds
    induction rounds with
    | zero => exact fun _ _ => rfl
    | succ rounds ih =>
      intro left placed
      simp only [arrange, List.filter_map, Function.comp_def, dependencies_redacted,
        List.isEmpty_map, ← List.map_take, ← apply_ite (List.map Model.redacted), List.map_map,
        Model.name_redacted, ih]
  unfold Models.tableOrder
  rw [← arranged]
  simp [Roster.size]

end TableOrder

/-! ## Repairs -/

namespace RepairPlan

/-- The models on their way are those without texts. -/
def Follows (progress other : Progress) : Prop := other.models = Models.redacted progress.models

variable {system}

/-- What each step keeps of two repairs is kept by all of them. -/
theorem Follows.foldl {step : Progress → String → Progress}
    (each : ∀ {progress other}, Follows progress other → ∀ name,
      Follows (step progress name) (step other name))
    {progress other : Progress} (follows : Follows progress other) (names : List String) :
    Follows (names.foldl step progress) (names.foldl step other) := by
  -- The two repairs stay side by side through every step.
  induction names generalizing progress other with
  | nil => exact follows
  | cons first rest ih => exact ih (each follows first)

/-- Pruning goes along with redaction. -/
theorem follows_pruneAll (scanned : Models) (report later : RepairReport) :
    Follows (pruneAll system scanned report) (pruneAll system scanned.redacted later) := by
  -- Name by name, the same fields lead somewhere and are kept.
  refine Roster.eq_of_find? fun name => ?_
  have leads : ∀ (model : String) (field : Field),
      leadsSomewhere system scanned.redacted model field.redacted =
        leadsSomewhere system scanned model field := by
    intro model field
    simp [leadsSomewhere]
  rw [find?_pruneAll, Models.find?_redacted, Models.find?_redacted, find?_pruneAll, Option.map_map,
    Option.map_map]
  refine congrArg (Option.map · _) (funext fun model => ?_)
  simp [prune, Model.redacted, List.filter_map, leads, Function.comp_def]

/-- Resolving one model goes along with redaction. -/
theorem Follows.resolveOne {progress other : Progress} (follows : Follows progress other)
    (name : String) :
    Follows (resolveOne system progress name) (resolveOne system other name) := by
  -- A model is resolved among those that progress has reached, which are the same but for texts.
  unfold RepairPlan.resolveOne
  rw [follows, Models.find?_redacted]
  cases progress.models.find? name with
  | none => exact follows
  | some model =>
    have same := Context.resolve_redacted ⟨system, progress.models⟩ (some model) model
    simp only [Context.redacted, Option.map_some] at same ⊢
    rw [same]
    cases Context.resolve ⟨system, progress.models⟩ (some model) model with
    | error => exact follows
    | ok resolved => exact (Models.redacted_insert _ _).symm

/-- Which relations await their counterparts does not depend on texts. -/
theorem awaits_redacted {models : Models} {name fieldName : String} {relation : Relation}
    {later : Field} {changed : Model} :
    Awaits system models.redacted name fieldName later relation changed ↔
      ∃ field target, Awaits system models name fieldName field relation target ∧
        later = field.redacted ∧ changed = target.redacted := by
  -- Whether a field bars another one is asked of names and relations alone.
  have bars : ∀ (target : Model) (name counterpart : String),
      target.redacted.bars name counterpart = target.bars name counterpart := by
    intro target name counterpart
    simp [Model.bars, Option.any_map]
  constructor
  · -- What is found under a name without texts was found there with them.
    rintro ⟨⟨_, found, named⟩, related, out, reached, free⟩
    rw [Models.find?_redacted] at found reached
    obtain ⟨source, isSource, rfl⟩ := Option.map_eq_some_iff.mp found
    obtain ⟨target, isTarget, rfl⟩ := Option.map_eq_some_iff.mp reached
    rw [Model.field?_redacted] at named
    obtain ⟨field, isField, rfl⟩ := Option.map_eq_some_iff.mp named
    refine ⟨field, target, ⟨⟨source, isSource, isField⟩, ?_, out, isTarget, ?_⟩, rfl, rfl⟩
    · rwa [Field.relation?_redacted] at related
    · rwa [Field.counterpartName_redacted, bars] at free
  · -- Conversely each of the parts is found without its texts.
    rintro ⟨field, target, ⟨⟨source, found, isField⟩, related, out, isTarget, free⟩, rfl, rfl⟩
    refine ⟨⟨source.redacted, ?_, ?_⟩, ?_, out, ?_, ?_⟩
    · rw [Models.find?_redacted, found, Option.map_some]
    · rw [Model.field?_redacted, isField, Option.map_some]
    · rw [Field.relation?_redacted, related]
    · rw [Models.find?_redacted, isTarget, Option.map_some]
    · rw [Field.counterpartName_redacted, bars, free]

/-- Mending one relation goes along with redaction. -/
theorem Follows.mendField {progress other : Progress} (follows : Follows progress other)
    (name fieldName : String) :
    Follows (mendField system name progress fieldName) (mendField system name other fieldName) := by
  -- On both sides the same relations await their counterparts, so either both are mended or none.
  by_cases awaited : ∃ field relation target,
      Awaits system progress.models name fieldName field relation target
  · -- What is put in place has no texts.
    obtain ⟨field, relation, target, awaits⟩ := awaited
    have awaitsToo := awaits_redacted.mpr ⟨field, target, awaits, rfl, rfl⟩
    rw [← show other.models = _ from follows] at awaitsToo
    rw [mendField_of_awaits awaits, mendField_of_awaits awaitsToo]
    have placed := target.upsertCounterpart_redacted name field.name
      (WritePlan.insertionOf name field relation).counterpart
    have plain : (WritePlan.insertionOf name field relation).counterpart.redacted =
        (WritePlan.insertionOf name field.redacted relation).counterpart := by
      simp [WritePlan.insertionOf]
    rw [plain] at placed
    simp only [Follows, placing, Models.redacted_insert, Field.name_redacted, placed,
      show other.models = _ from follows]
  · rw [mendField_of_not_awaits fun field relation target awaits =>
      awaited ⟨field, relation, target, awaits⟩, mendField_of_not_awaits]
    · exact follows
    · intro later relation changed awaits
      rw [show other.models = _ from follows] at awaits
      obtain ⟨field, target, awaits, -, -⟩ := awaits_redacted.mp awaits
      exact awaited ⟨field, relation, target, awaits⟩

/-- Mending one model goes along with redaction. -/
theorem Follows.mendOne {progress other : Progress} (follows : Follows progress other)
    (name : String) :
    Follows (mendOne system progress name) (mendOne system other name) := by
  unfold RepairPlan.mendOne
  rw [follows, Models.find?_redacted]
  cases progress.models.find? name with
  | none => exact follows
  | some model =>
    have names : model.redacted.relations.map (fun pair => pair.1.name) =
        model.relations.map fun pair => pair.1.name := by
      simp [Model.relations_redacted, Function.comp_def]
    simp only [Option.map_some, names]
    -- The same relations are mended, one after the other.
    exact Follows.foldl (fun follows fieldName => follows.mendField name fieldName) follows _

/-- A repair goes along with redaction. -/
theorem repair_redacted (scanned : Models) (report later : RepairReport) :
    (repair system scanned.redacted later).models =
      Models.redacted (repair system scanned report).models := by
  -- Pruning, resolving and mending follow one another, and each goes along with redaction.
  unfold repair
  rw [Models.names_redacted]
  exact Follows.foldl (fun follows name => follows.mendOne name)
    (Follows.foldl (fun follows name => follows.resolveOne name)
      (follows_pruneAll scanned report later) _) _

/-! ## Statements -/

/-- The columns that a definition lacks are added by the statements for new columns. -/
theorem missingColumnsOf_eq (context : Context) (scanned : Models) (model : Model) :
    missingColumnsOf context scanned model =
      match scanned.find? model.name with
      | none => .ok []
      | some before => WritePlan.newColumns context before model := by
  unfold missingColumnsOf
  cases scanned.find? model.name with
  -- A model that was not there gets no columns.
  | none => rfl
  | some before =>
    dsimp only
    split
    · -- Definitions that equal each other have the same columns.
      rename_i same
      have columns := Model.columnNames_eq_of_outline_eq (Model.outline_eq_of_sameAs same)
      have nothing : model.fieldsWithNewColumns before = [] := by
        refine List.filter_eq_nil_iff.mpr fun field present => ?_
        cases named : field.columnName? with
        | none => simp
        | some column => simpa [columns] using Model.mem_columnNames present named
      rw [WritePlan.newColumns_eq, nothing]
      rfl
    · -- Definitions that differ are compared column by column.
      rfl

/-- The statements for missing columns go along with redaction. -/
theorem missingColumns_redacted (scanned repaired : Models) :
    missingColumns system scanned.redacted repaired.redacted =
      (missingColumns system scanned repaired).map (List.map Statement.redacted) := by
  -- Model by model the same fields lack columns.
  have each : ∀ model ∈ repaired.members,
      missingColumnsOf ⟨system, repaired.redacted⟩ scanned.redacted model.redacted =
        (missingColumnsOf ⟨system, repaired⟩ scanned model).map (List.map Statement.redacted) := by
    intro model _
    rw [missingColumnsOf_eq, missingColumnsOf_eq, Model.name_redacted, Models.find?_redacted]
    cases scanned.find? model.name with
    | none => rfl
    | some before => exact WritePlan.newColumns_redacted ⟨system, repaired⟩ model before
  unfold missingColumns
  rw [Models.members_redacted, Outcome.mapM_map each, Outcome.bind_map, Outcome.map_bind]
  refine Outcome.bind_congr_of_ok fun parts _ => ?_
  exact congrArg Except.ok List.map_flatten.symm

/-- The statements of one model when all are applied again, with an empty text for every text. -/
def Reapplied.redacted (part : Reapplied) : Reapplied where
  table := part.table.redacted
  columns := part.columns.map Statement.redacted
  joinTables := part.joinTables.map Statement.redacted

/-- The statements of one model when all are applied again, whether it is valid or not. -/
def reapplyPart (context : Context) (model : Model) : Except Error Reapplied := do
  let synthesis ← context.compile model
  let others := model.fields.filter fun field => field.name != idName && !field.isKey
  let columns ← others.mapM (columnStatement context model)
  return {
    table := synthesis.table
    columns := columns.filterMap id
    joinTables := synthesis.joinTables }

/-- A valid model is applied again. -/
theorem reapplyOne_eq (context : Context) (model : Model) :
    reapplyOne context model = (do
      model.validate context.system context.known
      reapplyPart context model) := by
  -- Synthesis checks the model first, and the rest is the part that compiles it.
  unfold reapplyOne reapplyPart
  rw [Context.synthesize_eq, bind_assoc]

/-- To apply a model again goes along with redaction. -/
theorem reapplyPart_redacted (context : Context) (model : Model) :
    reapplyPart context.redacted model.redacted =
      (reapplyPart context model).map Reapplied.redacted := by
  -- Columns are added again for the same fields, whatever their texts.
  have others : (model.redacted.fields.filter fun field => field.name != idName && !field.isKey) =
      (model.fields.filter fun field => field.name != idName && !field.isKey).map
        Field.redacted := by
    simp [List.filter_map, Function.comp_def]
  -- The statements for the columns are those of the fields, one by one.
  have columns := @Outcome.mapM_map _ _ _ _ _ Field.redacted _ (columnStatement context model)
    (columnStatement context.redacted model.redacted)
    (model.fields.filter fun field => field.name != idName && !field.isKey) fun field _ =>
      context.columnStatement_redacted model.name model field
  unfold reapplyPart
  rw [Context.compile_redacted, Outcome.bind_map, Outcome.map_bind]
  refine Outcome.bind_congr_of_ok fun synthesis _ => ?_
  dsimp only
  rw [others, columns, Outcome.bind_map, Outcome.map_bind]
  refine Outcome.bind_congr_of_ok fun made _ => ?_
  rw [filterMap_id_map]
  rfl

/-- The statements of all models in the order in which they are applied again. -/
def arranged (parts : List Reapplied) : List Statement :=
  parts.map Reapplied.table ++ parts.flatMap Reapplied.columns ++
    distinctBy (fun statement => statement.table.text) (parts.flatMap Reapplied.joinTables)

/-- The order of statements does not depend on texts. -/
theorem arranged_redacted (parts : List Reapplied) :
    arranged (parts.map Reapplied.redacted) = (arranged parts).map Statement.redacted := by
  -- Join tables are kept once each, by names that have no texts.
  have joins := @distinctBy_map _ (fun statement : Statement => statement.table.text)
    Statement.redacted (fun statement => by simp) (parts.flatMap Reapplied.joinTables)
  rw [List.map_flatMap] at joins
  simp only [arranged, List.map_append, List.map_map, List.map_flatMap, List.flatMap_map, ← joins]
  rfl

/-- The order of models does not depend on texts. -/
theorem inOrder_redacted (models : Models) :
    inOrder system models.redacted = (inOrder system models).map Model.redacted := by
  -- The names come in the same order, and under each the model without its texts is found.
  unfold inOrder
  rw [TableOrder.tableOrder_redacted, List.map_filterMap]
  simp only [Models.find?_redacted]

/-- All models are applied again when all of them are valid. -/
theorem reapply_eq_ok {repaired : Models} {statements : List Statement} :
    reapply system repaired = .ok statements ↔
      ∃ parts, repaired.Valid system ∧
        (inOrder system repaired).mapM (reapplyPart ⟨system, repaired⟩) = .ok parts ∧
        arranged parts = statements := by
  -- Application puts the parts together that the models give in their order.
  have unfolded : reapply system repaired = (do
      let parts ← (inOrder system repaired).mapM (reapplyOne ⟨system, repaired⟩)
      return arranged parts) := rfl
  have checked : reapplyOne ⟨system, repaired⟩ = _ := funext fun model => reapplyOne_eq _ model
  rw [unfolded, checked]
  -- A list of checks and compilations succeeds when all of the models are valid and compile.
  simp only [Outcome.bind_eq_ok, Outcome.pure_eq_ok, Outcome.mapM_check_eq_ok, mem_inOrder,
    and_assoc, Models.Valid]

/-- Where all models are the same but for texts, and the options of choices differ, they are applied
again by the same statements but for texts. -/
theorem exists_reapply_of_redacted {repaired other : Models}
    (same : repaired.redacted = other.redacted)
    (distinct : ∀ model ∈ other.members, model.DistinctOptions) {statements : List Statement}
    (done : reapply system repaired = .ok statements) :
    ∃ again, reapply system other = .ok again ∧
      again.map Statement.redacted = statements.map Statement.redacted := by
  -- The models come in one order, and each of them gives the same statements but for texts.
  obtain ⟨parts, valid, made, rfl⟩ := reapply_eq_ok.mp done
  have order : (inOrder system repaired).map Model.redacted =
      (inOrder system other).map Model.redacted := by
    rw [← inOrder_redacted, same, inOrder_redacted]
  -- To redact the parts is to make them of redacted models.
  have compiled : ∀ models : Models,
      ((inOrder system models).mapM (reapplyPart ⟨system, models⟩)).map
          (List.map Reapplied.redacted) =
        ((inOrder system models).map Model.redacted).mapM
          (reapplyPart ⟨system, models.redacted⟩) :=
    fun models => (Outcome.mapM_map fun model _ =>
      reapplyPart_redacted ⟨system, models⟩ model).symm
  obtain ⟨partsAgain, madeAgain, alike⟩ := Outcome.exists_of_map_eq
    (show _ = ((inOrder system other).mapM (reapplyPart ⟨system, other⟩)).map
        (List.map Reapplied.redacted) by
      rw [compiled, compiled, order, same]) made
  refine ⟨arranged partsAgain, reapply_eq_ok.mpr ⟨partsAgain, fun twin listed => ?_, madeAgain,
    rfl⟩, ?_⟩
  · -- Every model is the same but for texts as one that was valid.
    have there : twin.redacted ∈ repaired.redacted.members := by
      rw [same, Models.members_redacted]
      exact List.mem_map_of_mem listed
    rw [Models.members_redacted] at there
    obtain ⟨model, isModel, sameModel⟩ := List.mem_map.mp there
    exact Model.validate_of_redacted sameModel same (distinct twin listed) (valid model isModel)
  · -- The order that the parts are put into looks at no texts.
    rw [← arranged_redacted, alike, arranged_redacted]

variable {records : List Record} {reapplying : Bool}

/-- The statements of a repair are those of the repaired definitions. -/
theorem ofRecords_statements :
    (ofRecords system records reapplying).map RepairPlan.statements =
      if reapplying then reapply system (repaired system records).models
      else missingColumns system (scanned records) (repaired system records).models := by
  unfold ofRecords
  -- Either way the plan is put together from the statements and can no longer fail.
  cases reapplying with
  | true =>
    simp only [reduceIte, Outcome.map_bind]
    exact bind_pure _
  | false =>
    simp only [Bool.false_eq_true, reduceIte, Outcome.map_bind]
    exact bind_pure _

/-- Where the options of stored choices differ, so do those of repaired ones. -/
theorem distinctOptions_repaired
    (distinct : ∀ record ∈ records, record.definition.DistinctOptions) {model : Model}
    (listed : model ∈ (repaired system records).models.members) : model.DistinctOptions := by
  -- Repairs keep the plain fields, and choices are among these.
  have keeps : (scanned records).KeepsPlain (repaired system records).models :=
    keepsPlain_repair system (scanned records) (.untouched records.length)
  have own := keeps (Named.name model)
  rw [Roster.mem_iff_find?.mp listed, Option.map_some] at own
  obtain ⟨before, found, same⟩ := Option.map_eq_some_iff.mp own.symm
  obtain ⟨record, isRecord, rfl⟩ :=
    List.mem_map.mp (Roster.mem_of_mem_ofList (Roster.mem_of_find? found))
  exact (distinct record isRecord).of_plain same.symm

/-- Where the records are the same but for texts, and the options of choices differ, a repair is
planned by the same statements but for texts. -/
theorem exists_ofRecords_of_redacted {others : List Record}
    (same : records.map Record.redacted = others.map Record.redacted)
    (distinct : ∀ record ∈ others, record.definition.DistinctOptions) {plan : RepairPlan}
    (planned : ofRecords system records reapplying = .ok plan) :
    ∃ again, ofRecords system others reapplying = .ok again ∧
      again.statements.map Statement.redacted = plan.statements.map Statement.redacted := by
  -- What is scanned is the same but for texts, and so is what a repair makes of it.
  -- Records are scanned by their names, which redaction keeps.
  have stored : Models.redacted (scanned records) = Models.redacted (scanned others) := by
    have each : ∀ records : List Record,
        Models.redacted (scanned records) = scanned (records.map Record.redacted) := by
      intro records
      refine (Roster.map_ofList _).trans ?_
      rw [scanned, List.map_map, List.map_map]
      rfl
    rw [each, each, same]
  have final : Models.redacted (repaired system records).models =
      Models.redacted (repaired system others).models := by
    unfold repaired
    rw [← repair_redacted _ _ (.untouched 0), ← repair_redacted _ _ (.untouched 0), stored]
  have made : (ofRecords system records reapplying).map RepairPlan.statements =
      .ok plan.statements := by
    rw [planned]
    rfl
  -- The statements depend on the repaired definitions alone.
  rw [ofRecords_statements] at made
  -- Both kinds of repair give the same statements but for texts.
  have again : ∃ statements, (ofRecords system others reapplying).map RepairPlan.statements =
      .ok statements ∧
        statements.map Statement.redacted = plan.statements.map Statement.redacted := by
    rw [ofRecords_statements]
    cases reapplying with
    | true =>
      exact exists_reapply_of_redacted final
        (fun model listed => distinctOptions_repaired distinct listed) made
    | false =>
      refine Outcome.exists_of_map_eq ?_ made
      simp only [Bool.false_eq_true, reduceIte]
      rw [← missingColumns_redacted, stored, final, missingColumns_redacted]
  obtain ⟨statements, done, alike⟩ := again
  obtain ⟨planAgain, plannedAgain, rfl⟩ := Outcome.map_eq_ok.mp done
  exact ⟨planAgain, plannedAgain, alike⟩

end RepairPlan

end ModelCatalog
