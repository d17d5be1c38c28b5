import ModelCatalog.Proofs.Rest
import ModelCatalog.Proofs.Synthesis
import ModelCatalog.Proofs.TableOrder

/-! Applying all models again: the order of tables leaves no model out, and so all of them can be
applied again exactly when every one of them is valid. -/

namespace ModelCatalog

open RepairPlan

variable {system : SystemModels}

/-- Every model is valid next to all of them. -/
def Models.Valid (system : SystemModels) (models : Models) : Prop :=
  ∀ model ∈ models.members, model.validate system models = .ok ()

instance (models : Models) : Decidable (models.Valid system) :=
  inferInstanceAs (Decidable (∀ model ∈ models.members, model.validate system models = .ok ()))

/-! ## Applying again -/

namespace RepairPlan

/-- A formed field has the statement for its column made, if it has one. -/
theorem exists_columnStatement_of_formed {context : Context} {known : Models} {model : Model}
    {field : Field} (owner : isIdentifier model.name = true)
    (formed : field.Formed system known model.name) :
    ∃ statement, columnStatement context model field = .ok statement := by
  obtain ⟨column, declared⟩ :=
    @Context.exists_column_of_formed context model field _ _ formed
  obtain ⟨table, checked⟩ :
      ∃ table, Identifier.check model.name = .ok table :=
    Identifier.exists_checkAt_eq_ok.mpr owner
  -- The column may be refused only for the name of its table, and that has been checked.
  cases column with
  | none => exact ⟨none, Outcome.bind_eq_ok.mpr ⟨none, declared, rfl⟩⟩
  | some column =>
    refine ⟨some (Statement.addColumn table column),
      Outcome.bind_eq_ok.mpr ⟨some column, declared, Outcome.bind_eq_ok.mpr
        ⟨Statement.addColumn table column, ?_, rfl⟩⟩⟩
    exact Outcome.map_eq_ok.mpr ⟨table, checked, rfl⟩

/-- A model can be applied again exactly when it is valid. -/
theorem exists_reapplyOne_iff {context : Context} {model : Model} :
    (∃ part, reapplyOne context model = .ok part) ↔
      model.validate context.system context.known = .ok () := by
  constructor
  · -- Applying again begins with compiling, which asks for validity.
    rintro ⟨part, done⟩
    obtain ⟨synthesis, compiled, -⟩ := Outcome.bind_eq_ok.mp done
    exact Context.exists_synthesize_iff.mp ⟨synthesis, compiled⟩
  · intro valid
    have formed := (Model.validate_eq_ok.mp valid).1
    obtain ⟨synthesis, compiled⟩ := Context.exists_synthesize_iff.mpr valid
    -- The columns that are added one by one are those of formed fields.
    have each : ∀ field ∈ model.fields.filter fun field => field.name != idName && !field.isKey,
        ∃ statement, columnStatement context model field = .ok statement := fun field listed =>
      exists_columnStatement_of_formed formed.name
        (formed.fields field (List.mem_filter.mp listed).1)
    obtain ⟨columns, added⟩ := Outcome.exists_mapM_eq_ok each
    exact ⟨_, Outcome.bind_eq_ok.mpr ⟨synthesis, compiled,
      Outcome.bind_eq_ok.mpr ⟨columns, added, rfl⟩⟩⟩

/-- The models that are applied again, those referred to first. -/
def inOrder (system : SystemModels) (models : Models) : List Model :=
  (models.tableOrder system).filterMap models.find?

/-- All models are applied again, and no others. -/
@[simp] theorem mem_inOrder {models : Models} {model : Model} :
    model ∈ inOrder system models ↔ model ∈ models.members := by
  constructor
  · -- The order names every model once it is known, and a name in it stands for the model known by
    -- it.
    intro listed
    obtain ⟨name, -, found⟩ := List.mem_filterMap.mp listed
    exact Roster.mem_of_find? found
  · intro listed
    exact List.mem_filterMap.mpr ⟨model.name, Models.name_mem_tableOrder listed,
      Roster.mem_iff_find?.mp listed⟩

/-- All models can be applied again exactly when every one is valid. -/
theorem exists_reapply_iff {models : Models} :
    (∃ statements, reapply system models = .ok statements) ↔ models.Valid system := by
  constructor
  · rintro ⟨statements, done⟩ model listed
    obtain ⟨parts, made, -⟩ := Outcome.bind_eq_ok.mp done
    -- The model has its turn.
    obtain ⟨part, -, applied⟩ := Outcome.exists_of_mapM_eq_ok made (mem_inOrder.mpr listed)
    exact (@exists_reapplyOne_iff ⟨system, models⟩ model).mp ⟨part, applied⟩
  · intro valid
    have each : ∀ model ∈ inOrder system models,
        ∃ part, reapplyOne ⟨system, models⟩ model = .ok part := fun model listed =>
      (@exists_reapplyOne_iff ⟨system, models⟩ model).mpr (valid model (mem_inOrder.mp listed))
    obtain ⟨parts, made⟩ := Outcome.exists_mapM_eq_ok each
    exact ⟨_, Outcome.bind_eq_ok.mpr ⟨parts, made, rfl⟩⟩

/-- A repair that applies all models again can be planned exactly when every repaired definition is
valid. -/
theorem exists_ofRecords_iff {records : List Record} :
    (∃ plan, ofRecords system records true = .ok plan) ↔
      (repaired system records).models.Valid system := by
  rw [← exists_reapply_iff]
  unfold ofRecords
  -- The rest of the plan is made whether or not the models are applied again.
  simp only [reduceIte, Outcome.bind_eq_ok, Outcome.pure_eq_ok]
  constructor
  · rintro ⟨plan, statements, done, -⟩
    exact ⟨statements, done⟩
  · rintro ⟨statements, done⟩
    exact ⟨_, statements, done, rfl⟩

end RepairPlan

end ModelCatalog
