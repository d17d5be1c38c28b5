import ModelCatalog.Proofs.Drafts
import ModelCatalog.Proofs.Synthesis

/-! Plans of writes: what a plan that was made has made sure of. -/

namespace ModelCatalog

namespace TargetEdit

variable {context other : Context} {source before : Model} {edit : TargetEdit}

/-- The edit without its statements. -/
def plain (edit : TargetEdit) : TargetEdit := { edit with columns := [] }

/-- Statements do not matter to what an edit does to its target. -/
@[simp] theorem apply_plain (edit : TargetEdit) (source : String) (target : Model) :
    edit.plain.apply source target = edit.apply source target := rfl

/-- A field that relates to the source has identifiers for its name and its column. -/
def Identified (source : String) (field : Field) : Prop :=
  ∀ relation, field.relation? = some relation → relation.target = source →
    isIdentifier field.name = true ∧
      (relation.kind.hasColumn = true → isIdentifier (relation.columnName field.name) = true)

/-- What has been taken once a field of an edited target was looked at as well. -/
def Taken.adding (taken : Taken) (field : Field) : Taken where
  names := field.name :: taken.names
  columns := field.columnName?.toList ++ taken.columns

/-- A field fits an edited target when it is identified and takes a name and a column that nothing
has taken. -/
theorem checkFieldFits_eq_ok {source target : String} {taken after : Taken} {field : Field} :
    checkFieldFits source target taken field = .ok after ↔
      Identified source field ∧ field.name ∉ taken.names ∧
        (∀ column, field.columnName? = some column → column ∉ taken.columns) ∧
        taken.adding field = after := by
  unfold checkFieldFits Identified
  -- Names are checked of relations to the source alone; the other kinds of field pass there.
  cases kind : field.kind with
  | relation relation =>
    by_cases here : relation.target = source <;> cases owned : relation.kind.hasColumn <;>
      simp [-bind_pure_comp, Identifier.checkAt_bind_eq_ok, Outcome.unless_throw_eq_ok,
        Field.relation?, Field.columnName?, Taken.adding, kind, here, owned, and_assoc,
        and_left_comm]
  | _ =>
    simp [-bind_pure_comp, Outcome.unless_throw_eq_ok, Field.relation?, Field.columnName?,
      Taken.adding, kind]

/-- The check of an edited target takes names and columns. -/
theorem taking_checkFieldFits (source target : String) :
    Taking (checkFieldFits source target) (Identified source) Taken.adding Taken.names
      Taken.columns where
  -- Taking a field adds its name, and its column if it has one.
  step_eq_ok := checkFieldFits_eq_ok
  names_adding := fun _ _ => rfl
  columns_adding := fun _ _ => rfl

/-- An edited target fits when its fields have names and columns of their own, and those that relate
to the source are identified. -/
theorem checkFit_eq_ok {source : String} {target : Model} :
    checkFit source target = .ok () ↔ (∀ field ∈ target.fields, Identified source field) ∧
      (target.fields.map Field.name).Nodup ∧ (target.fields.filterMap Field.columnName?).Nodup := by
  have nothing : (Taken.mk [] []).names = [] := rfl
  unfold checkFit
  rw [Outcome.bind_eq_ok]
  -- The fold over the fields takes every name and column once, from nothing taken at the start.
  simp only [(taking_checkFieldFits source target.name).foldlM_start_eq_ok nothing rfl,
    Outcome.pure_eq_ok, and_true]
  constructor
  · rintro ⟨_, identified, names, columns, -⟩
    exact ⟨identified, names, columns⟩
  · rintro ⟨identified, names, columns⟩
    exact ⟨_, identified, names, columns, rfl⟩

/-- An edit is complete when nothing collides, the edited target fits and the columns of the
counterparts can be declared. -/
theorem complete_eq_ok {done : TargetEdit} :
    edit.complete context source before = .ok done ↔
      checkCollisions source before edit.insertions = .ok () ∧
      checkFit source.name (edit.apply source.name before).1 = .ok () ∧
      ∃ columns, edit.insertions.mapM (columnFor context source.name before
          (edit.apply source.name before).1) = .ok columns ∧
        done = { edit with columns := columns.filterMap id } := by
  unfold complete
  -- The three stages of completion are the three conditions, with units between them.
  simp only [Outcome.bind_eq_ok, Outcome.pure_eq_ok]
  constructor
  · rintro ⟨⟨⟩, collisions, ⟨⟩, fits, columns, made, rfl⟩
    exact ⟨collisions, fits, columns, made, rfl⟩
  · rintro ⟨collisions, fits, columns, made, rfl⟩
    exact ⟨(), collisions, (), fits, columns, made, rfl⟩

end TargetEdit

namespace Context

/-- The context in which a model is known as well. -/
def withModel (context : Context) (model : Model) : Context :=
  { context with known := context.known.insert model }

end Context

namespace WritePlan

variable {context after : Context} {source : Model} {removed : List Field}
  {edits : List TargetEdit}

/-- The statements for the columns of a new version, if there is an old one. -/
def ownColumns (context : Context) (old : Option Model) (model : Model) :
    Except Error (List Statement) :=
  match old with
  | some old => newColumns context old model
  | none => .ok []

/-- The changes in the relations from an old version to a resolved one. -/
def changes (system : SystemModels) (old : Option Record) (resolved : Model) : RelationChange :=
  RelationChange.between system (old.map Record.definition) resolved

/-- Planning goes from one part of a plan to the next. -/
theorem planWrite_eq (context : Context) (old : Option Record) (model : Model) :
    context.planWrite old model = (do
      model.validate context.system context.known
      let resolved ← context.resolve (old.map Record.definition) model
      resolved.validate context.system context.known
      let drops ← (changes context.system old resolved).obsoleteTables.mapM
        Statement.dropTableOf
      let synthesis ← (context.withModel resolved).synthesize resolved
      let columns ← ownColumns (context.withModel resolved) (old.map Record.definition) resolved
      let edits ← propagation context (context.withModel resolved) resolved
        (changes context.system old resolved).removed
      return {
        model := resolved.name
        definition := resolved
        statements := drops ++ synthesis.table :: columns ++ synthesis.joinTables
        edits := edits
        expect := Expect.ofRecord old }) := by
  -- The two versions differ only in whether there are columns to compare with.
  cases old <;> rfl

/-- A plan is made of a resolved definition that is valid and of what it gives rise to. -/
theorem planWrite_eq_ok {old : Option Record} {model : Model} {plan : WritePlan} :
    context.planWrite old model = .ok plan ↔
      ∃ resolved drops synthesis columns edits,
        model.validate context.system context.known = .ok () ∧
        context.resolve (old.map Record.definition) model = .ok resolved ∧
        resolved.validate context.system context.known = .ok () ∧
        (changes context.system old resolved).obsoleteTables.mapM Statement.dropTableOf =
          .ok drops ∧
        (context.withModel resolved).synthesize resolved = .ok synthesis ∧
        ownColumns (context.withModel resolved) (old.map Record.definition) resolved =
          .ok columns ∧
        propagation context (context.withModel resolved) resolved
          (changes context.system old resolved).removed = .ok edits ∧
        plan =
          { model := resolved.name
            definition := resolved
            statements := drops ++ synthesis.table :: columns ++ synthesis.joinTables
            edits := edits
            expect := Expect.ofRecord old } := by
  rw [planWrite_eq]
  -- The stages of planning are the conditions, in their order.
  simp only [Outcome.bind_eq_ok, Outcome.pure_eq_ok]
  constructor
  · rintro ⟨⟨⟩, valid, resolved, done, ⟨⟩, resolvedValid, drops, dropped, synthesis, made, columns,
      added, edits, propagated, rfl⟩
    exact ⟨resolved, drops, synthesis, columns, edits, valid, done, resolvedValid, dropped, made,
      added, propagated, rfl⟩
  · rintro ⟨resolved, drops, synthesis, columns, edits, valid, done, resolvedValid, dropped, made,
      added, propagated, rfl⟩
    exact ⟨(), valid, resolved, done, (), resolvedValid, drops, dropped, synthesis, made, columns,
      added, edits, propagated, rfl⟩

/-- A plan is made for a definition with different names, and it is one for what that definition is
resolved to. -/
theorem resolve_of_planWrite {old : Option Record} {model : Model} {plan : WritePlan}
    (planned : context.planWrite old model = .ok plan) :
    (model.fields.map Field.name).Nodup ∧
      context.resolve (old.map Record.definition) model = .ok plan.definition := by
  -- The definition was validated before it was resolved.
  obtain ⟨_, _, _, _, _, valid, done, _, _, _, _, _, rfl⟩ := planWrite_eq_ok.mp planned
  exact ⟨(Model.admitted_of_validate valid).distinct, done⟩

/-- What a plan is to store is valid. -/
theorem valid_of_planWrite {old : Option Record} {model : Model} {plan : WritePlan}
    (planned : context.planWrite old model = .ok plan) :
    plan.definition.validate context.system context.known = .ok () := by
  -- What was resolved is validated once more.
  obtain ⟨_, _, _, _, _, -, -, valid, -, -, -, -, rfl⟩ := planWrite_eq_ok.mp planned
  exact valid

/-- The edits of a plan are the drafts with their statements. -/
theorem plain_of_propagation (done : propagation context after source removed = .ok edits) :
    edits.map TargetEdit.plain = drafts context source removed := by
  -- A draft has no statements to begin with.
  have columns : ∀ draft ∈ drafts context source removed, draft.plain = draft := by
    intro draft listed
    rw [drafts_eq] at listed
    obtain ⟨target, -, rfl⟩ := List.mem_map.mp listed
    rfl
  have same := Outcome.mapM_eq_ok.mp done
  -- Only the statements are new in what each draft is completed to.
  clear done
  generalize drafts context source removed = drafts at columns same
  induction same with
  | nil => rfl
  | cons head tail ih =>
    -- What a draft is completed to differs from it in its columns, whether its target is known or
    -- not.
    rename_i draft edit _ _
    have own : edit.plain = draft := by
      rw [← columns draft List.mem_cons_self]
      split at head
      · obtain ⟨-, -, _, -, rfl⟩ := TargetEdit.complete_eq_ok.mp head
        rfl
      · cases head
        rfl
    rw [List.map_cons, own, ih fun later listed => columns later (List.mem_cons_of_mem _ listed)]

/-- The edit of a plan to a known target comes of a draft that is complete. -/
theorem complete_of_propagation (done : propagation context after source removed = .ok edits)
    {draft : TargetEdit} (drafted : draft ∈ drafts context source removed) {before : Model}
    (known : context.known.find? draft.target = some before) :
    ∃ edit, draft.complete after source before = .ok edit := by
  -- The draft was completed with the version of the target that is known.
  obtain ⟨edit, -, made⟩ := Outcome.exists_of_mapM_eq_ok done drafted
  simp only [known] at made
  exact ⟨edit, made⟩

end WritePlan

end ModelCatalog
