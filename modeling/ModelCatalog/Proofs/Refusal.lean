import ModelCatalog.Proofs.Executor
import ModelCatalog.Proofs.WritePlan
import ModelCatalog.Relation.DeletePlan
import ModelCatalog.Relation.RepairPlan

/-! Refusals: whatever is refused before any statement is run tells of no statement. -/

namespace ModelCatalog

namespace Error

/-- The error tells of nothing that was tried: no statement was refused and no effect is left. -/
def IsRefusal : Error → Prop
  | execution .. => False
  | transient _ (.statement ..) => False
  | partway .. => False
  | _ => True

variable {error : Error}

/-- What was refused before anything was tried tells of no statement. -/
theorem IsRefusal.not_isRejection (refusal : error.IsRefusal) : ¬error.IsRejection := by
  -- The three errors that tell of an attempt are excluded.
  unfold IsRefusal at refusal
  split at refusal
  · exact refusal.elim
  · exact refusal.elim
  · exact refusal.elim
  · -- What is left are the causes that are no rejections either.
    rename_i unexecuted unstated whole
    unfold IsRejection
    split
    · exact fun _ => unexecuted _ _ _ _ _ rfl
    · exact fun _ => unstated _ _ _ _ rfl
    · exact fun _ => whole _ _ _ _ rfl
    · exact id

/-- What was refused before anything was tried left no effects behind. -/
theorem IsRefusal.isPartial (refusal : error.IsRefusal) : error.isPartial = false := by
  -- Only an error that tells of effects is partial, and such an error is no refusal.
  cases error with
  | partway model operation steps cause => exact refusal.elim
  | _ => rfl

end Error

/-- A result whose error, if there is one, tells of nothing that was tried. -/
def Planning {α : Type} (result : Except Error α) : Prop :=
  ∀ error, result = .error error → error.IsRefusal

namespace Planning

variable {α β : Type}

/-- A value is no error. -/
@[simp] theorem ok (value : α) : Planning (.ok value) := by
  -- There is no error to say anything about.
  intro error failed
  cases failed

/-- A value that is passed on is no error. -/
@[simp] theorem pure (value : α) : Planning (Pure.pure value) := ok value

/-- An error that tells of nothing that was tried. -/
theorem error {error : Error} (refusal : error.IsRefusal) :
    Planning (.error error : Except Error α) := by
  -- The error is the given one.
  intro other same
  cases same
  exact refusal

/-- An error that is thrown and tells of nothing that was tried. -/
theorem throw {error : Error} (refusal : error.IsRefusal) :
    Planning (MonadExcept.throw error : Except Error α) := Planning.error refusal

/-- A chain of such results. -/
theorem bind {first : Except Error α} {next : α → Except Error β} (head : Planning first)
    (tail : ∀ value, Planning (next value)) : Planning (first >>= next) := by
  intro error failed
  -- The error comes from the first result, or from the next one at some value of it.
  rcases Outcome.bind_eq_error.mp failed with early | ⟨value, -, late⟩
  · exact head error early
  · exact tail value error late

/-- A traversal of such steps. -/
theorem mapM {step : α → Except Error β} (each : ∀ input, Planning (step input))
    (inputs : List α) : Planning (inputs.mapM step) := by
  intro error failed
  -- The error of a traversal is that of one of its steps.
  obtain ⟨input, -, fails⟩ := Outcome.exists_of_mapM_eq_error failed
  exact each input error fails

/-- A fold of such steps. -/
theorem foldlM {step : β → α → Except Error β} (each : ∀ state input, Planning (step state input))
    (inputs : List α) (state : β) : Planning (inputs.foldlM step state) := by
  intro error failed
  -- The error of a fold is that of a step from some state on the way.
  obtain ⟨reached, input, -, fails⟩ := Outcome.exists_of_foldlM_eq_error failed
  exact each reached input error fails

/-- Another wording of the value. -/
theorem map {first : Except Error α} (head : Planning first) (change : α → β) :
    Planning (first.map change) := by
  -- The change is made to a value, and an error passes through it.
  intro error failed
  cases first with
  | ok value => cases failed
  | error _ =>
    cases failed
    exact head _ rfl

end Planning

/-- A refused name tells of no statement. -/
theorem Identifier.planning_checkAt (place : Option Place) (name : String) :
    Planning (checkAt place name) := by
  -- The name is an identifier, or what is wrong with it is an error of its own.
  unfold checkAt
  split
  · exact .ok _
  · exact .error trivial

/-- A refused name tells of no statement. -/
theorem Identifier.planning_check (name : String) : Planning (check name) :=
  planning_checkAt none name

/-! ## Validation -/

namespace Validation

/-- A refused choice tells of no statement. -/
theorem planning_checkOptions (model field : String) (options : List String) :
    Planning (checkOptions model field options) := by
  -- The induction is on the options that are left, for any that have been seen.
  have distinct : ∀ (rest seen : List String),
      Planning (checkOptions.distinct model field seen rest) := by
    intro rest
    induction rest with
    | nil => exact fun _ => .ok _
    | cons first rest ih =>
      intro seen
      unfold checkOptions.distinct
      split
      · exact .error trivial
      · exact ih _
  unfold checkOptions
  split
  · exact .error trivial
  · exact distinct _ _

/-- A refused relation tells of no statement. -/
theorem planning_checkRelation (system : SystemModels) (known : Models) (model field : String)
    (relation : Relation) : Planning (checkRelation system known model field relation) := by
  -- Every check on the way is of a name, or throws an error of its own.
  unfold checkRelation
  repeat' first
    | exact Identifier.planning_checkAt _ _
    | exact .pure _
    | exact .throw trivial
    | refine .bind ?_ fun _ => ?_
    | split

/-- A column that is taken tells of no statement. -/
theorem planning_claimColumn (model field column : String) (claims : Claims) :
    Planning (claimColumn model field column claims) := by
  -- Either another field has the column already, or the claim is added.
  unfold claimColumn
  split
  · exact .error trivial
  · exact .ok _

/-- A refused field tells of no statement. -/
theorem planning_checkField (system : SystemModels) (known : Models) (model : String)
    (claims : Claims) (field : Field) :
    Planning (checkField system known model claims field) := by
  -- The field is checked in several steps, and none of them runs a statement.
  unfold checkField checkHead
  repeat' first
    | exact Identifier.planning_checkAt _ _
    | exact planning_checkOptions _ _ _
    | exact planning_checkRelation _ _ _ _ _
    | exact planning_claimColumn _ _ _ _
    | exact .pure _
    | exact .throw trivial
    | refine .bind ?_ fun _ => ?_
    | split

/-- A refused key tells of no statement. -/
theorem planning_checkKey (model : Model) (claims : Claims) : Planning (checkKey model claims) := by
  -- The key is checked by its columns alone.
  unfold checkKey
  repeat' first
    | exact planning_claimColumn _ _ _ _
    | exact .pure _
    | exact .throw trivial
    | refine .bind ?_ fun _ => ?_
    | split

end Validation

/-- A refused definition tells of no statement. -/
theorem Model.planning_validate (system : SystemModels) (known : Models) (model : Model) :
    Planning (model.validate system known) :=
  -- The name, the fields in order and the key are checked one after the other.
  .bind (Identifier.planning_checkAt _ _) fun _ =>
    .bind (.foldlM (Validation.planning_checkField system known model.name) _ _)
      fun _ => Validation.planning_checkKey _ _

/-! ## Resolution and compilation -/

/-- Self-relations that do not pair tell of no statement. -/
theorem Resolution.planning_pairSelf (model : Model) (name : String) :
    Planning (pairSelf model name) := by
  -- The one error is thrown here, and says that the pair is not symmetric.
  unfold pairSelf
  repeat' first
    | exact .ok _
    | exact .error trivial
    | split

/-- A claim that is taken tells of no statement. -/
theorem Resolution.planning_checkClaims (model : String) (rest : List Claim) :
    ∀ earlier, Planning (checkClaims model earlier rest) := by
  -- The claims before the current one are arbitrary, so that the induction can add to them.
  induction rest with
  | nil => exact fun _ => .ok _
  | cons first rest ih =>
    intro earlier
    unfold checkClaims
    split
    · exact .error trivial
    · exact ih _

namespace Context

variable (context : Context)

/-- A definition that cannot be resolved tells of no statement. -/
theorem planning_resolve (old : Option Model) (model : Model) :
    Planning (context.resolve old model) :=
  -- The relations to itself are paired, and then the names it claims are checked.
  .bind (.foldlM Resolution.planning_pairSelf _ _) fun _ =>
    .bind (Resolution.planning_checkClaims _ _ _) fun _ => .pure _

/-- A column that cannot be declared tells of no statement. -/
theorem planning_column (model : Model) (field : Field) :
    Planning (context.column model field) := by
  -- Names are checked, and everything else about a column is put together without fail.
  unfold Context.column foreignKeyColumn
  repeat' first
    | exact Identifier.planning_check _
    | exact .pure _
    | refine .bind ?_ fun _ => ?_
    | split

/-- A join table that cannot be declared tells of no statement. -/
theorem planning_joinTable (model : Model) (field : Field) :
    Planning (context.joinTable model field) := by
  -- Only the names of the table and of its columns can be refused.
  unfold Context.joinTable
  repeat' first
    | exact Identifier.planning_check _
    | exact .pure _
    | refine .bind ?_ fun _ => ?_
    | split

/-- A definition that cannot be compiled tells of no statement. -/
theorem planning_synthesize (model : Model) : Planning (context.synthesize model) :=
  -- First the definition is checked, and then its table, its columns and its join tables are made.
  .bind (Model.planning_validate _ _ _) fun _ => .bind (Identifier.planning_check _) fun _ =>
    .bind (.mapM (context.planning_column model) _) fun _ =>
      .bind (.mapM (context.planning_joinTable model) _) fun _ => .pure _

end Context

/-! ## Plans -/

/-- A statement that cannot be made is none that was refused. -/
theorem Statement.planning_addColumnTo (table : String) (column : Column) :
    Planning (addColumnTo table column) := .map (Identifier.planning_check _) _

/-- A statement that cannot be made is none that was refused. -/
theorem Statement.planning_dropTableOf (table : String) : Planning (dropTableOf table) :=
  .map (Identifier.planning_check _) _

namespace TargetEdit

/-- A counterpart that collides tells of no statement. -/
theorem planning_checkCollisions (source target : Model) (insertions : List Insertion) :
    Planning (checkCollisions source target insertions) := by
  -- The insertions are checked in order, and the first that collides is the error.
  induction insertions with
  | nil => exact .ok _
  | cons first rest ih =>
    unfold checkCollisions
    split
    · exact .error trivial
    · exact ih

/-- A target that does not fit tells of no statement. -/
theorem planning_checkFit (source : String) (target : Model) :
    Planning (checkFit source target) := by
  -- Every field is checked for its fit, with the names that are taken so far.
  refine .bind (.foldlM (fun taken field => ?_) _ _) fun _ => .pure _
  unfold checkFieldFits
  repeat' first
    | exact Identifier.planning_checkAt _ _
    | exact .pure _
    | exact .throw trivial
    | refine .bind ?_ fun _ => ?_
    | split

/-- An edit that cannot be completed tells of no statement. -/
theorem planning_complete (context : Context) (source before : Model) (edit : TargetEdit) :
    Planning (edit.complete context source before) := by
  -- The checks come first, and then a column is made for each insertion that needs one.
  refine .bind (planning_checkCollisions _ _ _) fun _ => .bind (planning_checkFit _ _) fun _ =>
    .bind (.mapM (fun insertion => ?_) _) fun _ => .pure _
  unfold columnFor
  dsimp only
  repeat' first
    | exact context.planning_column _ _
    | exact Statement.planning_addColumnTo _ _
    | exact .pure _
    | refine .bind ?_ fun _ => ?_
    | split

end TargetEdit

namespace WritePlan

/-- Columns that cannot be added tell of no statement. -/
theorem planning_ownColumns (context : Context) (old : Option Model) (model : Model) :
    Planning (ownColumns context old model) := by
  -- A new model has no columns to add, and of an earlier one each new column is declared in turn.
  unfold ownColumns newColumns
  repeat' first
    | exact context.planning_column _ _
    | exact Statement.planning_addColumnTo _ _
    | exact .pure _
    | exact .ok _
    | refine .bind ?_ fun _ => ?_
    | refine .mapM (fun _ => ?_) _
    | split

/-- Edits that cannot be completed tell of no statement. -/
theorem planning_propagation (context after : Context) (source : Model) (removed : List Field) :
    Planning (propagation context after source removed) := by
  -- Each edit is completed by itself, and one to a target that is not known stays as it is.
  refine .mapM (fun edit => ?_) _
  split
  · exact TargetEdit.planning_complete _ _ _ _
  · exact .ok _

end WritePlan

/-- A write that cannot be planned tells of no statement. -/
theorem Context.planning_planWrite (context : Context) (old : Option Record) (model : Model) :
    Planning (context.planWrite old model) := by
  rw [WritePlan.planWrite_eq]
  -- A plan is a chain of stages, and each of them refuses only what it reads.
  exact .bind (Model.planning_validate _ _ _) fun _ =>
    .bind (context.planning_resolve _ _) fun resolved =>
      .bind (Model.planning_validate _ _ _) fun _ =>
        .bind (.mapM Statement.planning_dropTableOf _) fun _ =>
          .bind ((context.withModel resolved).planning_synthesize resolved) fun _ =>
            .bind (WritePlan.planning_ownColumns _ _ _) fun _ =>
              .bind (WritePlan.planning_propagation _ _ _ _) fun _ => .pure _

/-- A deletion that cannot be planned tells of no statement. -/
theorem DeletePlan.planning_ofRecord (known : Models) (record : Record) :
    Planning (DeletePlan.ofRecord known record) :=
  -- The names of the tables to be dropped are all that is checked.
  .bind (Statement.planning_dropTableOf _) fun _ =>
    .bind (.mapM Statement.planning_dropTableOf _) fun _ => .pure _

namespace RepairPlan

/-- A column that cannot be added is refused before anything is tried. -/
theorem planning_columnStatement (context : Context) (model : Model) (field : Field) :
    Planning (columnStatement context model field) := by
  -- The column is declared first, and the statement for it is made when there is one.
  refine .bind (context.planning_column _ _) fun column => ?_
  split
  · exact .bind (Statement.planning_addColumnTo _ _) fun _ => .pure _
  · exact .pure _

/-- Columns that cannot be added are refused before anything is tried. -/
theorem planning_missingColumns (system : SystemModels) (scanned repaired : Models) :
    Planning (missingColumns system scanned repaired) := by
  -- Each model is looked at by itself, and one that was not there or has not changed needs nothing.
  refine .bind (.mapM (fun model => ?_) _) fun _ => .pure _
  unfold missingColumnsOf
  split
  · exact .pure _
  · split
    · exact .pure _
    · exact .bind (.mapM (planning_columnStatement _ _) _) fun _ => .pure _

/-- Models that cannot be compiled again are refused before anything is tried. -/
theorem planning_reapply (system : SystemModels) (repaired : Models) :
    Planning (reapply system repaired) := by
  -- Every model is compiled again, and then its columns are declared one by one.
  refine .bind (.mapM (fun model => ?_) _) fun _ => .pure _
  exact .bind (Context.planning_synthesize _ _) fun _ =>
    .bind (.mapM (planning_columnStatement _ _) _) fun _ => .pure _

/-- A repair that cannot be planned is refused before anything is tried. -/
theorem planning_ofRecords (system : SystemModels) (records : List Record) (reapplying : Bool) :
    Planning (ofRecords system records reapplying) := by
  -- Whether everything is compiled again or only columns that are missing, planning runs nothing.
  unfold ofRecords
  cases reapplying with
  | true => exact .bind (planning_reapply _ _) fun _ => .pure _
  | false => exact .bind (planning_missingColumns _ _ _) fun _ => .pure _

end RepairPlan

end ModelCatalog
