import ModelCatalog.Proofs.Executor
import ModelCatalog.Proofs.Refusal

/-! Runs of writes: what a call to define or to update leaves in the store, however its statements
fare. -/

namespace ModelCatalog

open InProgress

namespace Registry

variable (executor : Executor) (configuration : Configuration) {progress : InProgress Database}
  {catalog : Catalog}

/-- Reading a record changes nothing. -/
theorem lift_get_run (holds : progress.state.store = catalog.store) (name : String) :
    lift ((Database.backendWith executor).get name) progress =
      (.ok (catalog.find? name), progress) := by
  -- The store is the one of the catalog, and nothing is written to it.
  have read : Database.get name progress.state = (.ok (catalog.find? name), progress.state) := by
    rw [Database.get, holds, Catalog.get_store]
  show lift (Database.get name) progress = _
  rw [lift, read]

/-- A write whose guard holds goes through. -/
theorem lift_put_run (holds : progress.state.store = catalog.store) {definition : Model}
    {expect : Expect} (guarded : expect.holds (catalog.find? definition.name) = true) :
    lift ((Database.backendWith executor).put definition expect) progress =
      (.ok (Store.successor (catalog.find? definition.name) definition progress.state.now),
        { progress with
          state := { progress.state with
            store := (catalog.written definition progress.state.now).store } }) := by
  -- The store goes from that of the one catalog to that of the next.
  have wrote : Database.put definition expect progress.state =
      (.ok (Store.successor (catalog.find? definition.name) definition progress.state.now),
        { progress.state with
          store := (catalog.written definition progress.state.now).store }) := by
    rw [Database.put, holds, Catalog.put_store guarded]
  show lift (Database.put definition expect) progress = _
  rw [lift, wrote]

/-- The part of an attempt to change a definition that comes after reading it. -/
def changeRead {σ : Type} (backend : Backend σ) (change : Model → Model × Bool) (before : Model)
    (expect : Expect) : Step (InProgress σ) (Except Error Unit) := do
  if (change before).2 then
    match ← Step.outcome (lift (backend.put (change before).1 expect)) with
    | .ok _ =>
      advance 1
      save backend
      return .ok ()
    | .error error =>
      if error.kind = .conflict then return .error error else .fail error
  else return .ok ()

/-- What was read is changed under a guard that it is still there. -/
theorem changeRead_run (holds : progress.state.store = catalog.store) {expect : Expect}
    {change : Model → Model × Bool} {before : Model}
    (guarded : expect.holds (catalog.find? (change before).1.name) = true) :
    ∃ after, changeRead (Database.backendWith executor) change before expect progress =
        (.ok (.ok ()), after) ∧
      Follows progress after (if (change before).2 then
        catalog.written (change before).1 progress.state.now else catalog) := by
  -- A change without effect is not written.
  cases effective : (change before).2 with
  | false =>
    refine ⟨progress, ?_, holds, rfl, Nat.le_refl _⟩
    simp only [changeRead, effective, Bool.false_eq_true, reduceIte]
    rfl
  | true =>
    simp only [changeRead, effective, reduceIte]
    rw [Step.bind_of_ok (Step.outcome_run (lift_put_run executor holds guarded))]
    exact ⟨_, rfl, rfl, rfl, Nat.le_add_right _ _⟩

/-- One attempt to change a definition succeeds, since no one else writes. -/
theorem tryAmend_run (holds : progress.state.store = catalog.store) (name : String)
    (createMissing : Bool) {change : Model → Model × Bool}
    (keepsName : ∀ model, (change model).1.name = model.name) :
    ∃ after, (registryWith executor configuration).tryAmend name createMissing change progress =
        (.ok (.ok ()), after) ∧
      Follows progress after (catalog.amended name createMissing change progress.state.now) := by
  -- The guard is on the changed model, which is stored under the name that was read.
  have guarded : ∀ before, before.name = name → (Expect.ofRecord (catalog.find? name)).holds
      (catalog.find? (change before).1.name) = true := by
    intro before own
    rw [keepsName, own]
    exact Catalog.holds_ofRecord _
  unfold tryAmend Catalog.amended Catalog.start? Catalog.definition?
  rw [Step.bind_of_ok (lift_get_run executor holds name)]
  -- The change begins with what was read, under a guard that it is still so.
  cases found : catalog.find? name with
  | some record =>
    have begins := guarded record.definition (Roster.name_of_find? found)
    rw [found] at begins
    exact changeRead_run executor holds begins
  | none =>
    cases createMissing with
    | true =>
      have begins := guarded ⟨name, []⟩ rfl
      rw [found] at begins
      exact changeRead_run executor holds begins
    | false => exact ⟨progress, rfl, holds, rfl, Nat.le_refl _⟩

/-- A definition is changed at the first attempt. -/
theorem amend_run (holds : progress.state.store = catalog.store) (name : String)
    (createMissing : Bool) {change : Model → Model × Bool}
    (keepsName : ∀ model, (change model).1.name = model.name) :
    ∃ after, (registryWith executor configuration).amend name createMissing change progress =
        (.ok (), after) ∧
      Follows progress after (catalog.amended name createMissing change progress.state.now) := by
  -- The first attempt succeeds, so there is no second.
  obtain ⟨after, done, follows⟩ := tryAmend_run executor configuration holds name
    createMissing keepsName
  exact ⟨after, Step.retrying_of_ok done _, follows⟩

/-! ## Propagation -/

/-- The statements for an edit are applied or refused, and once they are applied the edit is. -/
theorem propagate_run (holds : progress.state.store = catalog.store) (source : String)
    (edit : TargetEdit) :
    (∃ after, (registryWith executor configuration).propagate source edit progress =
        (.ok (), after) ∧
      Follows progress after (catalog.edited source progress.state.now edit)) ∨
    ∃ error after, (registryWith executor configuration).propagate source edit progress =
        (.error error, after) ∧
      Follows progress after catalog ∧ error.IsRejection ∧ error.isPartial = false ∧
        ¬executor.Accepts := by
  have keepsName : ∀ model, (edit.apply source model).1.name = model.name :=
    fun _ => TargetEdit.name_apply _ _ _
  unfold propagate
  rw [Step.bind_of_ok (lift_get_run executor holds edit.target)]
  simp only
  split
  · -- The target is there: its columns are added first, and only then its definition is rewritten.
    rcases runBatch_run executor holds source edit.columns with
      ⟨ran, applied, follows, -⟩ | ⟨error, ran, refused, follows, rejected, whole, rejects⟩
    · rw [Step.bind_of_ok applied]
      obtain ⟨after, amended, later⟩ := amend_run executor configuration follows.store edit.target
        true keepsName
      rw [follows.now] at later
      exact Or.inl ⟨after, amended, follows.trans later⟩
    · rw [Step.bind_of_error refused]
      exact Or.inr ⟨error, ran, rfl, follows, rejected, whole, rejects⟩
  · -- A target that is missing has no table, so that there is no statement to be refused.
    obtain ⟨after, amended, later⟩ := amend_run executor configuration holds edit.target true
      keepsName
    exact Or.inl ⟨after, amended, later⟩

/-- Edits are applied in order up to the first whose statements are refused. -/
theorem propagateAll_run (source : String) (edits : List TargetEdit) :
    ∀ {progress : InProgress Database} {catalog : Catalog},
      progress.state.store = catalog.store →
      (∃ after, (registryWith executor configuration).propagateAll source edits progress =
          (.ok (), after) ∧
        Follows progress after (catalog.propagated source progress.state.now edits)) ∨
      ∃ error after done rest,
        (registryWith executor configuration).propagateAll source edits progress =
          (.error error, after) ∧ edits = done ++ rest ∧
        Follows progress after (catalog.propagated source progress.state.now done) ∧
          error.IsRejection ∧ error.isPartial = false ∧ ¬executor.Accepts := by
  -- The induction is on the edits still to come, for every place and every catalog they begin from.
  induction edits with
  | nil => exact fun {progress _} holds => Or.inl ⟨progress, rfl, holds, rfl, Nat.le_refl _⟩
  | cons first rest ih =>
    intro progress catalog holds
    unfold propagateAll
    rcases propagate_run executor configuration holds source first with
      ⟨middle, applied, follows⟩ | ⟨error, after, refused, follows, rejected, whole, rejects⟩
    · rw [Step.bind_of_ok applied]
      -- What comes after the first edit begins where it ended.
      rcases ih follows.store with
        ⟨after, ran, later⟩ | ⟨error, after, done, left, ran, same, later, rejected, whole, rejects⟩
      · rw [follows.now] at later
        exact Or.inl ⟨after, ran, follows.trans later⟩
      · rw [follows.now] at later
        exact Or.inr ⟨error, after, first :: done, left, ran, by rw [same]; rfl,
          follows.trans later, rejected, whole, rejects⟩
    · rw [Step.bind_of_error refused]
      -- A refused edit has changed nothing, and none of the later ones is tried.
      exact Or.inr ⟨error, after, [], first :: rest, rfl, rfl, follows, rejected, whole, rejects⟩

/-! ## The record of the model itself -/

/-- The own record is written last, unless its definition is stored already. -/
theorem storeOwn_run (holds : progress.state.store = catalog.store) {plan : WritePlan}
    {old : Option Record} (current : catalog.find? plan.definition.name = old)
    (guard : plan.expect = Expect.ofRecord old) :
    ∃ record after, (registryWith executor configuration).storeOwn plan old progress =
        (.ok record, after) ∧
      Follows progress after (catalog.renewed plan.definition progress.state.now) ∧
      (catalog.renewed plan.definition progress.state.now).find? plan.definition.name =
        some record := by
  -- Propagation has not touched the own record, so that what the plan expects is still there.
  have guarded : plan.expect.holds (catalog.find? plan.definition.name) = true := by
    rw [guard, current]
    exact Catalog.holds_ofRecord _
  have put := lift_put_run executor holds guarded
  have wrote : (catalog.written plan.definition progress.state.now).find? plan.definition.name =
      some (Store.successor (catalog.find? plan.definition.name) plan.definition
        progress.state.now) := by
    rw [Catalog.find?_written, if_pos rfl]
  unfold storeOwn Catalog.renewed Catalog.definition?
  rw [current]
  -- A record that is missing has no definition that could equal the planned one.
  cases old with
  | none =>
    simp only [Option.map_none, Option.any_none, Bool.false_eq_true, reduceIte]
    rw [Step.bind_of_ok put]
    exact ⟨_, _, rfl, ⟨rfl, rfl, Nat.le_add_right _ _⟩, wrote⟩
  -- An equal definition is not written again.
  | some record =>
    simp only [Option.map_some, Option.any_some]
    split
    · exact ⟨record, progress, rfl, ⟨holds, rfl, Nat.le_refl _⟩, current⟩
    · rw [Step.bind_of_ok put]
      exact ⟨_, _, rfl, ⟨rfl, rfl, Nat.le_add_right _ _⟩, wrote⟩

end Registry

/-! ## Whole writes -/

/-- The context of the stored models. -/
def Configuration.context (configuration : Configuration) (catalog : Catalog) : Context :=
  ⟨configuration.system, catalog.models⟩

/-- The definition that a call declares: its fields, and the audit fields when they are wanted. -/
def Configuration.declared (configuration : Configuration) (name : String)
    (fields : List Field) : Model :=
  ⟨name, if configuration.auditFields then withAuditFields fields else fields⟩

/-- Carry out a plan: its edits, and then its definition. -/
def Catalog.applied (catalog : Catalog) (plan : WritePlan) (now : Nat) : Catalog :=
  (catalog.propagated plan.model now plan.edits).renewed plan.definition now

/-- A plan to write a definition over what a catalog holds under its name. -/
structure WritePlan.Fits (plan : WritePlan) (catalog : Catalog) : Prop where
  named : plan.definition.name = plan.model
  apart : plan.model ∉ plan.edits.map TargetEdit.target
  guard : plan.expect = Expect.ofRecord (catalog.find? plan.model)
  builds : plan.statements ≠ []

/-- The edits of a plan lead from its model to others of the catalog. -/
theorem WritePlan.notMem_targets_of_plain {context : Context} {source : Model}
    {removed : List Field} {edits : List TargetEdit}
    (plain : edits.map TargetEdit.plain = drafts context source removed) :
    source.name ∉ edits.map TargetEdit.target := by
  -- The statements make no difference to where the edits lead.
  have targets : edits.map TargetEdit.target =
      (drafts context source removed).map TargetEdit.target := by
    rw [← plain, List.map_map]
    rfl
  rw [targets]
  intro listed
  obtain ⟨edit, drafted, same⟩ := List.mem_map.mp listed
  exact (of_mem_drafts drafted).2.1 same

/-- A plan that was made for a name fits what is stored under it. -/
theorem WritePlan.fits_of_planWrite {configuration : Configuration} {catalog : Catalog}
    {definition : Model} {plan : WritePlan}
    (planned : (configuration.context catalog).planWrite (catalog.find? definition.name)
      definition = .ok plan) : plan.Fits catalog ∧ plan.model = definition.name := by
  -- Resolution keeps the name, and the plan guards the version that it was made over.
  obtain ⟨resolved, drops, synthesis, columns, edits, valid, done, -, -, -, -, propagated, rfl⟩ :=
    planWrite_eq_ok.mp planned
  have named := Context.name_of_resolve (Model.admitted_of_validate valid).distinct done
  refine ⟨⟨rfl, notMem_targets_of_plain (plain_of_propagation propagated), ?_, by simp⟩, named⟩
  rw [named]

namespace InProgress

variable (executor : Executor) {α : Type}

/-- An operation under the eyes of the journal begins without effects on the records, and ends with
what its work has made of them. -/
theorem journaled_run (database : Database) (model : String) (kind : OperationKind)
    (work : Step (InProgress Database) α) :
    ∃ begun : InProgress Database, begun.state.store = database.store ∧
      begun.state.now = database.now ∧ begun.operation.completedSteps = 0 ∧
      (∀ value after, work begun = (.ok value, after) →
        ∃ final, journaled (Database.backendWith executor) model kind work database =
          (.ok value, final) ∧ final.store = after.state.store ∧ final.now = after.state.now) ∧
      ∀ error after, work begun = (.error error, after) →
        ∃ final, journaled (Database.backendWith executor) model kind work database =
          (.error (failure after.operation error), final) ∧ final.store = after.state.store ∧
            final.now = after.state.now := by
  have begins : (Database.backendWith executor).begin model kind database =
      Database.begin model kind database := rfl
  refine ⟨⟨(Database.begin model kind database).1, (Database.begin model kind database).2⟩, rfl,
    rfl, rfl, ?_, ?_⟩
  · -- The entry of an operation that is done goes, and that of one that failed stays with its
    -- message.
    intro value after done
    refine ⟨(Database.backendWith executor).remove after.operation.id after.state, ?_, rfl, rfl⟩
    simp only [journaled, begins, done]
  · intro error after failed
    refine ⟨(Database.backendWith executor).save (after.operation.fail error.message) after.state,
      ?_, rfl, rfl⟩
    simp only [journaled, begins, failed]

/-- The error of a failed operation tells of a refused statement when that of its work does. -/
theorem isRejection_failure {operation : Operation} {error : Error}
    (rejected : error.IsRejection) : (failure operation error).IsRejection := by
  -- A refusal in part carries the error of the statement inside, which still tells of it.
  unfold failure
  split
  · exact rejected
  · exact rejected

/-- An operation fails in part when it has counted steps. -/
theorem completedSteps_of_isPartial_failure {operation : Operation} {error : Error}
    (whole : (failure operation error).isPartial = false) : operation.completedSteps = 0 := by
  -- Without a step counted the error is passed on as it is, and with one it becomes partial.
  unfold failure at whole
  split at whole
  · assumption
  · cases whole

end InProgress

namespace Registry

variable (executor : Executor) (configuration : Configuration)

/-- A plan is carried out, or its edits up to the first whose statements are refused. -/
theorem applyWrite_run {progress : InProgress Database} {catalog : Catalog}
    (holds : progress.state.store = catalog.store) {plan : WritePlan} (fits : plan.Fits catalog) :
    (∃ record after, (registryWith executor configuration).applyWrite plan
          (catalog.find? plan.model) progress = (.ok record, after) ∧
        Follows progress after (catalog.applied plan progress.state.now) ∧
        (catalog.applied plan progress.state.now).find? plan.model = some record) ∨
    ∃ error after done rest, (registryWith executor configuration).applyWrite plan
          (catalog.find? plan.model) progress = (.error error, after) ∧
        plan.edits = done ++ rest ∧
        Follows progress after (catalog.propagated plan.model progress.state.now done) ∧
        (after.operation.completedSteps = 0 → done = []) ∧ error.IsRejection ∧
        ¬executor.Accepts := by
  unfold applyWrite
  obtain ⟨applying, began, first, -⟩ := setStatus_run executor holds .applying
  rw [Step.bind_of_ok began]
  rcases runBatch_run executor first.store plan.model plan.statements with
    ⟨built, ran, second, counted⟩ | ⟨error, after, refused, second, rejected, -, rejects⟩
  · rw [Step.bind_of_ok ran]
    -- From here on steps are counted, since there are statements in every plan.
    have counts : 1 ≤ built.operation.completedSteps := by
      have some : 1 ≤ plan.statements.length := List.length_pos_iff.mpr fits.builds
      omega
    have reached := first.trans second
    obtain ⟨propagating, went, third, -⟩ := setStatus_run executor second.store .propagating
    rw [Step.bind_of_ok went]
    rcases propagateAll_run executor configuration plan.model plan.edits third.store with
      ⟨edited, applied, fourth⟩ | ⟨error, after, done, rest, failed, same, fourth, rejected, -,
        rejects⟩
    · rw [Step.bind_of_ok applied]
      -- No edit leads back to the source, whose record is as the plan expects it.
      have current : (catalog.propagated plan.model propagating.state.now plan.edits).find?
          plan.definition.name = catalog.find? plan.model := by
        rw [fits.named]
        exact Catalog.find?_propagated_of_notMem fits.apart
      obtain ⟨record, stored, kept, fifth, found⟩ := storeOwn_run executor configuration
        fourth.store current fits.guard
      rw [Step.bind_of_ok kept]
      -- All five parts happen at one time, since only the caller moves the clock.
      have times := ((reached.trans third).trans fourth).now
      have follows := (((reached.trans third).trans fourth).trans fifth)
      rw [times] at follows found
      rw [(reached.trans third).now] at follows found
      rw [fits.named] at found
      exact Or.inl ⟨record, stored, rfl, follows, found⟩
    · rw [Step.bind_of_error failed]
      have follows := (reached.trans third).trans fourth
      rw [(reached.trans third).now] at follows
      refine Or.inr ⟨error, after, done, rest, rfl, same, follows, ?_, rejected, rejects⟩
      -- The own statements are counted by now, which leaves this case only to a whole failure.
      intro none
      have later := Nat.le_trans (Nat.le_trans counts third.steps) fourth.steps
      omega
  · rw [Step.bind_of_error refused]
    -- The own statements are refused, before any edit was tried.
    exact Or.inr ⟨error, after, [], plan.edits, rfl, rfl, first.trans second, fun _ => rfl,
      rejected, rejects⟩

variable {database : Database} {catalog : Catalog}

/-- A registry reads the records of a catalog in a state, which it leaves as it is. -/
structure Shows {σ : Type} (registry : Registry σ) (state : σ) (catalog : Catalog) : Prop where
  get : ∀ name, registry.backend.get name state = (.ok (catalog.find? name), state)
  listAll : registry.backend.listAll state = (.ok catalog.members, state)

/-- A registry on a database reads the records that it holds. -/
theorem shows_database (holds : database.store = catalog.store) :
    (registryWith executor configuration).Shows database catalog := by
  -- Reading is reading from the records, whatever executes the statements.
  refine ⟨fun name => ?_, ?_⟩
  · show Database.get _ _ = _
    rw [Database.get, holds, Catalog.get_store]
  · show Database.listAll _ = _
    rw [Database.listAll, holds, Catalog.listAll_store]

namespace Shows

variable {σ : Type} {registry : Registry σ} {state : σ}

/-- Reading all definitions changes nothing. -/
theorem knownModels (shows : registry.Shows state catalog) :
    registry.knownModels state = (.ok catalog.models, state) := by
  -- The records are filed under their names, as they are in the catalog.
  rw [Registry.knownModels, Step.bind_of_ok shows.listAll, Catalog.ofList_definitions]
  rfl

/-- The stored version is read at the first attempt, since no one else writes. -/
theorem tryLockForWrite (shows : registry.Shows state catalog) (definition : Model) :
    registry.tryLockForWrite definition state =
      (.ok (.ok (catalog.find? definition.name)), state) := by
  have read := shows.get definition.name
  unfold Registry.tryLockForWrite
  rw [Step.bind_of_ok read, Step.bind_of_ok read]
  cases stored : catalog.find? definition.name with
  -- There is nothing to be locked for a version that is not there.
  | none => rfl
  | some record =>
    -- The names that were secured are those of the version that is read again.
    have covered : (writeSet registry.configuration.system definition (some record)).covers
        (relatedModels registry.configuration.system record.definition).members = true := by
      rw [NameSet.covers, List.all_eq_true]
      intro name related
      exact (Roster.contains_insertAll _ _ _).mpr (Or.inl related)
    simp only [covered, reduceIte]
    rfl

end Shows

/-- A call to write may go on to planning: its name is an identifier, and its model is there if it
has to be. -/
structure Allowed (catalog : Catalog) (name : String) (mustExist : Bool) : Prop where
  identifier : isIdentifier name = true
  present : mustExist = true → (catalog.find? name).isSome = true

/-- What a call to write has found out before it begins: why it is refused, or its plan. -/
def preparedWrite (configuration : Configuration) (catalog : Catalog) (name : String)
    (fields : List Field) (mustExist : Bool) : Except Error WritePlan := do
  let _ ← Identifier.checkAt (some ⟨name, none⟩) name
  if mustExist && (catalog.find? name).isNone then throw (.notFound name)
  (configuration.context catalog).planWrite (catalog.find? name)
    (configuration.declared name fields)

/-- A write is prepared when it is allowed and planned. -/
theorem preparedWrite_eq_ok {name : String} {fields : List Field} {mustExist : Bool}
    {plan : WritePlan} :
    preparedWrite configuration catalog name fields mustExist = .ok plan ↔
      Allowed catalog name mustExist ∧
      (configuration.context catalog).planWrite (catalog.find? name)
        (configuration.declared name fields) = .ok plan := by
  unfold preparedWrite
  rw [Outcome.bind_eq_ok]
  constructor
  · rintro ⟨admitted, checked, prepared⟩
    -- The name was admitted, and the call was not turned away for want of the model.
    have identifier := (Identifier.checkAt_eq_ok.mp checked).1
    split at prepared
    · cases prepared
    · rename_i present
      refine ⟨⟨identifier, fun must => ?_⟩, prepared⟩
      rw [must, Bool.true_and, Bool.not_eq_true, Option.isNone_eq_false_iff] at present
      exact present
  · -- Conversely both checks pass.
    rintro ⟨allowed, planned⟩
    obtain ⟨admitted, checked⟩ : ∃ admitted,
        Identifier.checkAt (some ⟨name, none⟩) name = .ok admitted :=
      Identifier.exists_checkAt_eq_ok.mpr allowed.identifier
    refine ⟨admitted, checked, ?_⟩
    -- A call to update is not turned away, since its model is there.
    have present : ¬(mustExist && (catalog.find? name).isNone) = true := by
      intro missing
      rw [Bool.and_eq_true, Option.isNone_iff_eq_none] at missing
      have there := allowed.present missing.1
      rw [missing.2] at there
      cases there
    rw [if_neg present]
    exact planned

/-- A write that cannot be prepared is refused before anything is tried. -/
theorem planning_preparedWrite (name : String) (fields : List Field) (mustExist : Bool) :
    Planning (preparedWrite configuration catalog name fields mustExist) := by
  -- Neither the name, nor a missing model, nor a plan tells of a statement.
  refine .bind (Identifier.planning_checkAt _ _) fun _ => ?_
  dsimp only
  split
  · exact .throw trivial
  · exact Context.planning_planWrite _ _ _

/-- A call to write reads, and then it is refused or carries out its plan. -/
theorem Shows.write {σ : Type} {registry : Registry σ} {state : σ}
    (shows : registry.Shows state catalog) (name : String) (fields : List Field)
    (mustExist : Bool) :
    registry.write name fields mustExist state =
      match preparedWrite registry.configuration catalog name fields mustExist with
      | .error error => (.error error, state)
      | .ok plan =>
        journaled registry.backend name
          (if (catalog.find? name).isSome then .update else .define)
          (registry.applyWrite plan (catalog.find? name)) state := by
  unfold preparedWrite
  cases checked : Identifier.checkAt (some ⟨name, none⟩) name with
  | error error => exact Step.bind_of_error (congrArg (·, state) checked)
  | ok admitted =>
    have locked := shows.tryLockForWrite (registry.configuration.declared name fields)
    -- The name is admitted and the stored version was read: what is left is to plan and to run.
    have reads : registry.write name fields mustExist state =
        (if mustExist && (catalog.find? name).isNone then .fail (.notFound name)
        else (do
          let known ← registry.knownModels
          let plan ← .ofExcept (Context.planWrite ⟨registry.configuration.system, known⟩
            (catalog.find? name) (registry.configuration.declared name fields))
          journaled registry.backend name
            (if (catalog.find? name).isSome then .update else .define)
            (registry.applyWrite plan (catalog.find? name))) : Step σ Record) state :=
      (Step.bind_of_ok (congrArg (·, state) checked)).trans
        (Step.bind_of_ok (Step.retrying_of_ok locked _))
    rw [reads]
    -- What is missing is refused, and everything else is planned.
    cases missing : mustExist && (catalog.find? name).isNone with
    | true => rfl
    | false =>
      simp only [Bool.false_eq_true, reduceIte]
      rw [Step.bind_of_ok shows.knownModels]
      simp only [bind, Except.bind]
      rw [show (⟨registry.configuration.system, catalog.models⟩ : Context) =
        registry.configuration.context catalog from rfl]
      cases planned : (registry.configuration.context catalog).planWrite (catalog.find? name)
          (registry.configuration.declared name fields) with
      | error error => exact Step.bind_of_error rfl
      | ok plan => exact Step.bind_of_ok rfl

/-- A planned write is carried out, or its edits up to the first whose statements are refused. -/
theorem write_of_planned (holds : database.store = catalog.store) {name : String}
    {fields : List Field} {mustExist : Bool} {plan : WritePlan}
    (allowed : Allowed catalog name mustExist)
    (planned : (configuration.context catalog).planWrite (catalog.find? name)
      (configuration.declared name fields) = .ok plan) :
    (∃ record final, (registryWith executor configuration).write name fields mustExist database =
          (.ok record, final) ∧ final.now = database.now ∧
        final.store = (catalog.applied plan database.now).store ∧
        (catalog.applied plan database.now).find? name = some record) ∨
    ∃ error final done rest,
      (registryWith executor configuration).write name fields mustExist database =
          (.error error, final) ∧ final.now = database.now ∧ plan.edits = done ++ rest ∧
        final.store = (catalog.propagated name database.now done).store ∧
        (error.isPartial = false → done = []) ∧ error.IsRejection ∧ ¬executor.Accepts := by
  -- The plan is of the record that is stored, which is what the run of its steps asks for.
  obtain ⟨fits, own⟩ := WritePlan.fits_of_planWrite planned
  have own : plan.model = name := own
  have works : (registryWith executor configuration).write name fields mustExist database =
      journaled (Database.backendWith executor) name
        (if (catalog.find? name).isSome then .update else .define)
        ((registryWith executor configuration).applyWrite plan (catalog.find? name)) database := by
    rw [(shows_database executor configuration holds).write,
      (preparedWrite_eq_ok configuration).mpr ⟨allowed, planned⟩]
  obtain ⟨begun, stored, times, none, completes, stops⟩ := journaled_run executor database name
    (if (catalog.find? name).isSome then .update else .define)
    ((registryWith executor configuration).applyWrite plan (catalog.find? name))
  rw [works]
  rw [← own] at completes stops ⊢
  rcases applyWrite_run executor configuration (stored.trans holds) fits with
    ⟨record, after, ran, follows, found⟩ |
    ⟨error, after, done, rest, ran, same, follows, whole, rejected, rejects⟩
  · -- The journal keeps what the work has made of the store, at the time that it began.
    obtain ⟨final, done, kept, time⟩ := completes record after ran
    rw [times] at follows found
    exact Or.inl ⟨record, final, done, time.trans (follows.now.trans times),
      kept.trans follows.store, found⟩
  · -- The journal keeps the edits that were made before the refusal, and nothing of what follows.
    obtain ⟨final, failed, kept, time⟩ := stops error after ran
    rw [times] at follows
    exact Or.inr ⟨_, final, done, rest, failed, time.trans (follows.now.trans times), same,
      kept.trans follows.store,
      fun none => whole (completedSteps_of_isPartial_failure none),
      isRejection_failure rejected, rejects⟩

/-- A write is refused before anything is done, or it is planned. -/
theorem write_cases (holds : database.store = catalog.store) (name : String)
    (fields : List Field) (mustExist : Bool) :
    (∃ error, (registryWith executor configuration).write name fields mustExist database =
        (.error error, database) ∧ ¬error.IsRejection) ∨
      Allowed catalog name mustExist ∧ ∃ plan,
        (configuration.context catalog).planWrite (catalog.find? name)
          (configuration.declared name fields) = .ok plan := by
  -- Preparation decides: what it refuses is refused at once, and what it makes is a plan.
  have begins := (shows_database executor configuration holds).write name fields mustExist
  cases prepared : preparedWrite configuration catalog name fields mustExist with
  | ok plan =>
    obtain ⟨allowed, planned⟩ := (preparedWrite_eq_ok configuration).mp prepared
    exact Or.inr ⟨allowed, plan, planned⟩
  | error error =>
    rw [prepared] at begins
    exact Or.inl ⟨error, begins,
      (planning_preparedWrite configuration name fields mustExist error prepared).not_isRejection⟩

end Registry

end ModelCatalog
