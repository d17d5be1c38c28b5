import ModelCatalog.Proofs.Rejection
import ModelCatalog.Proofs.Tally

/-! Accounting: the error of a call tells exactly what the call leaves behind. -/

namespace ModelCatalog

open InProgress

/-! ## Whole operations -/

namespace Registry

variable {executor : Executor} {configuration : Configuration} {name source : String}
  {createMissing : Bool} {change : Model → Model × Bool}

/-- The attempt writes the record of this name at most, and counts that; when it is void or fails
it leaves everything as it was. -/
def CountsAttempt (name : String) (attempt : Step (InProgress Database) (Except Error Unit)) :
    Prop :=
  ∀ progress,
    (∃ after written, attempt progress = (.ok (.ok ()), after) ∧
      Counts progress after [] written ∧ written ⊆ [name]) ∨
    ∃ error, error.Interrupts ∧ (attempt progress = (.ok (.error error), progress) ∨
      attempt progress = (.error error, progress))

/-- However often it is attempted, what is written at most once is counted. -/
theorem CountsAttempt.retrying {attempt : Step (InProgress Database) (Except Error Unit)}
    (counts : CountsAttempt name attempt) (times : Nat) :
    Counted [name] (Step.retrying attempt times) := by
  intro progress
  -- A void attempt leaves the operation where it was, so the next one begins from there.
  rcases counts progress with
    ⟨after, written, done, counts, inside⟩ | ⟨error, interrupts, void | failed⟩
  · rw [Step.retrying_of_ok done]
    exact .ok counts inside
  · rw [Step.retrying_of_void void]
    exact .error interrupts _ _
  · rw [Step.retrying_of_error failed]
    exact .error interrupts _ _

/-- A definition that was read is changed by one write, or by none when the change has no effect. -/
theorem changeRead_counted (keepsName : ∀ model, (change model).1.name = model.name)
    {before : Model} (own : before.name = name) (expect : Expect) :
    CountsAttempt name (changeRead (Database.backendWith executor) change before expect) := by
  intro progress
  cases effective : (change before).2 with
  | false =>
    -- A change without effect writes nothing.
    refine Or.inl ⟨progress, [], ?_, Counts.refl progress, List.nil_subset _⟩
    simp only [changeRead, effective, Bool.false_eq_true, reduceIte]
    rfl
  | true =>
    simp only [changeRead, effective, reduceIte]
    rcases lift_put_cases (change before).1 expect progress with
      ⟨error, failed, interrupts⟩ | ⟨record, state, wrote, counts⟩
    · -- A write that comes too late makes the attempt void, and any other failure ends it.
      rw [Step.bind_of_ok (Step.outcome_run failed)]
      refine Or.inr ⟨error, interrupts, ?_⟩
      simp only
      split
      · exact Or.inl rfl
      · exact Or.inr rfl
    · -- The write went through, and it is counted by the one step that follows.
      rw [Step.bind_of_ok (Step.outcome_run wrote)]
      refine Or.inl ⟨_, [name], rfl, ?_, List.Subset.refl _⟩
      rw [keepsName, own] at counts
      exact ⟨counts.applied, counts.steps, counts.distinct, counts.changed⟩

/-- An attempt to change a definition counts its write; one that is void or fails does nothing. -/
theorem tryAmend_counted (keepsName : ∀ model, (change model).1.name = model.name) :
    CountsAttempt name
      ((registryWith executor configuration).tryAmend name createMissing change) := by
  -- The attempt begins by reading the definition, and only an intact one can be changed.
  intro progress
  unfold tryAmend
  cases read : progress.state.store.get name with
  -- A record that cannot be read ends the attempt.
  | error error =>
    have failed : lift ((Database.backendWith executor).get name) progress =
        (.error error, progress) := by
      show lift (Database.get name) progress = _
      rw [lift, Database.get, read]
    exact Or.inr ⟨error, Store.interrupts_get read, Or.inr (Step.bind_of_error failed)⟩
  | ok current =>
    have found : lift ((Database.backendWith executor).get name) progress =
        (.ok current, progress) := by
      show lift (Database.get name) progress = _
      rw [lift, Database.get, read]
    have reads : (lift ((registryWith executor configuration).backend.get name)) progress =
        (.ok current, progress) := found
    rw [Step.bind_of_ok reads]
    -- A definition that is missing is changed from an empty one, where that is asked for.
    cases current with
    | some record =>
      have own : record.name = name := Roster.name_of_find? (Store.find?_of_get read)
      exact changeRead_counted keepsName own (.version record.version) progress
    | none =>
      -- A missing definition that is not to be made is left alone.
      cases createMissing with
      | true =>
        exact changeRead_counted keepsName (show Model.name ⟨name, []⟩ = name from rfl) .absent
          progress
      | false => exact Or.inl ⟨progress, [], rfl, Counts.refl progress, List.nil_subset _⟩

/-- A definition is changed once, however often it is attempted. -/
theorem amend_counted (keepsName : ∀ model, (change model).1.name = model.name) :
    Counted [name]
      ((registryWith executor configuration).amend name createMissing change) :=
  -- An attempt that is repeated has changed nothing, so only the last one counts.
  (tryAmend_counted keepsName).retrying _

/-- The edit of a target is counted. -/
theorem propagate_counted (honest : executor.Honest) (edit : TargetEdit) :
    Counted [edit.target]
      ((registryWith executor configuration).propagate source edit) := by
  have amends := @amend_counted executor configuration edit.target true (edit.apply source)
    fun _ => TargetEdit.name_apply _ _ _
  -- Columns are added only to a target that is stored; its definition is changed in any case.
  unfold propagate
  refine Counted.bind_nil (lift_get_counted edit.target) fun found => ?_
  dsimp only
  split
  · exact Counted.bind_nil (runBatch_counted honest _ _) fun _ => amends
  · exact amends

/-- The edits of different targets are counted. -/
theorem propagateAll_counted (honest : executor.Honest) {edits : List TargetEdit}
    (distinct : (edits.map TargetEdit.target).Nodup) :
    Counted (edits.map TargetEdit.target)
      ((registryWith executor configuration).propagateAll source edits) := by
  -- The targets are different, so no record is counted for two edits.
  induction edits with
  | nil => exact Counted.pure ()
  | cons first rest ih =>
    rw [List.map_cons, List.nodup_cons] at distinct
    exact (propagate_counted honest first).bind (fun _ => ih distinct.2)
      (List.singleton_disjoint.mpr distinct.1)

/-- The write of the own record is counted. -/
theorem storeOwn_counted (plan : WritePlan) (old : Option Record) :
    Counted [plan.definition.name]
      ((registryWith executor configuration).storeOwn plan old) := by
  -- A definition that is stored already as planned is not written again.
  -- To write is to store the record and to count it.
  have writes : Counted [plan.definition.name] (do
      let record ← lift ((Database.backendWith executor).put plan.definition plan.expect)
      advance 1
      return record : Step (InProgress Database) Record) := by
    intro progress
    rcases lift_put_cases plan.definition plan.expect progress with
      ⟨error, failed, interrupts⟩ | ⟨record, state, wrote, counts⟩
    · rw [Step.bind_of_error failed]
      exact .error interrupts _ _
    · rw [Step.bind_of_ok wrote]
      exact .ok counts (List.Subset.refl _)
  -- Without an old version it is written, and with one when the two differ.
  unfold storeOwn
  cases old with
  | none => exact writes
  | some record =>
    dsimp only
    split
    · exact (Counted.pure record).mono (List.nil_subset _)
    · exact writes

/-- Everything that a plan to write does is counted. -/
theorem applyWrite_counted (honest : executor.Honest) {plan : WritePlan}
    (distinct : (plan.edits.map TargetEdit.target).Nodup)
    (apart : plan.definition.name ∉ plan.edits.map TargetEdit.target) (old : Option Record) :
    Counted (plan.edits.map TargetEdit.target ++ ([plan.definition.name] ++ []))
      ((registryWith executor configuration).applyWrite plan old) := by
  have flushes : Counted [] (lift (Database.backendWith executor).flush) :=
    .quiet (fun progress error failed => by cases failed) fun progress => ⟨rfl, rfl, rfl⟩
  -- The phases of the write in order: of these only the edits and the own record change records,
  -- and the model is no target of its own edits.
  exact Counted.bind_nil (setStatus_counted _) fun _ =>
    Counted.bind_nil (runBatch_counted honest _ _) fun _ =>
    Counted.bind_nil (setStatus_counted _) fun _ =>
    Counted.bind (propagateAll_counted honest distinct) (fun _ =>
      Counted.bind (storeOwn_counted plan old) (fun _ =>
        Counted.bind_nil flushes fun _ => Counted.pure _) (List.disjoint_nil_right _))
      (by simpa using apart)

/-- The relations that are taken away from different models are counted. -/
theorem stripAll_counted {others : List String} (distinct : others.Nodup) :
    Counted others ((registryWith executor configuration).stripAll source others) := by
  -- As for edits, the models are different, so no record is counted twice.
  induction others with
  | nil => exact Counted.pure ()
  | cons first rest ih =>
    rw [List.nodup_cons] at distinct
    have amends := @amend_counted executor configuration first false (Model.stripChange source)
      fun _ => rfl
    exact amends.bind (fun _ => ih distinct.2) (List.singleton_disjoint.mpr distinct.1)

/-- Everything that a plan to delete does is counted. -/
theorem applyDelete_counted (honest : executor.Honest) {plan : DeletePlan} {version : Nat}
    (guard : plan.expect = .version version) (distinct : plan.referencing.Nodup)
    (apart : plan.model ∉ plan.referencing) :
    Counted (plan.referencing ++ [plan.model])
      ((registryWith executor configuration).applyDelete plan) := by
  -- To delete is to remove the record, to count it and to flush.
  have deletes : Counted [plan.model] (do
      lift ((Database.backendWith executor).delete plan.model plan.expect)
      advance 1
      lift (Database.backendWith executor).flush : Step (InProgress Database) Unit) := by
    intro progress
    rw [guard]
    rcases lift_delete_cases plan.model version progress with
      ⟨error, failed, interrupts⟩ | ⟨state, gone, counts⟩
    · rw [Step.bind_of_error failed]
      exact .error interrupts _ _
    · rw [Step.bind_of_ok gone]
      exact .ok counts (List.Subset.refl _)
  -- The phases of the deletion in order; the model that goes is none of those that referred to it.
  exact Counted.bind_nil (setStatus_counted _) fun _ =>
    Counted.bind_nil (runBatch_counted honest _ _) fun _ =>
    Counted.bind_nil (setStatus_counted _) fun _ =>
    Counted.bind (stripAll_counted distinct) (fun _ => deletes) (by simpa using apart)

/-- The writes of different repaired definitions are counted. -/
theorem writeRepaired_counted {updates : List (Model × Nat)}
    (distinct : (updates.map fun update => update.1.name).Nodup) :
    Counted (updates.map fun update => update.1.name)
      ((registryWith executor configuration).writeRepaired updates) := by
  -- The induction is on the updates; a write that fails leaves the rest undone.
  induction updates with
  | nil => exact Counted.pure ()
  | cons first rest ih =>
    obtain ⟨definition, version⟩ := first
    rw [List.map_cons, List.nodup_cons] at distinct
    intro progress
    rcases lift_put_cases definition (.version version) progress with
      ⟨error, failed, interrupts⟩ | ⟨record, state, wrote, counts⟩
    · have stops : (registryWith executor configuration).writeRepaired
          ((definition, version) :: rest) progress = (.error error, progress) :=
        Step.bind_of_error failed
      rw [stops]
      exact .error interrupts _ _
    · -- The rest goes on where the first write has been counted.
      obtain ⟨sql, written, later, inside, stops⟩ :=
        ih distinct.2 ⟨progress.operation.advance 1, state⟩
      have runs : (registryWith executor configuration).writeRepaired
          ((definition, version) :: rest) progress =
          (registryWith executor configuration).writeRepaired rest
            ⟨progress.operation.advance 1, state⟩ := Step.bind_of_ok wrote
      rw [runs]
      refine ⟨[] ++ sql, [definition.name] ++ written, counts.trans later ?_, ?_, stops⟩
      · exact List.singleton_disjoint.mpr fun listed => distinct.1 (inside listed)
      · exact List.cons_subset_cons _ inside

/-- Everything that a repair does is counted. -/
theorem applyRepair_counted (honest : executor.Honest) {plan : RepairPlan}
    (distinct : (plan.updates.map fun update => update.1.name).Nodup) :
    Counted ((plan.updates.map fun update => update.1.name) ++ [])
      ((registryWith executor configuration).applyRepair plan) := by
  -- Flushing neither fails nor changes anything that is counted.
  have flushes : Counted [] (lift (Database.backendWith executor).flush) :=
    .quiet (fun progress error failed => by cases failed) fun progress => ⟨rfl, rfl, rfl⟩
  -- The phases of the repair in order; only the repaired definitions change records.
  exact Counted.bind_nil (setStatus_counted _) fun _ =>
    Counted.bind_nil (runBatch_counted honest _ _) fun _ =>
    Counted.bind_nil (setStatus_counted _) fun _ =>
    Counted.bind (writeRepaired_counted distinct) (fun _ =>
      Counted.bind_nil flushes fun _ =>
      Counted.bind_nil
        (.quiet (fun progress error failed => by cases failed) fun progress => ⟨rfl, rfl, rfl⟩)
        fun _ => Counted.pure _)
      (List.disjoint_nil_right _)

end Registry

/-! ## Calls -/

namespace Error

/-- The error tells what a call has left behind: with no effects told of there are none, and
otherwise they are as many statements and records as it says; a mistake in the call leaves not even
an entry in the journal. -/
structure Accounts (error : Error) (before after : Database) : Prop where
  whole : error.isPartial = false →
    after.store = before.store ∧ after.recorder.applied = before.recorder.applied
  partway : ∀ model operation steps cause, error = .partway model operation steps cause →
    0 < steps ∧ ∃ sql, after.recorder.applied = before.recorder.applied ++ sql ∧
      steps = sql.length + (before.store.differing after.store).length
  mistaken : error.kind.isMistake = true → after.journal = before.journal

/-- A refusal accounts for a call that has done nothing. -/
theorem IsRefusal.accounts {error : Error} (refusal : error.IsRefusal) (database : Database) :
    error.Accounts database database := by
  -- Nothing has changed, and a refusal is never an error that tells of steps.
  refine ⟨fun _ => ⟨rfl, rfl⟩, fun model operation steps cause same => ?_, fun _ => rfl⟩
  rw [same] at refusal
  exact refusal.elim

/-- An error that can stop work under way is no mistake in the call, also when it tells of
effects. -/
theorem Interrupts.failure_unmistaken {cause : Error} (interrupts : cause.Interrupts)
    (operation : Operation) :
    (InProgress.failure operation cause).kind.isMistake = false := by
  -- The error is the cause itself, or one that tells of effects and is no mistake either.
  unfold InProgress.failure
  split <;> exact interrupts.unmistaken

end Error

/-- The error an operation ends with accounts for what it has counted since it began. -/
theorem InProgress.Counts.accounts {begun stopped : InProgress Database}
    {sql written : List String} {cause : Error} (counts : Counts begun stopped sql written)
    (fresh : begun.operation.completedSteps = 0) (interrupts : cause.Interrupts) :
    (failure stopped.operation cause).Accounts begun.state stopped.state := by
  -- An operation begins with no steps counted.
  have steps : stopped.operation.completedSteps = sql.length + written.length := by
    rw [counts.steps, fresh, Nat.zero_add]
  refine ⟨fun whole => ?_, fun model operation number inner same => ?_, fun mistaken => ?_⟩
  · -- No steps were counted, so there was nothing to count.
    have nothing := steps.symm.trans (completedSteps_of_isPartial_failure whole)
    obtain ⟨noSql, noneWritten⟩ := Nat.add_eq_zero_iff.mp nothing
    have applied := counts.applied
    rw [List.length_eq_zero_iff.mp noSql, List.append_nil] at applied
    refine ⟨(Roster.eq_of_find? fun name => ?_).symm, applied⟩
    by_contra differ
    have listed := (counts.changed name).mpr differ
    rw [List.length_eq_zero_iff.mp noneWritten] at listed
    cases listed
  · -- An error that tells of effects carries the count that the operation has reached.
    unfold failure at same
    split at same
    · -- A cause that is passed on as it is tells of no effects.
      have whole := interrupts.whole
      rw [same] at whole
      cases whole
    · rename_i some
      cases same
      refine ⟨Nat.pos_of_ne_zero some, sql, counts.applied, ?_⟩
      rw [steps, Store.length_differing counts.distinct counts.changed]
  · -- What can stop work under way is no mistake in the call.
    rw [interrupts.failure_unmistaken] at mistaken
    cases mistaken

namespace Step

variable {α β : Type}

/-- A database was only read on the way to an outcome: a value is good, and an error is a
refusal. -/
def ReadsTo (good : α → Prop) (database : Database) (outcome : Except Error α × Database) : Prop :=
  outcome.2 = database ∧ (∀ error, outcome.1 = .error error → error.IsRefusal) ∧
    ∀ value, outcome.1 = .ok value → good value

/-- A good value is a good outcome. -/
theorem ReadsTo.ok {good : α → Prop} {value : α} (isGood : good value) (database : Database) :
    ReadsTo good database (.ok value, database) := by
  -- The database is the same, and the value is good.
  refine ⟨rfl, fun error failed => ?_, fun other same => ?_⟩
  · cases failed
  · cases same
    exact isGood

/-- A refusal is a good outcome. -/
theorem ReadsTo.error {good : α → Prop} {error : Error} (refusal : error.IsRefusal)
    (database : Database) : ReadsTo good database (.error error, database) := by
  -- The database is the same, and the error is a refusal.
  refine ⟨rfl, fun other failed => ?_, fun value same => ?_⟩
  · cases failed
    exact refusal
  · cases same

/-- The step only reads, wherever it begins. -/
def Reads (step : Step Database α) (good : α → Prop) : Prop :=
  ∀ database, ReadsTo good database (step database)

/-- Whatever the step fails with tells what it has left behind. -/
def AccountedFrom (database : Database) (step : Step Database α) : Prop :=
  ∀ error after, step database = (.error error, after) → error.Accounts database after

namespace Reads

variable {step : Step Database α} {next : α → Step Database β} {good : α → Prop} {fine : β → Prop}

/-- A value is there without reading. -/
theorem pure {value : α} (isGood : good value) :
    (Pure.pure value : Step Database α).Reads good := ReadsTo.ok isGood

/-- A refusal is there without reading. -/
theorem fail {error : Error} (refusal : error.IsRefusal) :
    (Step.fail error : Step Database α).Reads good := ReadsTo.error refusal

/-- What is worked out without the state is there without reading. -/
theorem ofExcept {result : Except Error α} (planning : Planning result) :
    (Step.ofExcept result : Step Database α).Reads (result = .ok ·) :=
  -- The result does not depend on the database, which stays.
  fun _ => ⟨rfl, planning, fun _ done => done⟩

/-- Reading after reading is reading. -/
theorem bind (first : step.Reads good) (second : ∀ value, good value → (next value).Reads fine) :
    (step >>= next).Reads fine := by
  -- The first step leaves the database where it was, so the second begins there too.
  intro database
  obtain ⟨same, refuses, gives⟩ := first database
  cases read : step database with
  | mk result after =>
    rw [read] at same refuses gives
    cases same
    cases result with
    | ok value =>
      -- The next step begins with a value that is good.
      rw [Step.bind_of_ok read]
      exact second value (gives value rfl) after
    | error error =>
      -- A refusal ends the reading.
      rw [Step.bind_of_error read]
      exact .error (refuses error rfl) _

/-- A few attempts of reading are reading. -/
theorem retrying {attempt : Step Database (Except Error α)}
    (reads : attempt.Reads fun outcome =>
      Planning outcome ∧ ∀ value, outcome = .ok value → good value) (times : Nat) :
    (Step.retrying attempt times).Reads good := by
  intro database
  -- The attempt has left the database alone, whatever it gave.
  obtain ⟨same, refuses, gives⟩ := reads database
  cases attempted : attempt database with
  | mk result after =>
    rw [attempted] at same refuses gives
    cases same
    -- Whatever becomes of an attempt, the next one would begin where this one did.
    cases result with
    | error error =>
      rw [Step.retrying_of_error attempted]
      exact .error (refuses error rfl) _
    | ok outcome =>
      obtain ⟨planning, gives⟩ := gives outcome rfl
      cases outcome with
      | ok value =>
        rw [Step.retrying_of_ok attempted]
        exact .ok (gives value rfl) _
      | error error =>
        rw [Step.retrying_of_void attempted]
        exact .error (planning error rfl) _

end Reads

namespace AccountedFrom

variable {step : Step Database α} {next : α → Step Database β} {good : α → Prop}
  {database : Database}

/-- What only reads leaves nothing behind. -/
theorem ofReads (reads : step.Reads good) : step.AccountedFrom database := by
  -- The database is the one that was read, and the error is a refusal.
  intro error after failed
  obtain ⟨same, refuses, -⟩ := reads database
  rw [failed] at same refuses
  cases same
  exact (refuses error rfl).accounts _

/-- After reading, what comes next accounts for both. -/
theorem bind (reads : step.Reads good)
    (second : ∀ value, good value → (next value).AccountedFrom database) :
    (step >>= next).AccountedFrom database := by
  -- Reading leaves the database as it was, so the next step begins where reading began.
  obtain ⟨same, refuses, gives⟩ := reads database
  cases read : step database with
  | mk result after =>
    rw [read] at same refuses gives
    cases same
    intro error final failed
    cases result with
    | ok value =>
      -- The next step has to account for its own error.
      rw [Step.bind_of_ok read] at failed
      exact second value (gives value rfl) error final failed
    | error other =>
      -- An error of reading is a refusal, and there is nothing to account for.
      rw [Step.bind_of_error read] at failed
      cases failed
      exact (refuses _ rfl).accounts _

/-- An operation whose work counts what it does accounts for it when it fails. -/
theorem journaled {within : List String} {work : Step (InProgress Database) α}
    (counted : Counted within work) (model : String) (kind : OperationKind) :
    (InProgress.journaled Database.backend model kind work).AccountedFrom database := by
  intro error after failed
  -- The operation begins with no steps and with the records and statements of the database.
  let begun : InProgress Database :=
    ⟨(Database.begin model kind database).1, (Database.begin model kind database).2⟩
  obtain ⟨sql, written, counts, -, stops⟩ := counted begun
  have begins : Database.backend.begin model kind database =
      (begun.operation, begun.state) := rfl
  cases ended : work begun with
  | mk result stopped =>
    rw [ended] at counts stops
    simp only [InProgress.journaled, begins, ended] at failed
    cases result with
    | ok value => cases failed
    | error cause =>
      cases failed
      have interrupts := stops cause rfl
      have accounts := counts.accounts rfl interrupts
      -- The failed entry in the journal is the one thing that is not as the work left it.
      refine ⟨accounts.whole, accounts.partway, fun mistaken => ?_⟩
      rw [interrupts.failure_unmistaken] at mistaken
      cases mistaken

end AccountedFrom

end Step

namespace Registry

variable {configuration : Configuration}

/-- The services of a database read records without effect. -/
theorem reads_get (name : String) : (Database.backend.get name).Reads fun _ => True := by
  -- Only a damaged record makes reading fail.
  intro database
  refine ⟨rfl, fun error failed => ?_, fun _ _ => trivial⟩
  have failed : database.store.get name = .error error := failed
  unfold Store.get at failed
  split at failed
  · rename_i entry found
    cases entry with
    | intact record => cases failed
    | damaged damagedName =>
      cases failed
      trivial
  · cases failed

/-- The services of a database list records without effect. -/
theorem reads_listAll : Database.backend.listAll.Reads fun _ => True := by
  -- Listing fails with the error of some entry, which is then a damaged one.
  intro database
  refine ⟨rfl, fun error failed => ?_, fun _ _ => trivial⟩
  have failed : database.store.members.mapM Entry.read = .error error := failed
  obtain ⟨entry, -, unread⟩ := Outcome.exists_of_mapM_eq_error failed
  cases entry with
  | intact record => cases unread
  | damaged damagedName =>
    cases unread
    trivial

/-- The stored definitions are read without effect. -/
theorem reads_knownModels :
    (registryWith .recording configuration).knownModels.Reads fun _ => True :=
  -- All records are read, and the definitions are taken from them.
  reads_listAll.bind fun _ _ => .pure trivial

/-- The names for a write are secured without effect, or else the attempt is void. -/
theorem reads_tryLockForWrite (definition : Model) :
    ((registryWith .recording configuration).tryLockForWrite definition).Reads fun outcome =>
      Planning outcome ∧ ∀ value, outcome = .ok value → True := by
  -- The attempt is void when the second reading leads to models that the first did not.
  have void : (Error.transient definition.name .relationsChanging).IsRefusal := trivial
  refine (reads_get definition.name).bind fun _ _ =>
    (reads_get definition.name).bind fun current _ => ?_
  cases current with
  | none => exact .pure (And.intro (Planning.ok _) fun _ _ => trivial)
  | some record =>
    dsimp only
    split
    · exact .pure (And.intro (Planning.ok _) fun _ _ => trivial)
    · exact .pure (And.intro (Planning.error void) fun _ _ => trivial)

/-- A call to write accounts for what it leaves behind. -/
theorem write_accounted (database : Database) (name : String) (fields : List Field)
    (mustExist : Bool) :
    ((registryWith .recording configuration).write name fields mustExist).AccountedFrom
      database := by
  -- Until the plan stands the call only reads; from then on the operation counts.
  refine .bind (.ofExcept (Identifier.planning_checkAt _ _)) fun _ _ => ?_
  refine .bind (.retrying (reads_tryLockForWrite _) _) fun old _ => ?_
  dsimp only
  split
  · have refuses : (Error.notFound name).IsRefusal := trivial
    exact .ofReads (.fail refuses : Step.Reads _ fun _ => True)
  · refine .bind reads_knownModels fun known _ => ?_
    refine .bind (.ofExcept (Context.planning_planWrite _ _ _)) fun plan planned => ?_
    -- The edits lead from the model to others, each of them once.
    have sound :=
      WritePlan.sound_of_planWrite (show Context.planWrite _ _ _ = .ok plan from planned)
    exact .journaled (applyWrite_counted Executor.honest_recording sound.nodup_targets
      sound.notMem_targets old) _ _

/-- The plan of a deletion is made without effect, or else the attempt is void. -/
theorem reads_tryLockForDelete (name : String) :
    ((registryWith .recording configuration).tryLockForDelete name).Reads fun outcome =>
      Planning outcome ∧ ∀ plan, outcome = .ok plan →
        ∃ known record, DeletePlan.ofRecord known record = .ok plan := by
  -- A model that is not stored is a mistake of the caller's, which is a refusal.
  have reads_record : ((registryWith .recording configuration).record name).Reads
      fun _ => True := by
    refine (reads_get name).bind fun found _ => ?_
    cases found with
    | none => exact .fail trivial
    | some record => exact .pure trivial
  refine reads_knownModels.bind fun _ _ => reads_record.bind fun record _ =>
    reads_knownModels.bind fun known _ =>
      (Step.Reads.ofExcept (DeletePlan.planning_ofRecord _ _)).bind fun plan planned => ?_
  -- Whether the attempt is void or not, the plan was made from what was read last.
  split
  · refine .pure ⟨.ok _, fun other same => ?_⟩
    cases same
    exact ⟨known, record, planned⟩
  · exact .pure ⟨.error trivial, fun other same => by cases same⟩

/-- A call to delete accounts for what it leaves behind. -/
theorem delete_accounted (database : Database) (name : String) :
    ((registryWith .recording configuration).delete name).AccountedFrom database := by
  -- As for a write, everything before the operation only reads.
  refine .bind (.ofExcept (Identifier.planning_checkAt _ _)) fun _ _ => ?_
  refine .bind (.retrying (reads_tryLockForDelete _) _) fun plan planned => ?_
  obtain ⟨known, record, planned⟩ := planned
  obtain ⟨model, referencing, expect⟩ := DeletePlan.fits_of_ofRecord planned
  -- The models that refer to the record are others, each of them once.
  have distinct : plan.referencing.Nodup := by
    rw [referencing]
    exact (Roster.names_nodup known).sublist (List.filter_sublist.map Model.name)
  have apart : plan.model ∉ plan.referencing := by
    rw [referencing, model]
    intro listed
    obtain ⟨other, referring, same⟩ := List.mem_map.mp listed
    have differs := (List.mem_filter.mp referring).2
    simp [same] at differs
  exact .journaled (applyDelete_counted Executor.honest_recording expect distinct apart) _ _

/-- All records are read without effect, or else the attempt is void. -/
theorem reads_tryLockForReconcile :
    (registryWith .recording configuration).tryLockForReconcile.Reads fun outcome =>
      Planning outcome ∧ ∀ records, outcome = .ok records → True := by
  -- The names are listed before the records, and the attempt is void when a model came in between.
  have reads_names : (registryWith .recording configuration).names.Reads fun _ => True :=
    reads_listAll.bind fun _ _ => .pure trivial
  refine reads_names.bind fun _ _ => reads_listAll.bind fun _ _ => ?_
  split
  · exact .pure (And.intro (.ok _) fun _ _ => trivial)
  · exact .pure (And.intro (.error trivial) fun _ _ => trivial)

/-- A call to reconcile accounts for what it leaves behind. -/
theorem reconcile_accounted (database : Database) (reapplying : Bool) :
    ((registryWith .recording configuration).reconcile reapplying).AccountedFrom database := by
  -- Every record is repaired at most once, since the plan goes through them by name.
  refine .bind (.retrying reads_tryLockForReconcile _) fun records _ => ?_
  refine .bind (.ofExcept (RepairPlan.planning_ofRecords _ _ _)) fun plan planned => ?_
  have distinct : (plan.updates.map fun update => update.1.name).Nodup := by
    rw [RepairPlan.updates_of_ofRecords planned]
    exact RepairPlan.nodup_names_updated _ _ _
  exact .journaled (applyRepair_counted Executor.honest_recording distinct) _ _

end Registry

/-- A call that fails on the recording executor accounts for what it leaves behind, whatever the
database holds and whatever the rules of its executor: an error that tells of no effects leaves the
records and the applied statements alone, one that tells of effects gives their number, and a
mistake in the call leaves no trace in the journal either. -/
theorem Call.error_accounts {configuration : Configuration} {call : Call}
    {database after : Database} {error : Error}
    (failed : call.run (registryWith .recording configuration) database = (.error error, after)) :
    error.Accounts database after := by
  -- A value that a call discards makes no difference to how it fails.
  have discarding : ∀ {α : Type} {step : Step Database α}, step.AccountedFrom database →
      (do let _ ← step : Step Database Unit) database = (.error error, after) →
      error.Accounts database after := by
    intro α step accounted ran
    obtain ⟨outcome, ended, same⟩ := Step.of_discarded ran
    cases outcome with
    | ok value => cases same
    -- The error is the one that the step ended with.
    | error cause =>
      cases same
      exact accounted error after ended
  cases call with
  | change request =>
    -- To define and to update are writes, of which the call keeps the error alone.
    cases request with
    | define name fields =>
      exact discarding (Registry.write_accounted database name fields false) failed
    | update name fields =>
      exact discarding (Registry.write_accounted database name fields true) failed
    | delete name => exact Registry.delete_accounted database name error after failed
  | reconcile reapplying =>
    exact discarding (Registry.reconcile_accounted database reapplying) failed

/-- The change that stops at the table of notes has applied as many statements and written as many
records as its error says. -/
theorem Call.error_accounts_relating :
    (Call.change Reachable.relating).run (registryWith .recording .standard) Reachable.barred =
        (.error (.partway "Book" 3 3
          (.execution "Book" "Note" .addColumn 0 (.rejected "injected failure" none))),
          Reachable.halted.2) ∧
      0 < 3 ∧ ∃ sql,
        Reachable.halted.2.recorder.applied = Reachable.barred.recorder.applied ++ sql ∧
        3 = sql.length + (Reachable.barred.store.differing Reachable.halted.2.store).length := by
  -- This is how the change ends.
  have failed : (Call.change Reachable.relating).run (registryWith .recording .standard)
      Reachable.barred = (.error (.partway "Book" 3 3
        (.execution "Book" "Note" .addColumn 0 (.rejected "injected failure" none))),
        Reachable.halted.2) := Reachable.relating_run
  exact ⟨failed, (Call.error_accounts failed).partway _ _ _ _ rfl⟩

end ModelCatalog
