import ModelCatalog.Proofs.Noting
import ModelCatalog.Proofs.PlannedStatements
import ModelCatalog.Proofs.Rejection

/-! Submissions: the statements that a change submits on a database, from what it has prepared. -/

namespace ModelCatalog

open InProgress

namespace Noted

/-! ## Operations on a database -/

section Database

variable (executor : Executor) (configuration : Configuration) {noted : Noted Database}
  {progress : InProgress (Noted Database)} {catalog : Catalog}

/-- The edit of a stored target submits the statements for its columns. -/
theorem shadowsFrom_propagate (holds : progress.state.state.store = catalog.store)
    (source : String) {edit : TargetEdit} (stored : (catalog.find? edit.target).isSome = true) :
    ShadowsFrom progress edit.columns
      ((registry (registryWith executor configuration)).propagate source edit)
      ((registryWith executor configuration).propagate source edit) := by
  -- The target is read past the notes, so the edit finds what is stored.
  have read : InProgress.lift (Noted.lift ((Database.backendWith executor).get edit.target))
      progress = (.ok (catalog.find? edit.target), progress) := by
    have shown := (Registry.shows_database executor configuration holds).get edit.target
    rw [InProgress.lift, Noted.lift, shown]
  -- The columns come first, and to amend the definition submits nothing.
  have built := (shadows_runBatch (Database.backendWith executor) source edit.columns).bind
    fun _ => shadows_amend (registryWith executor configuration) edit.target true
      (edit.apply source)
  rw [List.append_nil] at built
  refine ((Shadows.lift ((Database.backendWith executor).get edit.target)) progress).bind
    fun found after ran => ?_
  rw [read] at ran
  cases ran
  -- The target is there, so its columns are added.
  simp only [stored, reduceIte]
  exact built progress

/-- The edits of stored targets submit the statements for their columns. -/
theorem shadowsFrom_propagateAll (source : String) (edits : List TargetEdit) :
    ∀ {progress : InProgress (Noted Database)} {catalog : Catalog},
      progress.state.state.store = catalog.store →
      (∀ edit ∈ edits, (catalog.find? edit.target).isSome = true) →
      ShadowsFrom progress (edits.flatMap TargetEdit.columns)
        ((registry (registryWith executor configuration)).propagateAll source edits)
        ((registryWith executor configuration).propagateAll source edits) := by
  -- The induction is on the edits; each begins where the one before has left the records.
  induction edits with
  | nil => exact fun {progress _} _ _ => Shadows.pure () progress
  | cons first rest ih =>
    intro progress catalog holds stored
    have here := shadowsFrom_propagate executor configuration holds source
      (stored first List.mem_cons_self)
    refine here.bind fun value after ran => ?_
    -- The first edit takes no target away.
    have state := here.state
    have result := here.result
    rw [ran] at state result
    -- Without the notes the same edit was carried out, and it has left the records of the catalog.
    have below : (unnoted progress).state.store = catalog.store := holds
    rcases Registry.propagate_run executor configuration below source first with
      ⟨edited, done, follows⟩ | ⟨error, stopped, failed, -⟩
    · rw [done] at state
      have kept : after.state.state.store =
          (catalog.edited source progress.state.state.now first).store :=
        (congrArg (fun ended : InProgress Database => ended.state.store) state).trans follows.store
      exact ih kept fun edit listed =>
        Catalog.isSome_find?_edited (stored edit (List.mem_cons_of_mem _ listed))
    · -- An edit that has given a value has not failed.
      rw [failed] at result
      cases result

/-- A batch leaves the records also where it is noted down. -/
theorem runBatch_store (holds : progress.state.state.store = catalog.store) (model : String)
    (statements : List Statement) :
    (runBatch (backend (Database.backendWith executor)) model statements
      progress).2.state.state.store = catalog.store := by
  -- The same batch without notes submits statements only, whether it succeeds or not.
  have state := (shadows_runBatch (Database.backendWith executor) model statements progress).state
  have below : (unnoted progress).state.store = catalog.store := holds
  refine (congrArg (fun ended : InProgress Database => ended.state.store) state).trans ?_
  rcases runBatch_run executor below model statements with
    ⟨after, done, follows, -⟩ | ⟨error, after, failed, follows, -⟩
  · -- Either way the records are those of the catalog.
    rw [done]
    exact follows.store
  · rw [failed]
    exact follows.store

/-- Carrying out a plan submits its own statements, and those for the columns of its targets. -/
theorem shadowsFrom_applyWrite (holds : progress.state.state.store = catalog.store)
    {plan : WritePlan} (stored : ∀ edit ∈ plan.edits, (catalog.find? edit.target).isSome = true)
    (old : Option Record) :
    ShadowsFrom progress plan.submitted
      ((registry (registryWith executor configuration)).applyWrite plan old)
      ((registryWith executor configuration).applyWrite plan old) := by
  let plain := registryWith executor configuration
  -- Behind the edits come the own record and the flush, which submit nothing.
  have ending : Shadows [] (do
        let record ← (registry plain).storeOwn plan old
        InProgress.lift (registry plain).backend.flush
        return record : Step (InProgress (Noted Database)) Record) (do
        let record ← plain.storeOwn plan old
        InProgress.lift plain.backend.flush
        return record) :=
    (shadows_storeOwn plain plan old).before fun record =>
      (Shadows.lift plain.backend.flush).before fun _ => .pure record
  -- The steps of the write are followed one after another, each with the notes it takes.
  refine ((Shadows.setStatus plain.backend .applying) progress).bind fun _ applying began => ?_
  refine (shadows_runBatch plain.backend plan.model plan.statements applying).bind
    fun _ built ran => ?_
  refine ((Shadows.setStatus plain.backend .propagating) built).bind fun _ propagating went => ?_
  -- Up to the edits nothing is stored, so every target is still there.
  have kept : propagating.state.state.store = catalog.store := by
    -- To set a status touches the journal alone.
    have applied : applying.state.state.store = catalog.store := by
      cases began
      exact holds
    have left := runBatch_store executor applied plan.model plan.statements
    rw [ran] at left
    cases went
    exact left
  have edits := (shadowsFrom_propagateAll executor configuration plan.model plan.edits kept
    stored).bind fun _ _ _ => ending _
  rw [List.append_nil] at edits
  exact edits

/-- An operation under the eyes of the journal goes as it does without notes, and when it succeeds
the statements of its work have been noted down. -/
theorem journaled_run {α : Type} {submitted : List Statement} (model : String)
    (kind : OperationKind) {upper : Step (InProgress (Noted Database)) α}
    {lower : Step (InProgress Database) α} {outcome : Except Error α} {final : Database}
    (shadows : ∀ progress : InProgress (Noted Database),
      progress.state.state.store = noted.state.store → ShadowsFrom progress submitted upper lower)
    (ran : journaled (Database.backendWith executor) model kind lower noted.state =
      (outcome, final)) :
    ∃ notes, journaled (backend (Database.backendWith executor)) model kind upper noted =
        (outcome, ⟨final, notes⟩) ∧
      ∀ value, outcome = .ok value → notes = noted.statements ++ submitted := by
  -- The journal makes the same entry on both sides, so the work begins alike.
  let begun : InProgress (Noted Database) :=
    ⟨(Database.begin model kind noted.state).1,
      ⟨(Database.begin model kind noted.state).2, noted.statements⟩⟩
  obtain ⟨result, state, statements⟩ := shadows begun rfl
  have begins : (backend (Database.backendWith executor)).begin model kind noted =
      (begun.operation, begun.state) := rfl
  have beginsBelow : (Database.backendWith executor).begin model kind noted.state =
      ((unnoted begun).operation, (unnoted begun).state) := rfl
  cases ended : upper begun with
  | mk reached stopped =>
    rw [ended] at result state statements
    have below : lower (unnoted begun) = (reached, unnoted stopped) :=
      Prod.ext result.symm state.symm
    cases reached with
    -- The entry is taken away again, with the notes as the work has left them.
    | ok value =>
      simp only [journaled, beginsBelow, below] at ran
      cases ran
      simp only [journaled, begins, ended]
      exact ⟨_, rfl, fun _ _ => statements value rfl⟩
    -- The entry is kept with its error, and nothing is promised of the notes.
    | error error =>
      simp only [journaled, beginsBelow, below] at ran
      cases ran
      simp only [journaled, begins, ended]
      exact ⟨_, rfl, fun _ same => by cases same⟩

/-- A registry with notes reads what the registry without them reads. -/
theorem shows (holds : noted.state.store = catalog.store) :
    (registry (registryWith executor configuration)).Shows noted catalog := by
  obtain ⟨get, listAll⟩ := Registry.shows_database executor configuration holds
  -- Reading goes past the notes to the database.
  refine ⟨fun name => ?_, ?_⟩
  · show Noted.lift ((Database.backendWith executor).get name) noted = _
    rw [Noted.lift, get name]
  · show Noted.lift (Database.backendWith executor).listAll noted = _
    rw [Noted.lift, listAll]

/-- A call to write goes as it does without notes, and a prepared one that succeeds has submitted
the statements of its plan. -/
theorem write_run (holds : noted.state.store = catalog.store) (name : String)
    (fields : List Field) (mustExist : Bool) :
    ∃ notes, (registry (registryWith executor configuration)).write name fields mustExist noted =
        (((registryWith executor configuration).write name fields mustExist noted.state).1,
          ⟨((registryWith executor configuration).write name fields mustExist noted.state).2,
            notes⟩) ∧
      (∀ error, Registry.preparedWrite configuration catalog name fields mustExist =
        .error error → notes = noted.statements) ∧
      ∀ plan record, Registry.preparedWrite configuration catalog name fields mustExist = .ok plan →
        ((registryWith executor configuration).write name fields mustExist noted.state).1 =
          .ok record → notes = noted.statements ++ plan.submitted := by
  -- With notes and without them the call is refused, or it goes on to the same operation.
  have begins := (shows executor configuration holds).write name fields mustExist
  have beginsBelow := (Registry.shows_database executor configuration holds).write name fields
    mustExist
  rw [show (registry (registryWith executor configuration)).configuration = configuration from rfl]
    at begins
  cases prepared : Registry.preparedWrite configuration catalog name fields mustExist with
  | error error =>
    rw [prepared] at begins beginsBelow
    -- A refused call ends before the journal is touched.
    exact ⟨noted.statements, by rw [begins, beginsBelow], fun _ _ => rfl,
      fun _ _ same => by cases same⟩
  | ok plan =>
    rw [prepared] at begins beginsBelow
    obtain ⟨-, planned⟩ := (Registry.preparedWrite_eq_ok configuration).mp prepared
    -- A plan edits only what it knows, and that is stored.
    have stored : ∀ edit ∈ plan.edits, (catalog.find? edit.target).isSome = true := by
      intro edit listed
      have known := (WritePlan.sound_of_planWrite planned).isSome_target listed
      rwa [Configuration.find?_context, Catalog.isSome_definition?] at known
    have shadows := fun (progress : InProgress (Noted Database))
        (same : progress.state.state.store = noted.state.store) =>
      shadowsFrom_applyWrite executor configuration (same.trans holds) stored (catalog.find? name)
    obtain ⟨notes, ran, noting⟩ := journaled_run executor name _ shadows beginsBelow.symm
    refine ⟨notes, begins.trans ran, fun _ refused => ?_, fun other record same done => ?_⟩
    · cases refused
    · cases same
      exact noting record done

/-- A call to delete goes as it does without notes, and a prepared one that succeeds has submitted
the statements of its plan. -/
theorem delete_run (holds : noted.state.store = catalog.store) (name : String) :
    ∃ notes, (registry (registryWith executor configuration)).delete name noted =
        (((registryWith executor configuration).delete name noted.state).1,
          ⟨((registryWith executor configuration).delete name noted.state).2, notes⟩) ∧
      (∀ error, Registry.preparedDelete catalog name = .error error → notes = noted.statements) ∧
      ∀ plan value, Registry.preparedDelete catalog name = .ok plan →
        ((registryWith executor configuration).delete name noted.state).1 = .ok value →
          notes = noted.statements ++ plan.statements := by
  -- As for a write; a plan to delete submits the same statements in every state.
  have begins := (shows executor configuration holds).delete name
  have beginsBelow := (Registry.shows_database executor configuration holds).delete name
  cases prepared : Registry.preparedDelete catalog name with
  | error error =>
    rw [prepared] at begins beginsBelow
    exact ⟨noted.statements, by rw [begins, beginsBelow], fun _ _ => rfl,
      fun _ _ same => by cases same⟩
  | ok plan =>
    rw [prepared] at begins beginsBelow
    have shadows := fun (progress : InProgress (Noted Database))
        (_ : progress.state.state.store = noted.state.store) =>
      shadows_applyDelete (registryWith executor configuration) plan progress
    obtain ⟨notes, ran, noting⟩ := journaled_run executor name _ shadows beginsBelow.symm
    refine ⟨notes, begins.trans ran, fun _ refused => ?_, fun other value same done => ?_⟩
    · cases refused
    · cases same
      exact noting value done

end Database

end Noted

/-! ## Changes -/

/-- What a change has found out about what it has to do. -/
inductive Preparation where
  | write (plan : WritePlan)
  | delete (plan : DeletePlan)

namespace Preparation

/-- The statements of what has to be done, in the order in which they are submitted. -/
def submitted : Preparation → List Statement
  | write plan => plan.submitted
  | delete plan => plan.statements

/-- The records of a catalog after what has to be done to them. -/
def result (catalog : Catalog) (now : Nat) : Preparation → Catalog
  | write plan => catalog.applied plan now
  | delete plan => catalog.deleted plan.model now

end Preparation

namespace Change

/-- Carry out a change; a definition and an update answer with the record they leave. -/
def answer {σ : Type} (registry : Registry σ) : Change → Step σ (Option Record)
  | define name fields => do
    let record ← registry.define name fields
    return some record
  | update name fields => do
    let record ← registry.update name fields
    return some record
  | delete name => do
    registry.delete name
    return none

/-- What a change has found out before it begins: why it is refused, or what it has to do. -/
def prepared (configuration : Configuration) (catalog : Catalog) :
    Change → Except Error Preparation
  | define name fields =>
    (Registry.preparedWrite configuration catalog name fields false).map .write
  | update name fields =>
    (Registry.preparedWrite configuration catalog name fields true).map .write
  | delete name => (Registry.preparedDelete catalog name).map .delete

variable {executor : Executor} {configuration : Configuration} {noted : Noted Database}
  {catalog : Catalog}

/-- A step on noted states is refused before anything is done, or what it has to do is prepared.
Then it answers with the record that is left under a name and has submitted the statements, unless
the executor refuses one of them. -/
def Goes (executor : Executor) (catalog : Catalog) (noted : Noted Database) (name : String)
    (prepared : Except Error Preparation) (step : Step (Noted Database) (Option Record)) : Prop :=
  (∃ error, prepared = .error error ∧ step noted = (.error error, noted)) ∨
  ∃ preparation, prepared = .ok preparation ∧
    ((∃ final, step noted =
        (.ok ((preparation.result catalog noted.state.now).find? name),
          ⟨final, noted.statements ++ preparation.submitted⟩) ∧
        final.store = (preparation.result catalog noted.state.now).store ∧
        final.now = noted.state.now) ∨
      ∃ error after, step noted = (.error error, after) ∧ ¬executor.Accepts)

/-- A definition and an update go as they are prepared. -/
theorem goes_write (holds : noted.state.store = catalog.store) (name : String)
    (fields : List Field) (mustExist : Bool) :
    Goes executor catalog noted name
      ((Registry.preparedWrite configuration catalog name fields mustExist).map .write) (do
        let record ← (Noted.registry (registryWith executor configuration)).write name fields
          mustExist
        return some record) := by
  -- The plan decides what is left, and noting tells what was submitted for it.
  obtain ⟨notes, ran, refused, succeeded⟩ := Noted.write_run executor configuration holds name
    fields mustExist
  have begins := (Registry.shows_database executor configuration holds).write name fields mustExist
  -- A change that is not prepared is refused with nothing noted down.
  cases prepared : Registry.preparedWrite configuration catalog name fields mustExist with
  | error error =>
    rw [prepared] at begins
    rw [begins, refused error prepared] at ran
    exact Or.inl ⟨error, rfl, Step.bind_of_error ran⟩
  | ok plan =>
    refine Or.inr ⟨.write plan, rfl, ?_⟩
    obtain ⟨allowed, planned⟩ := (Registry.preparedWrite_eq_ok configuration).mp prepared
    rcases Registry.write_of_planned executor configuration holds allowed planned with
      ⟨record, final, wrote, time, left, found⟩ |
      ⟨error, final, done, rest, failed, -, -, -, -, -, rejects⟩
    · rw [succeeded plan record prepared (by rw [wrote]), wrote] at ran
      refine Or.inl ⟨final, (Step.bind_of_ok ran).trans ?_, left, time⟩
      rw [Preparation.result, found]
      rfl
    · rw [failed] at ran
      exact Or.inr ⟨error, _, Step.bind_of_error ran, rejects⟩

/-- A deletion goes as it is prepared. -/
theorem goes_delete (holds : noted.state.store = catalog.store) (name : String) :
    Goes executor catalog noted name ((Registry.preparedDelete catalog name).map .delete) (do
      (Noted.registry (registryWith executor configuration)).delete name
      return none) := by
  -- As for a write, with a plan to delete.
  obtain ⟨notes, ran, refused, succeeded⟩ := Noted.delete_run executor configuration holds name
  have begins := (Registry.shows_database executor configuration holds).delete name
  cases prepared : Registry.preparedDelete catalog name with
  | error error =>
    rw [prepared] at begins
    rw [begins, refused error prepared] at ran
    exact Or.inl ⟨error, rfl, Step.bind_of_error ran⟩
  | ok plan =>
    refine Or.inr ⟨.delete plan, rfl, ?_⟩
    obtain ⟨identifier, planned⟩ := Registry.preparedDelete_eq_ok.mp prepared
    obtain ⟨-, -, own, -⟩ := Catalog.fits_of_deletion planned
    rcases Registry.delete_of_planned executor configuration holds identifier planned with
      ⟨final, deleted, time, left⟩ | ⟨error, final, failed, -, -, -, rejects⟩
    · rw [succeeded plan () prepared (by rw [deleted]), deleted] at ran
      refine Or.inl ⟨final, (Step.bind_of_ok ran).trans ?_, ?_, time⟩
      · -- Nothing is left under the name of what was deleted.
        have gone : (catalog.deleted plan.model noted.state.now).find? name = none := by
          rw [own, Catalog.deleted, Roster.find?_erase, if_pos rfl]
        rw [Preparation.result, gone]
        rfl
      · rw [Preparation.result, own]
        exact left
    · rw [failed] at ran
      exact Or.inr ⟨error, _, Step.bind_of_error ran, rejects⟩

/-- A change goes as it is prepared. -/
theorem goes (holds : noted.state.store = catalog.store) (request : Change) :
    Goes executor catalog noted request.subject (request.prepared configuration catalog)
      (request.answer (Noted.registry (registryWith executor configuration))) := by
  -- To define and to update are writes with and without something to be there.
  cases request with
  | define name fields => exact goes_write holds name fields false
  | update name fields => exact goes_write holds name fields true
  | delete name => exact goes_delete holds name

/-- What a change has prepared is the plan to write its subject with the fields it gives, or the
plan to delete it. -/
theorem planned_of_prepared {request : Change} {preparation : Preparation}
    (prepared : request.prepared configuration catalog = .ok preparation) :
    (∃ plan, preparation = .write plan ∧
      (configuration.context catalog).planWrite (catalog.find? request.subject)
        (configuration.declared request.subject request.given) = .ok plan) ∨
    ∃ plan, preparation = .delete plan ∧ catalog.deletion request.subject = .ok plan := by
  -- A definition and an update are planned alike.
  have writes : ∀ name fields mustExist,
      (Registry.preparedWrite configuration catalog name fields mustExist).map .write =
        .ok preparation →
      ∃ plan, preparation = .write plan ∧
        (configuration.context catalog).planWrite (catalog.find? name)
          (configuration.declared name fields) = .ok plan := by
    intro name fields mustExist made
    obtain ⟨plan, written, same⟩ := Outcome.map_eq_ok.mp made
    exact ⟨plan, same.symm, ((Registry.preparedWrite_eq_ok configuration).mp written).2⟩
  cases request with
  | define name fields => exact Or.inl (writes name fields false prepared)
  | update name fields => exact Or.inl (writes name fields true prepared)
  | delete name =>
    obtain ⟨plan, deleted, same⟩ := Outcome.map_eq_ok.mp prepared
    exact Or.inr ⟨plan, same.symm, (Registry.preparedDelete_eq_ok.mp deleted).2⟩

/-- What a change has prepared is a plan to write its subject, or the plan to delete it. -/
theorem of_prepared {request : Change} {preparation : Preparation}
    (prepared : request.prepared configuration catalog = .ok preparation) :
    (∃ plan fields, preparation = .write plan ∧
      (configuration.context catalog).planWrite (catalog.find? request.subject)
        (configuration.declared request.subject fields) = .ok plan) ∨
    ∃ plan, preparation = .delete plan ∧ catalog.deletion request.subject = .ok plan :=
  -- What is written was declared with the fields that the change gives.
  (planned_of_prepared prepared).imp_left fun ⟨plan, written⟩ => ⟨plan, request.given, written⟩

/-- A change that succeeds was prepared, has left what it had to do done, and has submitted its
statements. -/
theorem of_answer (holds : noted.state.store = catalog.store) {request : Change}
    {answer : Option Record} {after : Noted Database}
    (ran : request.answer (Noted.registry (registryWith executor configuration)) noted =
      (.ok answer, after)) :
    ∃ preparation, request.prepared configuration catalog = .ok preparation ∧
      answer = (preparation.result catalog noted.state.now).find? request.subject ∧
      after.state.store = (preparation.result catalog noted.state.now).store ∧
      after.statements = noted.statements ++ preparation.submitted := by
  have begun : Goes executor catalog noted request.subject (request.prepared configuration catalog)
      (request.answer (Noted.registry (registryWith executor configuration))) := goes holds request
  -- A change that was refused, or stopped by the executor, does not succeed.
  rcases begun with
    ⟨error, -, refused⟩ | ⟨preparation, prepared, ⟨final, done, left, -⟩ | ⟨error, _, failed, -⟩⟩
  · rw [refused] at ran
    cases ran
  · rw [done] at ran
    cases ran
    exact ⟨preparation, prepared, rfl, left, rfl⟩
  · rw [failed] at ran
    cases ran

/-- Noting changes nothing: but for the answer and the notes, a change goes as it does without. -/
theorem answer_unnoted (holds : noted.state.store = catalog.store) (request : Change) :
    ((request.answer (Noted.registry (registryWith executor configuration)) noted).1.map
        fun _ => ()) = (request.run (registryWith executor configuration) noted.state).1 ∧
      (request.answer (Noted.registry (registryWith executor configuration)) noted).2.state =
        (request.run (registryWith executor configuration) noted.state).2 := by
  let upper := Noted.registry (registryWith executor configuration)
  let lower := registryWith executor configuration
  -- A record is kept on one side and discarded on the other.
  have writes : ∀ name fields mustExist,
      let kept := (do
        let record ← upper.write name fields mustExist
        return some record : Step (Noted Database) (Option Record)) noted
      let discarded := (do
        let _ ← lower.write name fields mustExist : Step Database Unit) noted.state
      (kept.1.map fun _ => ()) = discarded.1 ∧ kept.2.state = discarded.2 := by
    intro name fields mustExist
    obtain ⟨notes, ran, -⟩ := Noted.write_run executor configuration holds name fields mustExist
    have keeps := Step.map_run (upper.write name fields mustExist) some noted
    have discards := Step.map_run (lower.write name fields mustExist) (fun _ => ()) noted.state
    dsimp only
    rw [keeps, discards, ran]
    refine ⟨?_, rfl⟩
    cases (lower.write name fields mustExist noted.state).1 <;> rfl
  cases request with
  | define name fields => exact writes name fields false
  | update name fields => exact writes name fields true
  | delete name =>
    -- A deletion answers with nothing on either side.
    obtain ⟨notes, ran, -⟩ := Noted.delete_run executor configuration holds name
    have keeps := Step.map_run (upper.delete name) (fun _ => (none : Option Record)) noted
    show (((do upper.delete name; return none : Step (Noted Database) (Option Record))
        noted).1.map fun _ => ()) = (lower.delete name noted.state).1 ∧
      ((do upper.delete name; return none : Step (Noted Database) (Option Record))
        noted).2.state = (lower.delete name noted.state).2
    rw [keeps, ran]
    refine ⟨?_, rfl⟩
    cases (lower.delete name noted.state).1 <;> rfl

/-- A change that succeeds was prepared, and has left done what it had to do. -/
theorem of_run {database after : Database} (holds : database.store = catalog.store)
    {request : Change}
    (ran : request.run (registryWith executor configuration) database = (.ok (), after)) :
    ∃ preparation, request.prepared configuration catalog = .ok preparation ∧
      after.store = (preparation.result catalog database.now).store := by
  -- It succeeds under notes as well, with the same state in the end.
  have below : (⟨database, []⟩ : Noted Database).state.store = catalog.store := holds
  obtain ⟨sameOutcome, sameState⟩ := @answer_unnoted executor configuration _ _ below request
  rw [ran] at sameOutcome sameState
  obtain ⟨answer, answered, -⟩ := Outcome.map_eq_ok.mp sameOutcome
  obtain ⟨preparation, prepared, -, left, -⟩ := of_answer below (Prod.ext answered rfl)
  rw [sameState] at left
  exact ⟨preparation, prepared, left⟩

end Change

end ModelCatalog
