import ModelCatalog.Proofs.Catalog
import ModelCatalog.Registry.Write

/-! Databases whose statements are run by any executor: what one step of an operation does to the
records, whatever becomes of its statements. -/

namespace ModelCatalog

/-- What runs the statements of a database: it may apply a batch or refuse it, and changes its own
state as it likes. -/
structure Executor where
  run : List Statement → Recorder → Except StatementFailure Unit × Recorder
  /-- Batches are applied as a whole or not at all. -/
  isTransactional : Recorder → Bool

namespace Executor

/-- The executor that notes down what it would run. -/
def recording : Executor where
  run := fun statements recorder => recorder.executeBatch (statements.map Statement.sql)
  isTransactional := Recorder.transactional

/-- The executor refuses nothing. -/
def Accepts (executor : Executor) : Prop :=
  ∀ statements recorder, (executor.run statements recorder).1 = .ok ()

/-- What the executor reports is what it has applied: the whole batch, or, when it reports a
failure, the statements before the failed one and in a transaction none. -/
structure Honest (executor : Executor) : Prop where
  applied : ∀ statements recorder, (executor.run statements recorder).1 = .ok () →
    (executor.run statements recorder).2.applied =
      recorder.applied ++ statements.map Statement.sql
  stopped : ∀ statements recorder failure,
    (executor.run statements recorder).1 = .error failure →
      failedIndex failure ≤ statements.length ∧
      (executor.run statements recorder).2.applied = recorder.applied ++
        if executor.isTransactional recorder then []
        else (statements.map Statement.sql).take (failedIndex failure)

/-- The executor that refuses nothing and does nothing. -/
def idle : Executor where
  run := fun _ recorder => (.ok (), recorder)
  isTransactional := Recorder.transactional

/-- The idle executor refuses nothing. -/
theorem accepts_idle : idle.Accepts := fun _ _ => rfl

end Executor

namespace Database

/-- The services of a database whose statements an executor runs. -/
def backendWith (executor : Executor) : Backend Database :=
  { backend with
    executeBatch := fun statements database =>
      let outcome := executor.run statements database.recorder
      (outcome.1, { database with recorder := outcome.2 })
    isTransactional := fun database => executor.isTransactional database.recorder }

end Database

/-- A registry on a database whose statements an executor runs. -/
abbrev registryWith (executor : Executor) (configuration : Configuration) : Registry Database :=
  ⟨Database.backendWith executor, configuration⟩

namespace Error

/-- The error tells of a statement that the executor refused. -/
def IsRejection : Error → Prop
  | execution .. => True
  | transient _ (.statement ..) => True
  | partway _ _ _ cause => cause.IsRejection
  | _ => False

/-- The error of a failed batch tells of a refused statement. -/
theorem isRejection_ofBatch (model : String) (first : Statement) (rest : List Statement)
    (failure : StatementFailure) : (ofBatch model first rest failure).IsRejection := by
  -- The two errors a failed statement can give are told apart by whether it may be tried again.
  unfold ofBatch ofStatement
  split <;> exact trivial

/-- The error of a failed batch tells of no effects. -/
theorem isPartial_ofBatch (model : String) (first : Statement) (rest : List Statement)
    (failure : StatementFailure) : (ofBatch model first rest failure).isPartial = false := by
  -- Neither of the two errors tells of effects.
  unfold ofBatch ofStatement
  split <;> rfl

end Error

/-! ## Steps in order -/

namespace Step

variable {σ α β : Type} {step : Step σ α} {next : α → Step σ β} {state after : σ}

/-- After a step that gives a value comes the next one. -/
theorem bind_of_ok {value : α} (done : step state = (.ok value, after)) :
    (step >>= next) state = next value after := by
  -- Binding goes on from the value in the state that the step leaves.
  show Step.bind step next state = _
  rw [Step.bind, done]

/-- After a step that fails comes nothing. -/
theorem bind_of_error {error : Error} (failed : step state = (.error error, after)) :
    (step >>= next) state = (.error error, after) := by
  -- With an error there is no value for the next step.
  show Step.bind step next state = _
  rw [Step.bind, failed]

/-- An outcome that is no error has a value. -/
theorem exists_of_isOk (outcome : Except Error α × σ) (succeeds : outcome.1.isOk = true) :
    ∃ value, outcome = (.ok value, outcome.2) := by
  -- There is a value, or else the outcome would be an error.
  obtain ⟨_ | value, after⟩ := outcome
  · cases succeeds
  · exact ⟨value, rfl⟩

/-- A step ends with its outcome in the state it leaves. -/
theorem eq_of_fst {outcome : Except Error α} (ends : (step state).1 = outcome) :
    step state = (outcome, (step state).2) := by
  -- The outcome is the first part of what the step gives.
  rw [← ends]

/-- A step whose value is made another ends as it does, but for the value. -/
theorem map_run (step : Step σ α) (value : α → β) (state : σ) :
    (do let result ← step; return value result : Step σ β) state =
      ((step state).1.map value, (step state).2) := by
  -- With a value the next step makes the value from it, and with an error there is no next step.
  cases ended : step state with
  | mk outcome after =>
    cases outcome with
    | ok result => exact bind_of_ok ended
    | error error => exact bind_of_error ended

/-- A step whose value is discarded ends as it does, but for the value. -/
theorem of_discarded {result : Except Error Unit}
    (ended : (do let _ ← step : Step σ Unit) state = (result, after)) :
    ∃ outcome, step state = (outcome, after) ∧ result = outcome.map fun _ => () := by
  -- The value is replaced by nothing, and the error and the state stay.
  have same := (map_run step (fun _ => ()) state).symm.trans ended
  cases same
  exact ⟨_, rfl, rfl⟩

/-- A step whose outcome is its result does not fail. -/
theorem outcome_run {result : Except Error α} (done : step state = (result, after)) :
    Step.outcome step state = (.ok result, after) := by
  -- The outcome is handed on as a value, whatever it is.
  rw [Step.outcome, done]

/-- An attempt that succeeds is not repeated. -/
theorem retrying_of_ok {attempt : Step σ (Except Error α)} {value : α}
    (done : attempt state = (.ok (.ok value), after)) (times : Nat) :
    Step.retrying attempt times state = (.ok value, after) := by
  -- There is an attempt first, whatever number may follow.
  cases times <;> exact bind_of_ok done

/-- An attempt that fails outright is not repeated. -/
theorem retrying_of_error {attempt : Step σ (Except Error α)} {error : Error}
    (failed : attempt state = (.error error, after)) (times : Nat) :
    Step.retrying attempt times state = (.error error, after) := by
  -- The first attempt has failed outright, and there is no second one.
  cases times <;> exact bind_of_error failed

/-- An attempt that is void and changes nothing is void however often it is repeated. -/
theorem retrying_of_void {attempt : Step σ (Except Error α)} {error : Error}
    (void : attempt state = (.ok (.error error), state)) (times : Nat) :
    Step.retrying attempt times state = (.error error, state) := by
  -- Each attempt leaves the state the next one begins in, so the same attempt comes again.
  induction times with
  | zero => exact bind_of_ok void
  | succ times ih => exact (bind_of_ok void).trans ih

end Step

namespace InProgress

section Batches

variable {σ : Type} {backend : Backend σ} {progress : InProgress σ} {state : σ}
  {first : Statement} {rest : List Statement}

/-- A batch that takes effect is counted in full, and the operation is saved. -/
theorem runBatch_of_ok (model : String)
    (applied : backend.executeBatch (first :: rest) progress.state = (.ok (), state)) :
    runBatch backend model (first :: rest) progress = (.ok (),
      { operation := progress.operation.advance (first :: rest).length
        state := backend.save (progress.operation.advance (first :: rest).length) state }) := by
  -- Of a batch that is not empty everything is decided by what the executor returns.
  simp only [runBatch, applied]
  rfl

/-- A batch that is refused is counted as far as it took effect. -/
theorem runBatch_of_error (model : String) {failure : StatementFailure}
    (refused : backend.executeBatch (first :: rest) progress.state = (.error failure, state)) :
    runBatch backend model (first :: rest) progress = (.error (.ofBatch model first rest failure),
      { operation :=
          if backend.isTransactional progress.state then progress.operation
          else progress.operation.advance (failedIndex failure)
        state := state }) := by
  -- What the executor returns decides everything, and it returned the failure.
  simp only [runBatch, refused]

end Batches

variable (executor : Executor) {progress : InProgress Database}

/-- The database of an operation holds the records of a catalog, at a time, and the operation is
no further back than it was. -/
structure Follows (before after : InProgress Database) (catalog : Catalog) : Prop where
  store : after.state.store = catalog.store
  now : after.state.now = before.state.now
  steps : before.operation.completedSteps ≤ after.operation.completedSteps

/-- What follows on what follows, follows. -/
theorem Follows.trans {first second third : InProgress Database} {one other : Catalog}
    (earlier : Follows first second one) (later : Follows second third other) :
    Follows first third other :=
  -- Each part is passed on from the first to the last.
  ⟨later.store, later.now.trans earlier.now, Nat.le_trans earlier.steps later.steps⟩

/-- Bringing an operation into another status leaves the records. -/
theorem setStatus_run {catalog : Catalog} (holds : progress.state.store = catalog.store)
    (status : OperationStatus) :
    ∃ after, setStatus (Database.backendWith executor) status progress = (.ok (), after) ∧
      Follows progress after catalog ∧
      after.operation.completedSteps = progress.operation.completedSteps :=
  -- The journal is changed and the store is not.
  ⟨_, rfl, ⟨holds, rfl, Nat.le_refl _⟩, rfl⟩

/-- A batch leaves the records, whether it is applied or refused. -/
theorem runBatch_run {catalog : Catalog} (holds : progress.state.store = catalog.store)
    (model : String) (statements : List Statement) :
    (∃ after, runBatch (Database.backendWith executor) model statements progress =
        (.ok (), after) ∧ Follows progress after catalog ∧
        progress.operation.completedSteps + statements.length ≤
          after.operation.completedSteps) ∨
      ∃ error after, runBatch (Database.backendWith executor) model statements progress =
          (.error error, after) ∧ Follows progress after catalog ∧ error.IsRejection ∧
        error.isPartial = false ∧ ¬executor.Accepts := by
  -- No statements run nothing, and otherwise the executor decides, and only its recorder changes.
  cases statements with
  | nil => exact Or.inl ⟨progress, rfl, ⟨holds, rfl, Nat.le_refl _⟩, Nat.le_refl _⟩
  | cons first rest =>
    cases outcome : executor.run (first :: rest) progress.state.recorder with
    | mk result recorder =>
      have executed : (Database.backendWith executor).executeBatch (first :: rest)
          progress.state = (result, { progress.state with recorder := recorder }) := by
        simp only [Database.backendWith, outcome]
      cases result with
      | ok value =>
        exact Or.inl ⟨_, runBatch_of_ok model executed, ⟨holds, rfl, Nat.le_add_right _ _⟩,
          Nat.le_refl _⟩
      | error failure =>
        refine Or.inr ⟨_, _, runBatch_of_error model executed, ⟨holds, rfl, ?_⟩,
          Error.isRejection_ofBatch _ _ _ _, Error.isPartial_ofBatch _ _ _ _, ?_⟩
        · -- A transaction counts nothing, and without one the statements before count.
          dsimp only
          split
          · exact Nat.le_refl _
          · exact Nat.le_add_right _ _
        · intro accepts
          have refused := accepts (first :: rest) progress.state.recorder
          rw [outcome] at refused
          cases refused

end InProgress

end ModelCatalog
