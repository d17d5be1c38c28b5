import ModelCatalog.Proofs.DeleteRun

/-! Noting: registries whose submitted statements are noted down, which changes nothing else. -/

namespace ModelCatalog

open InProgress

/-- A state together with the statements that have been submitted so far. -/
structure Noted (σ : Type) where
  state : σ
  statements : List Statement

namespace Noted

variable {σ α β : Type}

/-- Take a step on the state that submits no statements. -/
def lift (step : Step σ α) : Step (Noted σ) α := fun noted =>
  let after := step noted.state
  (after.1, { noted with state := after.2 })

/-- The same services, with every batch noted down that is submitted. -/
def backend (services : Backend σ) : Backend (Noted σ) where
  get := fun name => lift (services.get name)
  put := fun definition expect => lift (services.put definition expect)
  delete := fun name expect => lift (services.delete name expect)
  listAll := lift services.listAll
  flush := lift services.flush
  executeBatch := fun statements noted =>
    let outcome := services.executeBatch statements noted.state
    (outcome.1, { state := outcome.2, statements := noted.statements ++ statements })
  isTransactional := fun noted => services.isTransactional noted.state
  begin := fun model kind noted =>
    let begun := services.begin model kind noted.state
    (begun.1, { noted with state := begun.2 })
  save := fun operation noted => { noted with state := services.save operation noted.state }
  remove := fun id noted => { noted with state := services.remove id noted.state }
  clearExcept := fun keep noted =>
    let cleared := services.clearExcept keep noted.state
    (cleared.1, { noted with state := cleared.2 })
  pending := fun noted => services.pending noted.state

/-- The same registry, with every batch noted down that is submitted. -/
def registry (registry : Registry σ) : Registry (Noted σ) :=
  ⟨backend registry.backend, registry.configuration⟩

/-- The operation under way, without the notes. -/
def unnoted (progress : InProgress (Noted σ)) : InProgress σ :=
  ⟨progress.operation, progress.state.state⟩

/-- From here, work on noted states goes as it does without notes, and when it succeeds it has
submitted these statements. -/
structure ShadowsFrom (progress : InProgress (Noted σ)) (submitted : List Statement)
    (upper : Step (InProgress (Noted σ)) α) (lower : Step (InProgress σ) α) : Prop where
  result : (upper progress).1 = (lower (unnoted progress)).1
  state : unnoted (upper progress).2 = (lower (unnoted progress)).2
  statements : ∀ value, (upper progress).1 = .ok value →
    (upper progress).2.state.statements = progress.state.statements ++ submitted

/-- From anywhere, work on noted states goes as it does without notes. -/
def Shadows (submitted : List Statement) (upper : Step (InProgress (Noted σ)) α)
    (lower : Step (InProgress σ) α) : Prop :=
  ∀ progress, ShadowsFrom progress submitted upper lower

/-! ## Steps in order -/

section Order

variable {progress : InProgress (Noted σ)} {submitted more : List Statement}
  {upper : Step (InProgress (Noted σ)) α} {lower : Step (InProgress σ) α}
  {next : α → Step (InProgress (Noted σ)) β} {nextLower : α → Step (InProgress σ) β}

/-- Work after work goes as it does without notes, and submits what both submit. -/
theorem ShadowsFrom.bind (first : ShadowsFrom progress submitted upper lower)
    (second : ∀ value after, upper progress = (.ok value, after) →
      ShadowsFrom after more (next value) (nextLower value)) :
    ShadowsFrom progress (submitted ++ more) (upper >>= next) (lower >>= nextLower) := by
  -- The first work ends alike on both sides, so either both go on from there or both end.
  obtain ⟨result, state, statements⟩ := first
  cases ran : upper progress with
  | mk outcome middle =>
    rw [ran] at result state statements
    have below : lower (unnoted progress) = (outcome, unnoted middle) :=
      Prod.ext result.symm state.symm
    cases outcome with
    | error error =>
      refine ⟨?_, ?_, fun value same => ?_⟩
      · rw [Step.bind_of_error ran, Step.bind_of_error below]
      · rw [Step.bind_of_error ran, Step.bind_of_error below]
      · -- Nothing is promised of what was submitted on the way to an error.
        rw [Step.bind_of_error ran] at same
        cases same
    | ok value =>
      obtain ⟨laterResult, laterState, laterStatements⟩ := second value middle ran
      refine ⟨?_, ?_, fun final same => ?_⟩
      · rw [Step.bind_of_ok ran, Step.bind_of_ok below, laterResult]
      · rw [Step.bind_of_ok ran, Step.bind_of_ok below, laterState]
      · -- What the second submits comes behind what the first did.
        rw [Step.bind_of_ok ran] at same ⊢
        rw [laterStatements final same, statements value rfl, List.append_assoc]

/-- Work after work goes as it does without notes. -/
theorem Shadows.bind (first : Shadows submitted upper lower)
    (second : ∀ value, Shadows more (next value) (nextLower value)) :
    Shadows (submitted ++ more) (upper >>= next) (lower >>= nextLower) :=
  -- Work that gives a value goes on with the value, and the submitted statements are put together.
  fun progress => (first progress).bind fun value after _ => second value after

/-- Work that submits nothing goes before any other. -/
theorem Shadows.before (first : Shadows [] upper lower)
    (second : ∀ value, Shadows more (next value) (nextLower value)) :
    Shadows more (upper >>= next) (lower >>= nextLower) := first.bind second

/-- A value is there without submitting anything. -/
theorem Shadows.pure (value : α) :
    Shadows [] (Pure.pure value : Step (InProgress (Noted σ)) α) (Pure.pure value) :=
  -- Nothing is submitted, which adds nothing to what was.
  fun _ => ⟨rfl, rfl, fun _ _ => (List.append_nil _).symm⟩

/-- An error is there without submitting anything. -/
theorem Shadows.fail (error : Error) :
    Shadows [] (Step.fail error : Step (InProgress (Noted σ)) α) (Step.fail error) :=
  -- There is an error on both sides, and it is the same.
  fun _ => ⟨rfl, rfl, fun _ same => by cases same⟩

/-- A step on the state submits nothing. -/
theorem Shadows.lift (step : Step σ α) :
    Shadows [] (InProgress.lift (Noted.lift step)) (InProgress.lift step) :=
  -- The step sees the state without the notes.
  fun _ => ⟨rfl, rfl, fun _ _ => (List.append_nil _).symm⟩

/-- A step whose error is its result submits nothing if the step does not. -/
theorem Shadows.outcome (step : Step σ α) :
    Shadows [] (Step.outcome (InProgress.lift (Noted.lift step)))
      (Step.outcome (InProgress.lift step)) :=
  -- The outcome of the step is its value, so it cannot fail.
  fun _ => ⟨rfl, rfl, fun _ _ => (List.append_nil _).symm⟩

/-- Counting steps submits nothing. -/
theorem Shadows.advance (steps : Nat) :
    Shadows [] (InProgress.advance steps : Step (InProgress (Noted σ)) Unit)
      (InProgress.advance steps) :=
  -- The count is kept beside the state.
  fun _ => ⟨rfl, rfl, fun _ _ => (List.append_nil _).symm⟩

/-- Saving an operation submits nothing. -/
theorem Shadows.save (services : Backend σ) :
    Shadows [] (InProgress.save (backend services)) (InProgress.save services) :=
  -- The journal is no part of what is noted.
  fun _ => ⟨rfl, rfl, fun _ _ => (List.append_nil _).symm⟩

/-- Bringing an operation into another status submits nothing. -/
theorem Shadows.setStatus (services : Backend σ) (status : OperationStatus) :
    Shadows [] (InProgress.setStatus (backend services) status)
      (InProgress.setStatus services status) :=
  -- The status is kept beside the state.
  fun _ => ⟨rfl, rfl, fun _ _ => (List.append_nil _).symm⟩

/-- Attempts that submit nothing may be repeated. -/
theorem Shadows.retrying {attempt : Step (InProgress (Noted σ)) (Except Error α)}
    {attemptLower : Step (InProgress σ) (Except Error α)} (each : Shadows [] attempt attemptLower)
    (times : Nat) :
    Shadows [] (Step.retrying attempt times) (Step.retrying attemptLower times) := by
  -- The induction is on the attempts that are left; each of them submits nothing.
  induction times with
  | zero =>
    refine each.before fun outcome => ?_
    cases outcome with
    | ok value => exact .pure value
    | error error => exact .fail error
  -- Only another attempt follows a void one, and the hypothesis covers all of these.
  | succ times ih =>
    refine each.before fun outcome => ?_
    cases outcome with
    | ok value => exact .pure value
    | error error => exact ih

end Order

/-! ## The work of a registry -/

/-- A batch is submitted as it is. -/
theorem shadows_runBatch (services : Backend σ) (model : String) (statements : List Statement) :
    Shadows statements (runBatch (backend services) model statements)
      (runBatch services model statements) := by
  -- An empty batch is not submitted at all, on either side.
  cases statements with
  | nil => exact .pure ()
  | cons first rest =>
    -- The notes stand beside the state, so the services answer as they do without them.
    intro progress
    cases outcome : services.executeBatch (first :: rest) progress.state.state with
    | mk result after =>
      have noted : (backend services).executeBatch (first :: rest) progress.state =
          (result, ⟨after, progress.state.statements ++ first :: rest⟩) := by
        simp only [backend, outcome]
      have plain : services.executeBatch (first :: rest) (unnoted progress).state =
          (result, after) := outcome
      cases result with
      | ok value =>
        have upper := runBatch_of_ok model noted
        have lower := runBatch_of_ok model plain
        refine ⟨?_, ?_, fun _ _ => ?_⟩
        · rw [upper, lower]
        · rw [upper, lower]
          rfl
        · rw [upper]
          rfl
      | error failure =>
        have upper := runBatch_of_error model noted
        have lower := runBatch_of_error model plain
        refine ⟨?_, ?_, fun _ succeeds => ?_⟩
        · rw [upper, lower]
        · rw [upper, lower]
          rfl
        · -- What was refused is noted down too, but then the work did not succeed.
          rw [upper] at succeeds
          cases succeeds

variable (plain : Registry σ)

/-- Changing a definition that was read submits nothing. -/
theorem shadows_changeRead (services : Backend σ) (edit : Model → Model × Bool) (before : Model)
    (expect : Expect) :
    Shadows [] (Registry.changeRead (backend services) edit before expect)
      (Registry.changeRead services edit before expect) := by
  unfold Registry.changeRead
  -- Without a change nothing is written.
  split
  · refine (Shadows.outcome (services.put (edit before).1 expect)).before fun outcome => ?_
    cases outcome with
    | ok record =>
      exact (Shadows.advance 1).before fun _ => (Shadows.save services).before fun _ => .pure _
    | error error =>
      -- A write that comes too late is a value of the attempt, any other failure is its own.
      dsimp only
      split
      · exact .pure _
      · exact .fail error
  · exact .pure _

/-- An attempt to change a definition submits nothing. -/
theorem shadows_tryAmend (target : String) (createMissing : Bool)
    (edit : Model → Model × Bool) :
    Shadows [] ((registry plain).tryAmend target createMissing edit)
      (plain.tryAmend target createMissing edit) := by
  refine (Shadows.lift (plain.backend.get target)).before fun found => ?_
  -- What is changed is the stored definition, or an empty one where that is asked for.
  cases found with
  | some record =>
    exact shadows_changeRead plain.backend edit record.definition (.version record.version)
  | none =>
    cases createMissing with
    | true => exact shadows_changeRead plain.backend edit ⟨target, []⟩ .absent
    | false => exact .pure (Except.ok ())

/-- Changing a definition submits nothing. -/
theorem shadows_amend (target : String) (createMissing : Bool) (edit : Model → Model × Bool) :
    Shadows [] ((registry plain).amend target createMissing edit)
      (plain.amend target createMissing edit) :=
  -- Every attempt submits nothing, so any number of them does.
  (shadows_tryAmend plain target createMissing edit).retrying _

/-- Writing the own record submits nothing. -/
theorem shadows_storeOwn (plan : WritePlan) (old : Option Record) :
    Shadows [] ((registry plain).storeOwn plan old) (plain.storeOwn plan old) := by
  -- The record is written where there was none before and where the definition is another one.
  have writes : Shadows [] (do
        let record ← InProgress.lift ((registry plain).backend.put plan.definition plan.expect)
        advance 1
        return record : Step (InProgress (Noted σ)) Record) (do
        let record ← InProgress.lift (plain.backend.put plan.definition plan.expect)
        advance 1
        return record) :=
    (Shadows.lift (plain.backend.put plan.definition plan.expect)).before fun _ =>
      (Shadows.advance 1).before fun _ => .pure _
  unfold Registry.storeOwn
  cases old with
  | none => exact writes
  | some record =>
    dsimp only
    split
    · -- The stored definition is the same one, so nothing is written.
      exact .pure record
    · exact writes

/-- Taking relations away submits nothing. -/
theorem shadows_stripAll (model : String) (others : List String) :
    Shadows [] ((registry plain).stripAll model others) (plain.stripAll model others) := by
  -- Relations are taken from one model after the other.
  induction others with
  | nil => exact .pure ()
  | cons first rest ih => exact (shadows_amend plain first false _).before fun _ => ih

/-- Carrying out a deletion submits the statements of its plan. -/
theorem shadows_applyDelete (plan : DeletePlan) :
    Shadows plan.statements ((registry plain).applyDelete plan) (plain.applyDelete plan) := by
  -- Once the statements are applied only records are changed.
  have rest : Shadows [] (do
        setStatus (registry plain).backend .propagating
        (registry plain).stripAll plan.model plan.referencing
        InProgress.lift ((registry plain).backend.delete plan.model plan.expect)
        advance 1
        InProgress.lift (registry plain).backend.flush : Step (InProgress (Noted σ)) Unit) (do
        setStatus plain.backend .propagating
        plain.stripAll plan.model plan.referencing
        InProgress.lift (plain.backend.delete plan.model plan.expect)
        advance 1
        InProgress.lift plain.backend.flush) :=
    (Shadows.setStatus plain.backend _).before fun _ =>
      (shadows_stripAll plain plan.model plan.referencing).before fun _ =>
      (Shadows.lift (plain.backend.delete plan.model plan.expect)).before fun _ =>
      (Shadows.advance 1).before fun _ => .lift plain.backend.flush
  -- The statements of the deletion itself are the only ones.
  have work := (Shadows.setStatus plain.backend .applying).before fun _ =>
    (shadows_runBatch plain.backend plan.model plan.statements).bind fun _ => rest
  rw [List.append_nil] at work
  exact work

end Noted

end ModelCatalog
