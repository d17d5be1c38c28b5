import ModelCatalog.Proofs.DeleteRun
import ModelCatalog.Registry.Reconcile

/-! Invariants of services: what the services of a registry keep, whether they succeed or fail, is
kept by whatever the registry does with them. -/

namespace ModelCatalog

/-! ## What steps ensure -/

namespace Step

variable {σ α β : Type} {step : Step σ α} {next : α → Step σ β} {before middle well ill : σ → Prop}

/-- From the states before, the step ends well in some states, and in others when it fails. -/
def Ensures (step : Step σ α) (before well ill : σ → Prop) : Prop :=
  ∀ state, before state → match step state with
    | (.ok _, after) => well after
    | (.error _, after) => ill after

namespace Ensures

/-- What holds of a state holds behind a step that keeps it, however the step ends. -/
theorem of_keeps (keeps : ∀ state, before state → before (step state).2) :
    step.Ensures before before before := by
  intro state holds
  have kept := keeps state holds
  -- The state is looked at in the same way for a value and for an error.
  cases ran : step state with
  | mk outcome after =>
    rw [ran] at kept
    cases outcome <;> exact kept

/-- A value is there without a change. -/
theorem pure (value : α) : (Pure.pure value : Step σ α).Ensures before before ill :=
  -- The state is the one before.
  fun _ holds => holds

/-- A failure is there without a change. -/
theorem fail (error : Error) : (Step.fail error : Step σ α).Ensures before well before :=
  -- The state is the one before, and there is no value.
  fun _ holds => holds

/-- A step begins where the one before it has ended well. -/
theorem bind (first : step.Ensures before middle ill)
    (second : ∀ value, (next value).Ensures middle well ill) :
    (step >>= next).Ensures before well ill := by
  intro state holds
  -- The first step ends in the middle, where the second begins, or ends ill and nothing follows.
  have reached := first state holds
  cases ran : step state with
  | mk outcome after =>
    rw [ran] at reached
    cases outcome with
    | ok value =>
      rw [Step.bind_of_ok ran]
      exact second value after reached
    | error error =>
      rw [Step.bind_of_error ran]
      exact reached

/-- What a step keeps is kept when its error is its result. -/
theorem outcome (kept : step.Ensures before before before) :
    (Step.outcome step).Ensures before before before := by
  -- The outcome changes what is returned and not the state that is left.
  refine of_keeps fun state holds => ?_
  have reached := kept state holds
  show before (step state).2
  cases ran : step state with
  | mk outcome after =>
    rw [ran] at reached
    cases outcome <;> exact reached

/-- What every attempt keeps is kept by a few of them. -/
theorem retrying {attempt : Step σ (Except Error α)} (kept : attempt.Ensures before before before)
    (times : Nat) : (Step.retrying attempt times).Ensures before before before := by
  -- The last attempt gives its error as it is, and any other is followed by those that remain.
  induction times with
  | zero =>
    refine kept.bind fun outcome => ?_
    cases outcome with
    | ok value => exact pure value
    | error error => exact fail error
  | succ times ih =>
    refine kept.bind fun outcome => ?_
    cases outcome with
    | ok value => exact pure value
    | error error => exact ih

end Ensures

end Step

/-! ## Operations under way -/

namespace InProgress

/-- What an operation does with records and the journal keeps a property of its progress, whether it
succeeds or fails. -/
structure KeptByRecords {σ : Type} (services : Backend σ) (good : InProgress σ → Prop) : Prop where
  get : ∀ name, (lift (services.get name)).Ensures good good good
  put : ∀ definition expect, (lift (services.put definition expect)).Ensures good good good
  delete : ∀ name expect, (lift (services.delete name expect)).Ensures good good good
  flush : (lift services.flush).Ensures good good good
  advance : ∀ steps, (advance steps).Ensures good good good
  save : (save services).Ensures good good good
  setStatus : ∀ status, (setStatus services status).Ensures good good good

/-- What an operation does with services, statements among them, keeps a property of its
progress. -/
structure Kept {σ : Type} (services : Backend σ) (good : InProgress σ → Prop) : Prop
    extends KeptByRecords services good where
  runBatch : ∀ model statements, (runBatch services model statements).Ensures good good good

end InProgress

namespace Registry

open InProgress

variable {σ : Type} {registry : Registry σ} {good : InProgress σ → Prop}

/-- Changing a definition that was read keeps what the services keep. -/
theorem kept_changeRead (kept : KeptByRecords registry.backend good)
    (change : Model → Model × Bool) (read : Model) (expect : Expect) :
    (changeRead registry.backend change read expect).Ensures good good good := by
  -- Nothing is written when the change leaves the definition as it is.
  unfold changeRead
  split
  · refine (Step.Ensures.outcome (kept.put _ _)).bind fun outcome => ?_
    -- A write that comes too late makes the attempt void, and any other failure ends it.
    cases outcome with
    | ok record => exact (kept.advance 1).bind fun _ => kept.save.bind fun _ => .pure _
    | error error =>
      dsimp only
      split
      · exact .pure _
      · exact .fail error
  · exact .pure _

/-- Changing a record keeps what the services keep. -/
theorem kept_amend (kept : KeptByRecords registry.backend good) (name : String)
    (createMissing : Bool) (change : Model → Model × Bool) :
    (registry.amend name createMissing change).Ensures good good good := by
  -- One attempt reads the record and writes it back, so the attempts keep what one keeps.
  refine .retrying ?_ _
  unfold tryAmend
  refine (kept.get name).bind fun found => ?_
  cases found with
  | some record => exact kept_changeRead kept change record.definition _
  | none =>
    cases createMissing with
    | true => exact kept_changeRead kept change ⟨name, []⟩ .absent
    | false => exact .pure _

/-- The edit of a target keeps what the services keep. -/
theorem kept_propagate (kept : Kept registry.backend good) (source : String) (edit : TargetEdit) :
    (registry.propagate source edit).Ensures good good good := by
  have amends := kept_amend kept.toKeptByRecords edit.target true (edit.apply source)
  -- The columns are there to be dropped only where the target has a record.
  unfold propagate
  refine (kept.get edit.target).bind fun found => ?_
  dsimp only
  split
  · exact (kept.runBatch source edit.columns).bind fun _ => amends
  · exact amends

/-- The edits of all targets keep what the services keep. -/
theorem kept_propagateAll (kept : Kept registry.backend good) (source : String)
    (edits : List TargetEdit) : (registry.propagateAll source edits).Ensures good good good := by
  -- The edits are made one after the other, each from where the one before it ended.
  induction edits with
  | nil => exact .pure ()
  | cons first rest ih => exact (kept_propagate kept source first).bind fun _ => ih

/-- The write of the own record keeps what the services keep. -/
theorem kept_storeOwn (kept : KeptByRecords registry.backend good) (plan : WritePlan)
    (old : Option Record) : (registry.storeOwn plan old).Ensures good good good := by
  have writes : Step.Ensures (do
      let record ← lift (registry.backend.put plan.definition plan.expect)
      advance 1
      return record : Step (InProgress σ) Record) good good good :=
    (kept.put _ _).bind fun _ => (kept.advance 1).bind fun _ => .pure _
  unfold storeOwn
  -- A record that already says what the plan does is not written again.
  cases old with
  | none => exact writes
  | some record =>
    dsimp only
    split
    · exact .pure record
    · exact writes

/-- A plan to write keeps what the services keep. -/
theorem kept_applyWrite (kept : Kept registry.backend good) (plan : WritePlan)
    (old : Option Record) : (registry.applyWrite plan old).Ensures good good good :=
  -- Every part of the work calls a service or counts steps.
  (kept.setStatus _).bind fun _ =>
    (kept.runBatch _ _).bind fun _ =>
    (kept.setStatus _).bind fun _ =>
    (kept_propagateAll kept _ _).bind fun _ =>
    (kept_storeOwn kept.toKeptByRecords plan old).bind fun _ =>
    kept.flush.bind fun _ => .pure _

/-- Taking relations away keeps what the services keep. -/
theorem kept_stripAll (kept : KeptByRecords registry.backend good) (model : String)
    (others : List String) : (registry.stripAll model others).Ensures good good good := by
  -- Each model is changed by an attempt of its own.
  induction others with
  | nil => exact .pure ()
  | cons first rest ih =>
    exact (kept_amend kept first false (Model.stripChange model)).bind fun _ => ih

/-- A plan to delete keeps what the services keep. -/
theorem kept_applyDelete (kept : Kept registry.backend good) (plan : DeletePlan) :
    (registry.applyDelete plan).Ensures good good good :=
  -- Every part of the work calls a service or counts steps.
  (kept.setStatus _).bind fun _ =>
    (kept.runBatch _ _).bind fun _ =>
    (kept.setStatus _).bind fun _ =>
    (kept_stripAll kept.toKeptByRecords _ _).bind fun _ =>
    (kept.delete _ _).bind fun _ =>
    (kept.advance 1).bind fun _ => kept.flush

/-- Writing repaired definitions keeps what the services keep. -/
theorem kept_writeRepaired (kept : KeptByRecords registry.backend good)
    (updates : List (Model × Nat)) :
    (registry.writeRepaired updates).Ensures good good good := by
  -- Each definition is written and counted in turn.
  induction updates with
  | nil => exact .pure ()
  | cons first rest ih => exact (kept.put _ _).bind fun _ => (kept.advance 1).bind fun _ => ih

end Registry

end ModelCatalog
