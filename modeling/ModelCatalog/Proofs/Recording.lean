import ModelCatalog.Proofs.ServiceInvariants
import ModelCatalog.Proofs.Submission

/-! Recording: a recorder without rules has applied exactly the statements that were submitted. -/

namespace ModelCatalog

open InProgress

/-- Without rules nothing is refused. -/
theorem Recorder.consult_nil (index : Nat) (batch : List String) :
    consult index batch [] = (none, []) := by
  -- Each statement is asked about by itself, and there is nothing to ask.
  induction batch generalizing index with
  | nil => rfl
  | cons first rest ih => exact ih (index + 1)

namespace Noted

/-- The recorder refuses nothing, and it has applied what was noted down. -/
def Recorded (noted : Noted Database) : Prop :=
  noted.state.recorder.rules = [] ∧
    noted.state.recorder.applied = noted.statements.map Statement.sql

/-- The operation under way is one on a database that has recorded the notes. -/
abbrev RecordedIn (progress : InProgress (Noted Database)) : Prop := progress.state.Recorded

/-- A step on a database that leaves the recorder alone keeps what is recorded. -/
theorem ensures_lift {α : Type} {step : Step Database α}
    (apart : ∀ database, (step database).2.recorder = database.recorder) :
    (InProgress.lift (Noted.lift step)).Ensures RecordedIn RecordedIn RecordedIn := by
  -- The property is about the recorder and the notes alone, and neither has changed.
  refine .of_keeps fun progress recorded => ?_
  show (step progress.state.state).2.recorder.rules = [] ∧ _
  unfold RecordedIn Recorded at recorded
  rw [← apart] at recorded
  exact recorded

/-- What is submitted as a batch is recorded. -/
theorem ensures_runBatch (model : String) (statements : List Statement) :
    (runBatch (backend Database.backend) model statements).Ensures RecordedIn RecordedIn
      RecordedIn := by
  cases statements with
  -- No statements are no batch at all.
  | nil => exact .pure ()
  | cons first rest =>
    refine .of_keeps fun progress recorded => ?_
    -- The recorder has no rules, so the whole batch is applied.
    have executed : (backend Database.backend).executeBatch (first :: rest) progress.state =
        (.ok (), ⟨{ progress.state.state with
          recorder := { progress.state.state.recorder with
            applied := progress.state.state.recorder.applied ++
              (first :: rest).map Statement.sql } },
          progress.state.statements ++ first :: rest⟩) := by
      simp only [backend, Database.backend, Database.executeBatch, Recorder.executeBatch,
        recorded.1, Recorder.consult_nil]
    rw [runBatch_of_ok model executed]
    refine ⟨recorded.1, ?_⟩
    -- The batch comes after what was submitted before, on both sides.
    show progress.state.state.recorder.applied ++ _ = (progress.state.statements ++ _).map _
    rw [recorded.2, List.map_append]

/-- Whatever an operation does with the services of a database keeps it recorded. -/
theorem kept_recorded : Kept (backend Database.backend) RecordedIn where
  get := fun _ => ensures_lift fun _ => rfl
  put := fun definition expect => ensures_lift fun database => by
    -- Whether the guard holds or not, the recorder is not touched.
    show (Database.put definition expect database).2.recorder = _
    unfold Database.put
    split <;> rfl
  delete := fun name expect => ensures_lift fun database => by
    show (Database.delete name expect database).2.recorder = _
    unfold Database.delete
    split <;> rfl
  flush := ensures_lift fun _ => rfl
  advance := fun _ _ recorded => recorded
  save := fun _ recorded => recorded
  setStatus := fun _ _ recorded => recorded
  runBatch := ensures_runBatch

/-- An operation under the eyes of the journal is recorded when its work is. -/
theorem recorded_journaled {α : Type} {noted : Noted Database} (recorded : noted.Recorded)
    (model : String) (kind : OperationKind) {work : Step (InProgress (Noted Database)) α}
    (kept : work.Ensures RecordedIn RecordedIn RecordedIn) :
    (journaled (backend Database.backend) model kind work noted).2.Recorded := by
  -- The journal leaves the recorder alone, before the work and after it.
  have reached := kept ⟨((backend Database.backend).begin model kind noted).1,
    ((backend Database.backend).begin model kind noted).2⟩ recorded
  simp only [journaled]
  cases ran : work ⟨((backend Database.backend).begin model kind noted).1,
      ((backend Database.backend).begin model kind noted).2⟩ with
  | mk outcome after =>
    rw [ran] at reached
    cases outcome <;> exact reached

/-- What a call to write submits is recorded. -/
theorem recorded_write {noted : Noted Database} {catalog : Catalog}
    (configuration : Configuration) (holds : noted.state.store = catalog.store)
    (recorded : noted.Recorded) (name : String) (fields : List Field) (mustExist : Bool) :
    ((registry (registryWith .recording configuration)).write name fields mustExist
      noted).2.Recorded := by
  -- A write is refused with nothing done, or it is an operation under the eyes of the journal.
  rw [(shows .recording configuration holds).write]
  split
  · exact recorded
  · exact recorded_journaled recorded name _ (Registry.kept_applyWrite kept_recorded _ _)

end Noted

end ModelCatalog
