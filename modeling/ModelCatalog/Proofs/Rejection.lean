import ModelCatalog.Proofs.History

/-! Rejections: what a change leaves behind when one of its statements is refused. -/

namespace ModelCatalog

variable {executor : Executor} {configuration : Configuration} {database stopped : Database}
  {catalog : Catalog} {error : Error}

namespace Registry

/-- A write with a refused statement was planned, and some of its edits are done. -/
theorem of_rejected_write (holds : database.store = catalog.store) {name : String}
    {fields : List Field} {mustExist : Bool}
    (ran : (registryWith executor configuration).write name fields mustExist database =
      (.error error, stopped))
    (rejected : error.IsRejection) :
    Allowed catalog name mustExist ∧ ∃ plan done,
      (configuration.context catalog).planWrite (catalog.find? name)
        (configuration.declared name fields) = .ok plan ∧
      done.Sublist plan.edits ∧
      stopped.store = (catalog.propagated name database.now done).store := by
  rcases write_cases executor configuration holds name fields mustExist with
    ⟨other, refused, unrelated⟩ | ⟨allowed, plan, planned⟩
  · -- A write that is turned down before it is planned tells of another error.
    rw [refused] at ran
    cases ran
    exact absurd rejected unrelated
  · refine ⟨allowed, plan, ?_⟩
    -- Once planned it succeeds, which this one did not, or stops behind some of its edits.
    rcases write_of_planned executor configuration holds allowed planned with
      ⟨record, final, wrote, -⟩ | ⟨other, final, done, rest, failed, -, edits, stored, -⟩
    · rw [wrote] at ran
      cases ran
    · rw [failed] at ran
      cases ran
      exact ⟨done, planned, edits ▸ List.sublist_append_left done rest, stored⟩

/-- A deletion with a refused statement was planned, and nothing of it is done. -/
theorem of_rejected_delete (holds : database.store = catalog.store) {name : String}
    (ran : (registryWith executor configuration).delete name database = (.error error, stopped))
    (rejected : error.IsRejection) :
    isIdentifier name = true ∧ (∃ plan, catalog.deletion name = .ok plan) ∧
      stopped.store = catalog.store := by
  rcases delete_cases executor configuration holds name with
    ⟨other, refused, unrelated⟩ | ⟨identifier, plan, planned⟩
  · -- A deletion that is turned down before it is planned tells of another error.
    rw [refused] at ran
    cases ran
    exact absurd rejected unrelated
  · refine ⟨identifier, ⟨plan, planned⟩, ?_⟩
    -- Once planned it succeeds, which this one did not, or fails before it touches a record.
    rcases delete_of_planned executor configuration holds identifier planned with
      ⟨final, deleted, -⟩ | ⟨other, final, failed, -, stored, -⟩
    · rw [deleted] at ran
      cases ran
    · rw [failed] at ran
      cases ran
      exact stored

end Registry

namespace Change

/-- A change deletes its subject or writes it. -/
theorem cases (request : Change) :
    (∀ registry, request.run registry = registry.delete request.subject) ∨
      ∃ fields mustExist, ∀ registry, request.run registry = (do
        let _ ← registry.write request.subject fields mustExist) := by
  -- To define and to update are both writes, which differ in whether there must be something.
  cases request with
  | define name fields => exact Or.inr ⟨fields, false, fun _ => rfl⟩
  | update name fields => exact Or.inr ⟨fields, true, fun _ => rfl⟩
  | delete name => exact Or.inl fun _ => rfl

/-- A change with a refused statement leaves everything as it was, or it is a sound write of its
subject with some edits done. -/
theorem of_rejected (holds : database.store = catalog.store) {request : Change}
    (ran : request.run (registryWith executor configuration) database = (.error error, stopped))
    (rejected : error.IsRejection) :
    stopped.store = catalog.store ∨ ∃ (plan : WritePlan) (done : List TargetEdit),
      plan.definition.name = request.subject ∧
      plan.Sound (configuration.context catalog) (catalog.find? plan.definition.name) ∧
      done.Sublist plan.edits ∧
      stopped.store = (catalog.propagated plan.definition.name database.now done).store := by
  rcases request.cases with deletes | ⟨fields, mustExist, writes⟩
  · -- A deletion runs its statements before any record, so a refused one leaves them all.
    rw [deletes] at ran
    exact Or.inl (Registry.of_rejected_delete holds ran rejected).2.2
  · rw [writes] at ran
    obtain ⟨outcome, wrote, same⟩ := Step.of_discarded ran
    cases outcome with
    | ok record => cases same
    | error other =>
      -- The error of the write is that of the change, whose value alone is dropped.
      cases same
      obtain ⟨-, plan, done, planned, listed, stored⟩ :=
        Registry.of_rejected_write holds wrote rejected
      obtain ⟨own, sound⟩ := WritePlan.sound_of_declared planned
      exact Or.inr ⟨plan, done, own, sound, listed, own ▸ stored⟩

end Change

/-! ## A change that is refused -/

namespace Reachable

/-- The same state with an executor in another state. -/
def withRecorder (database : Database) (change : Recorder → Recorder) : Database :=
  { database with recorder := change database.recorder }

/-- The state of the executor is no part of the store. -/
theorem store_withRecorder (database : Database) (change : Recorder → Recorder) :
    (withRecorder database change).store = database.store := rfl

/-- A state in which chapters are models. -/
def divided : Database :=
  ((Call.change (.define "Chapter" [])).run (registryWith .recording .standard)
    (.empty false 0)).2

/-- A state in which chapters and notes are models. -/
def noted : Database :=
  ((Call.change (.define "Note" [])).run (registryWith .recording .standard) divided).2

/-- A state in which chapters and notes are models, and books have a number of chapters. -/
def shelved : Database :=
  ((Call.change (.define "Book" [.ofScalar "chapters" .integer])).run
    (registryWith .recording .standard) noted).2

/-- The change that relates books to their chapters and to their notes. -/
def relating : Change :=
  .define "Book"
    [.ofRelation "chapters" (.to .oneToMany "Chapter"), .ofRelation "notes" (.to .oneToMany "Note")]

/-- The same state with an executor that refuses to alter the table of notes. -/
def barred : Database :=
  withRecorder shelved fun recorder => recorder.failWhenContains "ALTER TABLE \"Note\""

/-- How the change ends when the table of notes cannot be altered. -/
def halted : Except Error Unit × Database :=
  relating.run (registryWith .recording .standard) barred

/-- The state before the change is one of those reached. -/
theorem reached_barred :
    Reachable .standard (Configuration.standard.system.contains · = false) barred := by
  -- The three definitions come one after the other, each from the state the last one has reached,
  -- and in the end only the executor is made another.
  have about : ∀ name ∈ ["Chapter", "Note", "Book"],
      Configuration.standard.system.contains name = false := by decide +kernel
  have first : Reachable .standard (Configuration.standard.system.contains · = false) divided :=
    of_success (.empty false 0) .recording (.change (.define "Chapter" []))
      (about "Chapter" (by simp)) (by decide +kernel)
  have second : Reachable .standard (Configuration.standard.system.contains · = false) noted :=
    of_success first .recording (.change (.define "Note" [])) (about "Note" (by simp))
      (by decide +kernel)
  have third : Reachable .standard (Configuration.standard.system.contains · = false) shelved :=
    of_success second .recording (.change (.define "Book" [.ofScalar "chapters" .integer]))
      (about "Book" (by simp)) (by decide +kernel)
  exact .beside third (store_withRecorder _ _)

/-- The change fails at the table of notes. -/
theorem relating_run : relating.run (registryWith .recording .standard) barred =
    (.error (.partway "Book" 3 3
      (.execution "Book" "Note" .addColumn 0 (.rejected "injected failure" none))), halted.2) := by
  -- The outcome is worked out, and the state is whatever the run has left.
  have ends : halted.1 = .error (.partway "Book" 3 3
      (.execution "Book" "Note" .addColumn 0 (.rejected "injected failure" none))) := by
    decide +kernel
  exact Step.eq_of_fst ends

end Reachable

end ModelCatalog
