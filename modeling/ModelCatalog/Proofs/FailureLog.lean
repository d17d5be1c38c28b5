import ModelCatalog.Proofs.Journaling

/-! The log of failures: what the journal lists after any run of calls. -/

namespace ModelCatalog

open InProgress

/-! ## One call -/

namespace Call

/-- The name under which the operation of a call is journaled. -/
def journalName : Call → String
  | change request => request.subject
  | reconcile _ => allModels

/-- The kind of the operation of a call: what is written is defined when it is absent and updated
when it is present. -/
def kind (catalog : Catalog) : Call → OperationKind
  | change (.define name _) | change (.update name _) =>
    if (catalog.find? name).isSome then .update else .define
  | change (.delete _) => .delete
  | reconcile _ => .reconcile

/-- What a call has found out before its operation begins: why it is refused, or that it is not. -/
def validated (configuration : Configuration) (catalog : Catalog) : Call → Except Error Unit
  | change (.define name fields) =>
    (Registry.preparedWrite configuration catalog name fields false).map fun _ => ()
  | change (.update name fields) =>
    (Registry.preparedWrite configuration catalog name fields true).map fun _ => ()
  | change (.delete name) => (Registry.preparedDelete catalog name).map fun _ => ()
  | reconcile reapplying =>
    (RepairPlan.ofRecords configuration.system catalog.members reapplying).map fun _ => ()

/-- The entries that are left of the past when the call succeeds: a repair clears them. -/
def left (past : List Operation) : Call → List Operation
  | change _ => past
  | reconcile _ => []

/-- The failures since the last successful repair, after a call that has ended: a call adds one when
it was validated and failed. -/
def failures (configuration : Configuration) (catalog : Catalog) (before after : Database)
    (earlier : List Operation) (call : Call) : Except Error Unit → List Operation
  | .ok _ => call.left earlier
  | .error error =>
    match call.validated configuration catalog with
    | .error _ => earlier
    | .ok _ =>
      earlier ++ [.ofFailure call.journalName (call.kind catalog) error before after]

end Call

/-- A call is refused without effect, or it is validated and the end of its operation leaves the
trail of it in the journal. -/
def Journals {α : Type} (validated : Except Error Unit) (model : String) (kind : OperationKind)
    (left : List Operation) (before : Database) (ended : Except Error α × Database) : Prop :=
  (∃ error, validated = .error error ∧ ended = (.error error, before)) ∨
    validated = .ok () ∧ before.recorder.applied <+: ended.2.recorder.applied ∧
      before.journal.Grown ended.2.journal (Operation.trail model kind before ended.2 left ended.1)

/-- What a call leaves in the journal does not depend on the value it gives. -/
theorem Journals.discarding {α : Type} {validated : Except Error Unit} {model : String}
    {kind : OperationKind} {left : List Operation} {before : Database} {step : Step Database α}
    (journals : Journals validated model kind left before (step before)) :
    Journals validated model kind left before
      ((do let _ ← step : Step Database Unit) before) := by
  have same : (do let _ ← step : Step Database Unit) before =
      ((step before).1.map (fun _ => ()), (step before).2) := Step.map_run step (fun _ => ()) before
  rw [same]
  -- The value alone is dropped, so both ways to end stay what they were.
  rcases journals with ⟨error, refused, ended⟩ | ⟨valid, applied, grown⟩
  · rw [ended]
    exact .inl ⟨error, refused, rfl⟩
  · refine .inr ⟨valid, applied, ?_⟩
    cases outcome : (step before).1 with
    | ok value =>
      rw [outcome] at grown
      exact grown
    | error error =>
      rw [outcome] at grown
      exact grown

namespace Registry

variable {executor : Executor} {configuration : Configuration} {database : Database}
  {catalog : Catalog}

/-- A call to write leaves its trail. -/
theorem write_journals (honest : executor.Honest) (holds : database.store = catalog.store)
    (numbered : database.journal.Numbered) (name : String) (fields : List Field)
    (mustExist : Bool) :
    Journals ((preparedWrite configuration catalog name fields mustExist).map fun _ => ()) name
      (if (catalog.find? name).isSome then .update else .define) database.journal.entries database
      ((registryWith executor configuration).write name fields mustExist database) := by
  rw [(shows_database executor configuration holds).write]
  -- The plan is made first: where there is none nothing begins, and where there is one its
  -- operation accounts for each step that it has.
  cases prepared : preparedWrite configuration catalog name fields mustExist with
  | error error => exact .inl ⟨error, rfl, rfl⟩
  | ok plan =>
    obtain ⟨-, planned⟩ := (preparedWrite_eq_ok configuration).mp prepared
    have sound := WritePlan.sound_of_planWrite planned
    exact .inr ⟨rfl, journaled_entries numbered
      (applyWrite_counted honest sound.nodup_targets sound.notMem_targets _)
      (kept_applyWrite (kept_tracks executor _ _) plan _) rfl⟩

/-- A call to delete leaves its trail. -/
theorem delete_journals (honest : executor.Honest) (holds : database.store = catalog.store)
    (numbered : database.journal.Numbered) (name : String) :
    Journals ((preparedDelete catalog name).map fun _ => ()) name .delete
      database.journal.entries database
      ((registryWith executor configuration).delete name database) := by
  rw [(shows_database executor configuration holds).delete]
  -- A deletion has the same two parts, a plan and the operation that follows it.
  cases prepared : preparedDelete catalog name with
  | error error => exact .inl ⟨error, rfl, rfl⟩
  | ok plan =>
    obtain ⟨-, planned⟩ := preparedDelete_eq_ok.mp prepared
    obtain ⟨record, -, model, referencing, expect⟩ := Catalog.fits_of_deletion planned
    -- The models that refer to the record are others, each of them once.
    have distinct : plan.referencing.Nodup := referencing ▸ Catalog.nodup_referencing _ _
    have apart : plan.model ∉ plan.referencing := by
      rw [referencing, model]
      exact Catalog.notMem_referencing _ _
    exact .inr ⟨rfl, journaled_entries numbered (applyDelete_counted honest expect distinct apart)
      (kept_applyDelete (kept_tracks executor _ _) plan) rfl⟩

/-- A call to reconcile leaves its trail, and nothing else of the past when it succeeds. -/
theorem reconcile_journals (honest : executor.Honest) (holds : database.store = catalog.store)
    (numbered : database.journal.Numbered) (reapplying : Bool) :
    Journals ((RepairPlan.ofRecords configuration.system catalog.members reapplying).map
        fun _ => ()) allModels .reconcile [] database
      ((registryWith executor configuration).reconcile reapplying database) := by
  rw [reconcile_run executor configuration holds]
  -- So has a repair, whose success takes the past along with it.
  cases planned : RepairPlan.ofRecords configuration.system catalog.members reapplying with
  | error error => exact .inl ⟨error, rfl, rfl⟩
  | ok plan =>
    have distinct : (plan.updates.map fun update => update.1.name).Nodup := by
      rw [RepairPlan.updates_of_ofRecords planned]
      exact RepairPlan.nodup_names_updated _ _ _
    exact .inr ⟨rfl, journaled_entries numbered (applyRepair_counted honest distinct)
      (applyRepair_ensures plan _ _) rfl⟩

end Registry

namespace Call

variable {executor : Executor} {configuration : Configuration} {database after : Database}
  {catalog : Catalog} {result : Except Error Unit}

/-- A call leaves its trail. -/
theorem run_journals (honest : executor.Honest) (holds : database.store = catalog.store)
    (numbered : database.journal.Numbered) (call : Call) :
    Journals (call.validated configuration catalog) call.journalName (call.kind catalog)
      (call.left database.journal.entries) database
      (call.run (registryWith executor configuration) database) := by
  -- Each call is one of the three operations, and the two that write drop the record they give.
  cases call with
  | change request =>
    cases request with
    | define name fields => exact (Registry.write_journals honest holds numbered _ _ _).discarding
    | update name fields => exact (Registry.write_journals honest holds numbered _ _ _).discarding
    | delete name => exact Registry.delete_journals honest holds numbered name
  | reconcile reapplying =>
    exact (Registry.reconcile_journals honest holds numbered reapplying).discarding

/-- After a call the journal has the failures that there were and the one of the call, if it is
one. -/
theorem grown_of_run (honest : executor.Honest) (holds : database.store = catalog.store)
    (numbered : database.journal.Numbered) {call : Call}
    (ran : call.run (registryWith executor configuration) database = (result, after)) :
    database.journal.Grown after.journal
      (call.failures configuration catalog database after database.journal.entries result) := by
  -- Every kind of call has its own lemma; here they meet in what the call gave back.
  have journals : Journals _ _ _ _ _ (call.run (registryWith executor configuration) database) :=
    run_journals honest holds numbered call
  rw [ran] at journals
  rcases journals with ⟨error, refused, ended⟩ | ⟨valid, -, grown⟩
  · cases ended
    -- A call that is refused before its work begins leaves the journal alone.
    rw [failures, refused]
    exact ⟨rfl, numbered, Nat.le_refl _⟩
  · cases result with
    | ok value => exact grown
    | error error =>
      rw [failures, valid]
      exact grown

/-- A failure in the list after a call was there before, or it is the one of the call. -/
theorem mem_failures {earlier : List Operation} {call : Call} {entry : Operation}
    (listed : entry ∈ call.failures configuration catalog database after earlier result) :
    entry ∈ earlier ∨ ∃ error, result = .error error ∧
      entry = .ofFailure call.journalName (call.kind catalog) error database after := by
  -- A call that succeeds adds nothing, and one that fails adds its own failure at most.
  cases result with
  | ok value =>
    cases call with
    | change request => exact .inl listed
    | reconcile reapplying => cases listed
  | error error =>
    rw [failures] at listed
    split at listed
    · exact .inl listed
    · rcases List.mem_append.mp listed with there | new
      · exact .inl there
      · exact .inr ⟨error, rfl, List.mem_singleton.mp new⟩

/-- What is stored after a call to write can all be read. -/
theorem exists_catalog_of_write (holds : database.store = catalog.store) {name : String}
    {fields : List Field} {mustExist : Bool} {outcome : Except Error Record}
    (ran : (registryWith executor configuration).write name fields mustExist database =
      (outcome, after)) : ∃ next : Catalog, after.store = next.store := by
  -- Before its plan a write changes nothing, and behind it every end leaves a catalog.
  rcases Registry.write_cases executor configuration holds name fields mustExist with
    ⟨error, refused, -⟩ | ⟨allowed, plan, planned⟩
  · cases refused.symm.trans ran
    exact ⟨catalog, holds⟩
  · -- The edits that were made before it stopped have left a catalog as well.
    rcases Registry.write_of_planned executor configuration holds allowed planned with
      ⟨record, final, wrote, -, stored, -⟩ | ⟨error, final, done, rest, stopped, -, -, stored, -⟩
    · cases wrote.symm.trans ran
      exact ⟨_, stored⟩
    · cases stopped.symm.trans ran
      exact ⟨_, stored⟩

/-- What is stored after a call can all be read, also when the call stopped partway. -/
theorem exists_catalog_of_run (holds : database.store = catalog.store) {call : Call}
    (ran : call.run (registryWith executor configuration) database = (result, after)) :
    ∃ next : Catalog, after.store = next.store := by
  -- Writes, deletions and repairs are each known by how they end.
  cases call with
  | change request =>
    cases request with
    | define name fields =>
      obtain ⟨outcome, wrote, -⟩ := Step.of_discarded ran
      exact exists_catalog_of_write holds wrote
    | update name fields =>
      obtain ⟨outcome, wrote, -⟩ := Step.of_discarded ran
      exact exists_catalog_of_write holds wrote
    | delete name =>
      have ran : (registryWith executor configuration).delete name database = (result, after) := ran
      rcases Registry.delete_cases executor configuration holds name with
        ⟨error, refused, -⟩ | ⟨identifier, plan, planned⟩
      · -- A call that is refused before its work leaves the records that there were.
        cases refused.symm.trans ran
        exact ⟨catalog, holds⟩
      · rcases Registry.delete_of_planned executor configuration holds identifier planned with
          ⟨final, deleted, -, stored⟩ | ⟨error, final, stopped, -, stored, -⟩
        · -- A deletion that is carried out leaves the others, and one that is stopped leaves all.
          cases deleted.symm.trans ran
          exact ⟨_, stored⟩
        · cases stopped.symm.trans ran
          exact ⟨catalog, stored⟩
  | reconcile reapplying =>
    obtain ⟨outcome, repaired, -⟩ := Step.of_discarded ran
    rcases Registry.reconcile_cases executor configuration holds reapplying with
      ⟨error, final, stopped, -, stored⟩ | ⟨report, final, done, -, stored⟩
    · -- A repair that is stopped leaves the records that there were.
      cases stopped.symm.trans repaired
      exact ⟨catalog, stored⟩
    · -- One that ends well leaves the repaired ones.
      cases done.symm.trans repaired
      exact ⟨_, stored⟩

end Call

/-! ## Runs of calls -/

/-- Runs of calls on a database that begins with an empty journal and with whatever records, with
the failures since the last successful repair, the oldest first. Executors may come and go; other
things than the records and the entries of the journal may change at any time, and numbers of
operations may be left out. -/
inductive Logged (configuration : Configuration) : Database → List Operation → Prop where
  | start {database : Database} {catalog : Catalog} (readable : database.store = catalog.store)
    (none : database.journal.entries = []) : Logged configuration database []
  | call {database after : Database} {failures : List Operation} {catalog : Catalog}
    {result : Except Error Unit} (executor : Executor) (honest : executor.Honest) (call : Call)
    (logged : Logged configuration database failures) (readable : database.store = catalog.store)
    (ran : call.run (registryWith executor configuration) database = (result, after)) :
    Logged configuration after
      (call.failures configuration catalog database after failures result)
  | beside {database after : Database} {failures : List Operation}
    (logged : Logged configuration database failures) (sameStore : after.store = database.store)
    (sameEntries : after.journal.entries = database.journal.entries)
    (later : database.journal.nextId ≤ after.journal.nextId) :
    Logged configuration after failures

namespace Logged

variable {configuration : Configuration} {database : Database} {failures : List Operation}

/-- After every run what is stored can all be read, and the journal has the failures and no other
entries, all of operations that have begun. -/
theorem entries_eq (logged : Logged configuration database failures) :
    (∃ catalog : Catalog, database.store = catalog.store) ∧
      database.journal.entries = failures ∧ database.journal.Numbered := by
  -- The induction is on the run: a call adds its failure behind those that there were.
  induction logged with
  | start readable none => exact ⟨⟨_, readable⟩, none, by simp [Journal.Numbered, none]⟩
  | call executor honest call _ readable ran ih =>
    obtain ⟨-, entries, numbered⟩ := ih
    obtain ⟨next, stored⟩ := Call.exists_catalog_of_run readable ran
    have grown := Call.grown_of_run honest readable numbered ran
    rw [entries] at grown
    exact ⟨⟨next, stored⟩, grown.entries, grown.numbered⟩
  | beside _ sameStore sameEntries later ih =>
    obtain ⟨⟨catalog, holds⟩, entries, numbered⟩ := ih
    refine ⟨⟨catalog, sameStore.trans holds⟩, sameEntries.trans entries, fun entry listed => ?_⟩
    rw [sameEntries] at listed
    exact Nat.lt_of_lt_of_le (numbered entry listed) later

/-- Every failure in the list of them is an operation that has failed. -/
theorem status_of_mem (logged : Logged configuration database failures) {entry : Operation}
    (listed : entry ∈ failures) : entry.status = .failed := by
  -- Nothing else gets on the list than what a failed call leaves there.
  induction logged with
  | start => cases listed
  | call executor honest call _ readable ran ih =>
    rcases Call.mem_failures listed with earlier | ⟨error, -, rfl⟩
    · exact ih earlier
    · rfl
  | beside _ _ _ _ ih => exact ih listed

/-- After every run the pending operations are the failures of the calls that were validated since
the last successful repair, the oldest first, and what is stored can all be read. -/
theorem pendingOperations_run (logged : Logged configuration database failures)
    (executor : Executor) :
    (registryWith executor configuration).pendingOperations database = (.ok failures, database) ∧
      ∃ catalog : Catalog, database.store = catalog.store := by
  obtain ⟨readable, entries, -⟩ := logged.entries_eq
  refine ⟨?_, readable⟩
  -- All entries have failed, so none is complete and the filter keeps them.
  have unfinished : failures.filter (fun entry => !entry.isComplete) = failures := by
    rw [List.filter_eq_self]
    intro entry listed
    rw [Operation.isComplete, logged.status_of_mem listed]
    rfl
  show (Except.ok (database.journal.entries.filter fun entry => !entry.isComplete), database) = _
  rw [entries, unfinished]

/-- A call that defines notes whose tags are in a join table. -/
def tagging : Call := .change (.define "Note" [.ofRelation "tags" (.to .manyToMany "Role")])

/-- An empty database whose executor refuses the join table. -/
def untagged : Database :=
  { Database.empty false 0 with recorder := (Recorder.new false).failWhenContains "Note_tags" }

/-- How the call ends when the join table is refused. -/
def tagless : Except Error Unit × Database :=
  tagging.run (registryWith .recording .standard) untagged

/-- The failure of the call, behind the table of the notes. -/
def taglessFailure : Operation where
  id := 0
  model := "Note"
  kind := .define
  status := .failed
  completedSteps := 1
  error := some
    "create_join_table on table Note_tags_Role (statement 1) failed for model Note: statement rejected: injected failure"

/-- The call that was refused on its way is the one pending operation, with the step it has done. -/
theorem pendingOperations_tagless :
    Logged .standard tagless.2 [taglessFailure] ∧
      (registryWith .recording .standard).pendingOperations tagless.2 =
        (.ok [taglessFailure], tagless.2) := by
  -- There is nothing in the store at the start.
  have empty : untagged.store = Catalog.store (∅ : Roster Record) := rfl
  have begins : Logged .standard untagged [] := .start empty rfl
  have ran : tagging.run (registryWith .recording .standard) untagged = (tagless.1, tagless.2) :=
    (Prod.eta tagless).symm
  have logged := begins.call .recording Executor.honest_recording tagging empty ran
  -- The failure is worked out from the result of the call and the journal behind it.
  have failed : tagging.failures .standard (∅ : Roster Record) untagged tagless.2 [] tagless.1 =
      [taglessFailure] := by decide +kernel
  rw [failed] at logged
  exact ⟨logged, (logged.pendingOperations_run .recording).1⟩

end Logged

end ModelCatalog
