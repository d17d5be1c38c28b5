import ModelCatalog.Proofs.Rest
import ModelCatalog.Proofs.WriteRun
import ModelCatalog.Registry.Reconcile

/-! Runs of reconciliations: what repairing all records leaves in the store, however its statements
fare. -/

namespace ModelCatalog

open InProgress

namespace RepairPlan

/-- The definitions that are written because they changed have different names. -/
theorem nodup_names_updated (records : List Record) (scanned repaired : Models) :
    ((updated records scanned repaired).map fun update => update.1.name).Nodup := by
  -- An update is made of the model that is left.
  have made : ∀ (model : Model) (update : Model × Nat),
      (let unchanged := (scanned.find? model.name).any fun before => before.sameAs model
        if unchanged then none
        else (versionOf records model.name).map fun version => (model, version)) = some update →
      update.1 = model := by
    intro model update same
    dsimp only at same
    split at same
    · cases same
    · obtain ⟨_, -, rfl⟩ := Option.map_eq_some_iff.mp same
      rfl
  refine List.pairwise_map.mpr (List.Pairwise.filterMap _ ?_
    (List.pairwise_map.mp (Roster.names_nodup repaired)))
  -- Updates are made of models with their names, of which there is one each.
  intro one other differ first firstMade second secondMade
  rw [made one first firstMade, made other second secondMade]
  exact differ

/-- A plan of a repair writes the definitions that changed, and reports what was done and how many
they are. -/
theorem exists_of_ofRecords {system : SystemModels} {records : List Record} {reapplying : Bool}
    {plan : RepairPlan} (planned : ofRecords system records reapplying = .ok plan) :
    ∃ statements, plan =
      { updates := updated records (scanned records) (repaired system records).models
        statements := statements
        report := { (repaired system records).report with
          modelsUpdated :=
            (updated records (scanned records) (repaired system records).models).length } } := by
  unfold ofRecords at planned
  -- The option only tells which statements there are.
  cases reapplying with
  | true =>
    obtain ⟨statements, -, same⟩ := Outcome.bind_eq_ok.mp planned
    exact ⟨statements, (Outcome.pure_eq_ok.mp same).symm⟩
  | false =>
    obtain ⟨statements, -, same⟩ := Outcome.bind_eq_ok.mp planned
    exact ⟨statements, (Outcome.pure_eq_ok.mp same).symm⟩

/-- A plan of a repair writes the definitions that changed. -/
theorem updates_of_ofRecords {system : SystemModels} {records : List Record} {reapplying : Bool}
    {plan : RepairPlan} (planned : ofRecords system records reapplying = .ok plan) :
    plan.updates = updated records (Roster.ofList (records.map Record.definition))
      (repair system (Roster.ofList (records.map Record.definition))
        (.untouched records.length)).models := by
  -- Only the statements of the plan may fail, and the updates do not look at them.
  obtain ⟨_, rfl⟩ := exists_of_ofRecords planned
  rfl

end RepairPlan

namespace Catalog

variable {catalog : Catalog} {now : Nat}

/-- Write repaired definitions, in order. -/
def rewritten (catalog : Catalog) (now : Nat) (updates : List (Model × Nat)) : Catalog :=
  updates.foldl (fun catalog update => catalog.written update.1 now) catalog

/-- The definitions of a catalog after repair. -/
def repairedModels (catalog : Catalog) (system : SystemModels) : Models :=
  (RepairPlan.repair system catalog.models (.untouched catalog.members.length)).models

/-- The definitions that a repair writes, each with the version it was read at. -/
def updates (catalog : Catalog) (system : SystemModels) : List (Model × Nat) :=
  RepairPlan.updated catalog.members catalog.models (catalog.repairedModels system)

/-- Repair all records. -/
def reconciled (catalog : Catalog) (system : SystemModels) (now : Nat) : Catalog :=
  catalog.rewritten now (catalog.updates system)

/-- Updates are written under their names. -/
theorem find?_rewritten_of_notMem {updates : List (Model × Nat)} {name : String}
    (apart : name ∉ updates.map fun update => update.1.name) :
    (catalog.rewritten now updates).find? name = catalog.find? name := by
  -- The induction is on the updates; each is written under another name.
  induction updates generalizing catalog with
  | nil => rfl
  | cons first rest ih =>
    rw [List.map_cons, List.mem_cons, not_or] at apart
    refine (ih apart.2).trans ?_
    rw [find?_written, if_neg (Ne.symm apart.1)]

/-- Of updates to different names, each is written. -/
theorem definition?_rewritten {updates : List (Model × Nat)}
    (distinct : (updates.map fun update => update.1.name).Nodup) {update : Model × Nat}
    (listed : update ∈ updates) :
    (catalog.rewritten now updates).definition? update.1.name = some update.1 := by
  induction updates generalizing catalog with
  | nil => cases listed
  | cons first rest ih =>
    rw [List.map_cons, List.nodup_cons] at distinct
    rcases List.mem_cons.mp listed with rfl | later
    · -- Later updates go to other names and leave it written.
      have kept : ((catalog.written update.1 now).rewritten now rest).find? update.1.name =
          (catalog.written update.1 now).find? update.1.name :=
        find?_rewritten_of_notMem distinct.1
      have wrote := definition?_written catalog update.1 now update.1.name
      rw [if_pos rfl, definition?, ← kept] at wrote
      exact wrote
    · exact ih distinct.2 later

/-- The version of a name is that of its record. -/
theorem versionOf_members (catalog : Catalog) (name : String) :
    RepairPlan.versionOf catalog.members name = (catalog.find? name).map Record.version := by
  unfold RepairPlan.versionOf
  -- Versions are read from the last record of a name, and a catalog has one of each.
  cases last : catalog.members.reverse.find? fun record => record.name == name with
  | none =>
    have missing : catalog.find? name = none := by
      rw [Roster.find?, List.find?_eq_none]
      intro record listed
      exact List.find?_eq_none.mp last record (List.mem_reverse.mpr listed)
    simp [missing]
  | some record =>
    have listed := List.mem_reverse.mp (List.mem_of_find?_eq_some last)
    have named : record.name = name := by simpa using List.find?_some last
    change Named.name record = name at named
    rw [← named, Roster.mem_iff_find?.mp listed]

/-- A definition is written with the version of its record when repair has changed it. -/
theorem mem_updates {system : SystemModels} {model : Model} {version : Nat} :
    (model, version) ∈ catalog.updates system ↔
      (catalog.repairedModels system).find? model.name = some model ∧
        (∀ before, catalog.definition? model.name = some before → before.sameAs model = false) ∧
        (catalog.find? model.name).map Record.version = some version := by
  -- The updates of a catalog are those of its records, whose versions are filed under their names.
  rw [updates, RepairPlan.mem_updated, versionOf_members]
  simp only [find?_models]

/-- The definitions that a repair writes have different names. -/
theorem nodup_names_updates (catalog : Catalog) (system : SystemModels) :
    ((catalog.updates system).map fun update => update.1.name).Nodup :=
  -- Each is a model that is left, and these have different names.
  RepairPlan.nodup_names_updated _ _ _

/-- After a repair a stored definition is the repaired one, or one that equals it. -/
theorem definition?_reconciled {system : SystemModels} {name : String} {before after : Model}
    (stored : catalog.definition? name = some before)
    (repaired : (catalog.repairedModels system).find? name = some after) :
    ∃ final, (catalog.reconciled system now).definition? name = some final ∧
      (final = after ∨ final = before ∧ before.sameAs after = true) := by
  have own : after.name = name := Roster.name_of_find? repaired
  subst own
  -- There is a record, and its definition was what the repair began with.
  obtain ⟨record, found, rfl⟩ := Option.map_eq_some_iff.mp stored
  -- Definitions that compare equal are not written again, even where zeros differ in sign.
  cases same : record.definition.sameAs after with
  | false =>
    -- A definition that differs is written.
    have listed : (after, record.version) ∈ catalog.updates system := by
      refine mem_updates.mpr ⟨repaired, fun before held => ?_, by rw [found]; rfl⟩
      rw [stored, Option.some.injEq] at held
      rw [← held, same]
    exact ⟨after, definition?_rewritten (nodup_names_updates catalog system) listed, Or.inl rfl⟩
  | true =>
    -- One that is equal is not written, and so it stays.
    have unlisted : after.name ∉ (catalog.updates system).map fun update => update.1.name := by
      intro listed
      obtain ⟨⟨model, version⟩, member, named⟩ := List.mem_map.mp listed
      obtain ⟨again, changed, -⟩ := mem_updates.mp member
      have named : model.name = after.name := named
      rw [named, repaired, Option.some.injEq] at again
      subst again
      have differs := changed record.definition stored
      rw [same] at differs
      cases differs
    refine ⟨record.definition, ?_, Or.inr ⟨rfl, rfl⟩⟩
    rw [definition?, reconciled, find?_rewritten_of_notMem unlisted, found]
    rfl

/-- A repair stores nothing under a name that has no record. -/
theorem find?_reconciled_of_missing {system : SystemModels} {name : String}
    (missing : catalog.find? name = none) :
    (catalog.reconciled system now).find? name = none := by
  rw [reconciled, find?_rewritten_of_notMem, missing]
  -- An update has a version, and that is the version of a record.
  intro listed
  obtain ⟨⟨model, version⟩, member, named⟩ := List.mem_map.mp listed
  obtain ⟨-, -, stored⟩ := mem_updates.mp member
  have named : model.name = name := named
  rw [named, missing] at stored
  cases stored

end Catalog

namespace Registry

variable (executor : Executor) (configuration : Configuration)

/-- Updates to different names, each at the version of its record, all go through. -/
theorem writeRepaired_run (updates : List (Model × Nat)) :
    ∀ {progress : InProgress Database} {catalog : Catalog},
      progress.state.store = catalog.store →
      (updates.map fun update => update.1.name).Nodup →
      (∀ update ∈ updates,
        (catalog.find? update.1.name).map Record.version = some update.2) →
      ∃ after, (registryWith executor configuration).writeRepaired updates progress =
          (.ok (), after) ∧
        Follows progress after (catalog.rewritten progress.state.now updates) := by
  -- The induction is on the updates to come; that their versions are still current carries it.
  induction updates with
  | nil => exact fun {progress _} holds _ _ => ⟨progress, rfl, holds, rfl, Nat.le_refl _⟩
  | cons first rest ih =>
    intro progress catalog holds distinct versions
    rw [List.map_cons, List.nodup_cons] at distinct
    -- The guard of the first update holds, and so it is written.
    have guarded : (Expect.version first.2).holds (catalog.find? first.1.name) = true := by
      obtain ⟨record, stored, number⟩ :=
        Option.map_eq_some_iff.mp (versions first List.mem_cons_self)
      rw [stored, ← number]
      simp [Expect.holds]
    have put := lift_put_run executor holds guarded
    -- The records of the other updates are still as they were read.
    have later : ∀ update ∈ rest,
        ((catalog.written first.1 progress.state.now).find? update.1.name).map Record.version =
          some update.2 := by
      intro update listed
      rw [Catalog.find?_written, if_neg]
      · exact versions update (List.mem_cons_of_mem _ listed)
      · intro same
        exact distinct.1 (same ▸ List.mem_map_of_mem (f := fun update => update.1.name) listed)
    let wrote : InProgress Database := ⟨progress.operation.advance 1,
      { progress.state with store := (catalog.written first.1 progress.state.now).store }⟩
    have kept : wrote.state.store = (catalog.written first.1 progress.state.now).store := rfl
    obtain ⟨after, ran, follows⟩ := ih kept distinct.2 later
    refine ⟨after, (Step.bind_of_ok put).trans ((Step.bind_of_ok rfl).trans ran), follows.store,
      follows.now, Nat.le_trans (Nat.le_add_right _ _) follows.steps⟩

variable {database : Database} {catalog : Catalog}

/-- All records are read at the first attempt, since no one else writes. -/
theorem tryLockForReconcile_run (holds : database.store = catalog.store) :
    (registryWith executor configuration).tryLockForReconcile database =
      (.ok (.ok catalog.members), database) := by
  have listed : (Database.backendWith executor).listAll database =
      (.ok catalog.members, database) := by
    show Database.listAll _ = _
    rw [Database.listAll, holds, Catalog.listAll_store]
  have named : (registryWith executor configuration).names database =
      (.ok (catalog.members.map Record.name), database) :=
    Step.bind_of_ok listed
  have covered : NameSet.covers (Roster.ofList (catalog.members.map Record.name))
      (catalog.members.map Record.name) = true := by
    rw [NameSet.covers, List.all_eq_true]
    exact fun name listed => (Roster.contains_ofList _ _).mpr listed
  -- What is read once the names are taken has the names that were read before.
  unfold tryLockForReconcile
  rw [Step.bind_of_ok named, Step.bind_of_ok listed, if_pos covered]
  rfl

/-- A call to repair reads, and then it is refused or carries out its plan. -/
theorem reconcile_run (holds : database.store = catalog.store) (reapplying : Bool) :
    (registryWith executor configuration).reconcile reapplying database =
      match RepairPlan.ofRecords configuration.system catalog.members reapplying with
      | .error error => (.error error, database)
      | .ok plan => journaled (Database.backendWith executor) allModels .reconcile
          ((registryWith executor configuration).applyRepair plan) database := by
  -- The locks are there at the first attempt, since no one else holds any.
  have locks := tryLockForReconcile_run executor configuration holds
  refine (Step.bind_of_ok (Step.retrying_of_ok locks _)).trans ?_
  cases planned : RepairPlan.ofRecords configuration.system catalog.members reapplying with
  | error error => exact Step.bind_of_error rfl
  | ok plan => exact Step.bind_of_ok rfl

/-- A repair leaves the store as it is, or it succeeds and has repaired all records. -/
theorem reconcile_cases (holds : database.store = catalog.store) (reapplying : Bool) :
    (∃ error final, (registryWith executor configuration).reconcile reapplying database =
        (.error error, final) ∧ final.now = database.now ∧ final.store = catalog.store) ∨
      ∃ report final, (registryWith executor configuration).reconcile reapplying database =
          (.ok report, final) ∧ final.now = database.now ∧
        final.store = (catalog.reconciled configuration.system database.now).store := by
  rw [reconcile_run executor configuration holds]
  cases planned : RepairPlan.ofRecords configuration.system catalog.members reapplying with
  -- What cannot be planned is refused before anything is done.
  | error error => exact Or.inl ⟨error, database, rfl, rfl, holds⟩
  | ok plan =>
    -- What the plan writes depends on the records only, not on whether statements are reapplied.
    have updates : plan.updates = catalog.updates configuration.system := by
      rw [RepairPlan.updates_of_ofRecords planned, Catalog.ofList_definitions]
      rfl
    obtain ⟨begun, kept, times, -, completes, stops⟩ := journaled_run executor database allModels
      .reconcile ((registryWith executor configuration).applyRepair plan)
    have holdsBegun := kept.trans holds
    obtain ⟨applying, began, first, -⟩ := setStatus_run executor holdsBegun .applying
    rcases runBatch_run executor first.store allModels plan.statements with
      ⟨built, ran, second, -⟩ | ⟨error, after, refused, second, -, -, -⟩
    · obtain ⟨propagating, went, third, -⟩ := setStatus_run executor second.store .propagating
      -- The updates were read from the catalog, and no statement has changed a record.
      obtain ⟨written, wrote, fourth⟩ := writeRepaired_run executor configuration plan.updates
        third.store (by rw [updates]; exact Catalog.nodup_names_updates _ _) (by
          rw [updates]
          exact fun update listed => (Catalog.mem_updates.mp listed).2.2)
      -- The statements went through, and nothing that comes after them can fail.
      have works : ∃ report after, (registryWith executor configuration).applyRepair plan begun =
          (.ok report, after) ∧ after.state.store = written.state.store ∧
            after.state.now = written.state.now :=
        ⟨_, _, (Step.bind_of_ok began).trans ((Step.bind_of_ok ran).trans
          ((Step.bind_of_ok went).trans ((Step.bind_of_ok wrote).trans rfl))), rfl, rfl⟩
      obtain ⟨report, after, worked, left, time⟩ := works
      obtain ⟨final, done, stored, ends⟩ := completes report after worked
      have sameTime := ((first.trans second).trans third).now.trans times
      refine Or.inr ⟨report, final, done,
        ends.trans (time.trans (fourth.now.trans sameTime)), stored.trans (left.trans ?_)⟩
      rw [fourth.store, updates, sameTime]
      rfl
    · -- The statements were refused before the first record was written.
      have works : (registryWith executor configuration).applyRepair plan begun =
          (.error error, after) :=
        (Step.bind_of_ok began).trans (Step.bind_of_error refused)
      obtain ⟨final, failed, stored, ends⟩ := stops error after works
      have follows := first.trans second
      exact Or.inl ⟨_, final, failed,
        ends.trans (follows.now.trans times), stored.trans follows.store⟩

end Registry

end ModelCatalog
