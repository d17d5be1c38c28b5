import ModelCatalog.Proofs.Edition
import ModelCatalog.Proofs.Recovery
import ModelCatalog.Proofs.TornPlanning

/-! Retries: a change that is repeated after one of its statements was refused ends where it would
have ended at once. -/

namespace ModelCatalog

namespace Catalog

variable {configuration : Configuration} {catalog : Catalog} {old : Option Record}
  {plan again : WritePlan} {done : List TargetEdit}

/-- An edit that is done leaves nothing to do. -/
theorem edited_of_done (sound : plan.Sound (configuration.context catalog) old)
    (finite : catalog.Finite) (listed : done.Sublist plan.edits) {edit : TargetEdit}
    (isDone : edit ∈ done) (now later : Nat) :
    (catalog.propagated plan.definition.name now done).edited plan.definition.name later edit =
      catalog.propagated plan.definition.name now done := by
  have inPlan := listed.subset isDone
  -- The target of the edit is stored, and its revision is what the edit makes of it.
  obtain ⟨before, stored⟩ := Option.isSome_iff_exists.mp (sound.isSome_target inPlan)
  rw [Configuration.find?_context] at stored
  have named : before.name = edit.target := name_of_definition? stored
  have revised := @definition?_propagated configuration catalog old plan now sound done listed _ _
    stored
  rw [if_pos (List.mem_map_of_mem isDone), ← sound.apply_edit inPlan named] at revised
  -- The target has what the edit makes of it, so the edit reports no change.
  have orderly := sound.orderly_edit inPlan
  have afterFinite := sound.finite_after (finite _ before stored)
  rw [← sound.apply_edit inPlan named] at afterFinite
  have settled := (orderly.settledIn_apply before).apply_eq (Field.sameList_self afterFinite)
  refine amended_of_unchanged revised ?_
  rw [settled]

/-- All edits of a plan, over those that are done, leave the editions that they leave at once. -/
theorem edition?_propagated_propagated (sound : plan.Sound (configuration.context catalog) old)
    (finite : catalog.Finite) (listed : done.Sublist plan.edits) (now later : Nat)
    (name : String) :
    ((catalog.propagated plan.definition.name now done).propagated plan.definition.name later
        plan.edits).edition? name =
      (catalog.propagated plan.definition.name now plan.edits).edition? name := by
  have distinct := sound.nodup_targets
  have doneDistinct := distinct.sublist (listed.map TargetEdit.target)
  -- A target of the plan gets its edit either now or before, and every other model gets none.
  by_cases isTarget : name ∈ plan.edits.map TargetEdit.target
  · -- The target has one edit in the plan, and what matters is whether that is done.
    obtain ⟨edit, inPlan, rfl⟩ := List.mem_map.mp isTarget
    rw [edition?_congr (find?_propagated distinct inPlan),
      edition?_congr (find?_propagated distinct inPlan)]
    by_cases isDone : edit ∈ done
    · rw [edited_of_done sound finite listed isDone]
      exact edition?_congr (find?_propagated doneDistinct isDone)
    · -- The target is as it was, since no other edit leads to it.
      have untouched : edit.target ∉ done.map TargetEdit.target := by
        intro isTouched
        obtain ⟨twin, twinDone, same⟩ := List.mem_map.mp isTouched
        exact isDone (List.inj_on_of_nodup_map distinct (listed.subset twinDone) inPlan same ▸
          twinDone)
      exact edition?_edited_congr (edition?_congr (find?_propagated_of_notMem untouched))
  · -- A model that is no target is left alone on both sides.
    have untouched : name ∉ done.map TargetEdit.target :=
      fun isTouched => isTarget ((listed.map TargetEdit.target).subset isTouched)
    rw [edition?_congr (find?_propagated_of_notMem isTarget),
      edition?_congr (find?_propagated_of_notMem isTarget),
      edition?_congr (find?_propagated_of_notMem untouched)]

/-- A plan that is carried out over some of its edits leaves the editions that it leaves at once. -/
theorem edition?_applied_propagated (sound : plan.Sound (configuration.context catalog) old)
    (finite : catalog.Finite) (listed : done.Sublist plan.edits)
    (sameModel : again.model = plan.model) (sameDefinition : again.definition = plan.definition)
    (sameEdits : again.edits.map TargetEdit.plain = plan.edits.map TargetEdit.plain)
    (now later : Nat) (name : String) :
    ((catalog.propagated plan.definition.name now done).applied again later).edition? name =
      (catalog.applied plan now).edition? name := by
  have propagates := edition?_propagated_propagated sound finite listed now later
  unfold applied
  -- The own record is renewed last, over what the edits have left.
  rw [sameModel, sameDefinition, propagated_congr sameEdits, sound.named]
  -- The new version is stored over the same edition, and every other model is as propagation left
  -- it.
  by_cases own : name = plan.definition.name
  · subst own
    exact edition?_renewed_congr (propagates _)
  · rw [edition?_congr (find?_renewed_of_ne _ _ own), edition?_congr (find?_renewed_of_ne _ _ own)]
    exact propagates name

end Catalog

/-! ## Calls -/

namespace Registry

variable {executor : Executor} {configuration : Configuration} {database : Database}
  {catalog : Catalog} {name : String}

/-- A planned write is carried out where no statement is refused. -/
theorem write_of_accepted (accepts : executor.Accepts) (holds : database.store = catalog.store)
    {fields : List Field} {mustExist : Bool} {plan : WritePlan}
    (allowed : Allowed catalog name mustExist)
    (planned : (configuration.context catalog).planWrite (catalog.find? name)
      (configuration.declared name fields) = .ok plan) :
    ∃ record final, (registryWith executor configuration).write name fields mustExist database =
      (.ok record, final) ∧ final.store = (catalog.applied plan database.now).store := by
  -- Only a refused statement could stop it, and none is refused.
  rcases write_of_planned executor configuration holds allowed planned with
    ⟨record, final, wrote, -, stored, -⟩ | ⟨-, -, -, -, -, -, -, -, -, -, rejects⟩
  · exact ⟨record, final, wrote, stored⟩
  · exact absurd accepts rejects

/-- A planned deletion is carried out where no statement is refused. -/
theorem delete_of_accepted (accepts : executor.Accepts) (holds : database.store = catalog.store)
    {plan : DeletePlan} (identifier : isIdentifier name = true)
    (planned : catalog.deletion name = .ok plan) :
    ∃ final, (registryWith executor configuration).delete name database = (.ok (), final) ∧
      final.store = (catalog.deleted name database.now).store := by
  -- The only other way for it to end is at a statement that is refused.
  rcases delete_of_planned executor configuration holds identifier planned with
    ⟨final, deleted, -, stored⟩ | ⟨-, -, -, -, -, -, rejects⟩
  · exact ⟨final, deleted, stored⟩
  · exact absurd accepts rejects

/-- A write that is planned where some of its edits are done is planned as it was at first. -/
theorem exists_planned_propagated (finite : catalog.Finite) {fields : List Field}
    {plan : WritePlan} {done : List TargetEdit}
    (planned : (configuration.context catalog).planWrite (catalog.find? name)
      (configuration.declared name fields) = .ok plan)
    (listed : done.Sublist plan.edits) (now : Nat) :
    (catalog.propagated name now done).find? name = catalog.find? name ∧
      ∃ again, (configuration.context (catalog.propagated name now done)).planWrite
          (catalog.find? name) (configuration.declared name fields) = .ok again ∧
        again.definition = plan.definition ∧
        again.edits.map TargetEdit.plain = plan.edits.map TargetEdit.plain := by
  -- The own record is none of the targets, and the graph around it is torn at those that are done.
  obtain ⟨own, -⟩ := WritePlan.sound_of_declared planned
  have sound := WritePlan.sound_of_planWrite planned
  subst own
  refine ⟨Catalog.find?_propagated_of_notMem (Catalog.notMem_targets sound listed), ?_⟩
  have torn : configuration.context (catalog.propagated plan.definition.name now done) =
      sound.tornContext (done.map TargetEdit.target) := by
    rw [Configuration.context, Catalog.models_propagated sound listed]
    rfl
  rw [torn]
  refine WritePlan.exists_planWrite_torn planned sound (fun name model found => ?_)
    (listed.map TargetEdit.target).subset
  -- The defaults of the known models are finite, being those of the catalog.
  rw [Configuration.find?_context] at found
  exact finite name model found

end Registry

namespace Change

variable {executor first second : Executor} {configuration : Configuration}
  {database stopped resumed : Database} {catalog : Catalog} {request : Change} {error : Error}

/-- A change with a refused statement, repeated where none is refused, ends well and with the
editions with which it would have ended at once. -/
theorem exists_retried (holds : database.store = catalog.store) (finite : catalog.Finite)
    (failed : request.run (registryWith executor configuration) database = (.error error, stopped))
    (rejected : error.IsRejection) (same : resumed.store = stopped.store)
    (firstAccepts : first.Accepts) (secondAccepts : second.Accepts) :
    ∃ clean repeated, request.run (registryWith first configuration) database = (.ok (), clean) ∧
      request.run (registryWith second configuration) resumed = (.ok (), repeated) ∧
      ∃ one other : Catalog, clean.store = one.store ∧ repeated.store = other.store ∧
        ∀ name, other.edition? name = one.edition? name := by
  -- A change is a deletion or a write, and the two leave different things behind.
  rcases request.cases with deletes | ⟨fields, mustExist, writes⟩
  · -- A deletion that is refused leaves everything as it was.
    rw [deletes] at failed ⊢
    obtain ⟨identifier, ⟨plan, planned⟩, kept⟩ :=
      Registry.of_rejected_delete holds failed rejected
    obtain ⟨clean, deleted, stored⟩ := @Registry.delete_of_accepted first configuration _ _ _
      firstAccepts holds plan identifier planned
    obtain ⟨repeated, again, restored⟩ := @Registry.delete_of_accepted second configuration _ _ _
      secondAccepts (same.trans kept) plan identifier planned
    rw [deletes]
    exact ⟨clean, repeated, deleted, again, _, _, stored, restored,
      fun _ => Catalog.edition?_deleted_congr rfl⟩
  · rw [writes] at failed ⊢
    obtain ⟨outcome, wrote, alike⟩ := Step.of_discarded failed
    cases outcome with
    | ok record => cases alike
    | error other =>
      cases alike
      obtain ⟨allowed, plan, done, planned, listed, left⟩ :=
        Registry.of_rejected_write holds wrote rejected
      obtain ⟨own, sound⟩ := WritePlan.sound_of_declared planned
      obtain ⟨record, clean, cleanWrote, stored⟩ :=
        Registry.write_of_accepted firstAccepts holds allowed planned
      -- The repeated call finds the own record as it was, and plans as it did.
      obtain ⟨kept, again, replanned, sameDefinition, sameEdits⟩ :=
        Registry.exists_planned_propagated finite planned listed database.now
      -- What was allowed then is allowed now, since the own record is as it was.
      have allowedAgain : Registry.Allowed
          (catalog.propagated request.subject database.now done) request.subject mustExist :=
        ⟨allowed.identifier, fun must => by rw [kept]; exact allowed.present must⟩
      rw [← kept] at replanned
      obtain ⟨_, repeated, againWrote, restored⟩ :=
        Registry.write_of_accepted secondAccepts (same.trans left) allowedAgain replanned
      -- The second plan is about the same model.
      have sameModel : again.model = plan.model := by
        rw [(WritePlan.sound_of_planWrite replanned).named, sameDefinition, sound.named]
      -- Both runs carry out the plan in full, and the second one over the edits that were done.
      rw [writes]
      refine ⟨clean, repeated, Step.bind_of_ok cleanWrote, Step.bind_of_ok againWrote, _, _,
        stored, restored, fun name => ?_⟩
      rw [← own]
      exact Catalog.edition?_applied_propagated sound finite listed sameModel sameDefinition
        sameEdits database.now resumed.now name

end Change

namespace Reachable

variable {configuration : Configuration} {subjects : String → Prop}
  {database stopped resumed : Database} {executor first second : Executor} {request : Change}
  {error : Error}

/-- A change that fails because a statement is refused, at any point, succeeds when it is repeated
where none is refused, and then every model is stored with the definition and in the version with
which it would be stored had the change succeeded at first. -/
theorem retry_converges (reached : Reachable configuration subjects database)
    (failed : request.run (registryWith executor configuration) database = (.error error, stopped))
    (rejected : error.IsRejection) (same : resumed.store = stopped.store)
    (firstAccepts : first.Accepts) (secondAccepts : second.Accepts) :
    ∃ clean repeated, request.run (registryWith first configuration) database = (.ok (), clean) ∧
      request.run (registryWith second configuration) resumed = (.ok (), repeated) ∧
      ∀ name, ∃ one other, clean.store.get name = .ok one ∧ repeated.store.get name = .ok other ∧
        other.map Record.definition = one.map Record.definition ∧
        other.map Record.version = one.map Record.version := by
  obtain ⟨catalog, holds, finite⟩ := reached.exists_catalog
  obtain ⟨clean, repeated, ran, reran, one, other, stored, restored, editions⟩ :=
    Change.exists_retried holds finite failed rejected same firstAccepts secondAccepts
  refine ⟨clean, repeated, ran, reran, fun name => ⟨one.find? name, other.find? name, ?_, ?_, ?_⟩⟩
  · rw [stored, Catalog.get_store]
  · rw [restored, Catalog.get_store]
  · -- An edition is a definition with its version.
    have alike : (other.find? name).map Record.edition = (one.find? name).map Record.edition :=
      editions name
    have first : ∀ record : Option Record,
        (record.map Record.edition).map Prod.fst = record.map Record.definition ∧
          (record.map Record.edition).map Prod.snd = record.map Record.version := by
      intro record
      cases record <;> exact ⟨rfl, rfl⟩
    rw [← (first (other.find? name)).1, ← (first (other.find? name)).2, alike]
    exact first (one.find? name)

/-- The change that fails at the table of notes converges when it is repeated. -/
theorem retry_converges_relating :
    Reachable .standard (Configuration.standard.system.contains · = false) barred ∧
      relating.run (registryWith .recording .standard) barred =
        (.error (.partway "Book" 3 3
          (.execution "Book" "Note" .addColumn 0 (.rejected "injected failure" none))),
          halted.2) ∧
      Executor.idle.Accepts ∧
      ∃ clean repeated, relating.run (registryWith .idle .standard) barred = (.ok (), clean) ∧
        relating.run (registryWith .idle .standard) halted.2 = (.ok (), repeated) ∧
        ∀ name, ∃ one other, clean.store.get name = .ok one ∧
          repeated.store.get name = .ok other ∧
          other.map Record.definition = one.map Record.definition ∧
          other.map Record.version = one.map Record.version :=
  -- The failure is the one of above, and the idle executor accepts everything.
  ⟨reached_barred, relating_run, Executor.accepts_idle,
    retry_converges reached_barred relating_run trivial rfl Executor.accepts_idle
      Executor.accepts_idle⟩

end Reachable

end ModelCatalog
