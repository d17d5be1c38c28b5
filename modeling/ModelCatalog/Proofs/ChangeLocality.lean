import ModelCatalog.Proofs.Edition
import ModelCatalog.Proofs.LockSets

/-! Locality of changes: a change is prepared from the records that it locks, and changes no
others. -/

namespace ModelCatalog

open WritePlan

/-- The names of the records that what has to be done may change. -/
def Preparation.touched : Preparation → List String
  | write plan => plan.model :: plan.edits.map TargetEdit.target
  | delete plan => plan.model :: plan.referencing

namespace Change

variable {configuration : Configuration} {catalog other : Catalog} {request : Change}
  {preparation : Preparation} {name : String} {now later : Nat}

/-- A change writes its subject or deletes it: so it locks, and so it prepares. -/
theorem form (configuration : Configuration) (request : Change) :
    (∃ fields mustExist,
      (∀ store, request.lockSet configuration store =
        Registry.writeSet configuration.system (configuration.declared request.subject fields)
          (store.record? request.subject)) ∧
      ∀ catalog, request.prepared configuration catalog =
        (Registry.preparedWrite configuration catalog request.subject fields mustExist).map
          .write) ∨
    ((∀ store, request.lockSet configuration store =
        Registry.deleteSet (Roster.ofList store.definitions) request.subject) ∧
      ∀ catalog, request.prepared configuration catalog =
        (Registry.preparedDelete catalog request.subject).map .delete) := by
  -- A definition and an update differ only in whether there has to be an old version.
  cases request with
  | define name fields => exact Or.inl ⟨fields, false, fun _ => rfl, fun _ => rfl⟩
  | update name fields => exact Or.inl ⟨fields, true, fun _ => rfl, fun _ => rfl⟩
  | delete name => exact Or.inr ⟨fun _ => rfl, fun _ => rfl⟩

/-! ## What a change leaves alone -/

/-- The records that are not touched stay as they are. -/
theorem find?_result_of_notMem (prepared : request.prepared configuration catalog = .ok preparation)
    (apart : name ∉ preparation.touched) :
    (preparation.result catalog now).find? name = catalog.find? name := by
  -- A write touches its model and its targets, a deletion its model and what refers to it.
  rcases of_prepared prepared with ⟨plan, fields, rfl, planned⟩ | ⟨plan, rfl, planned⟩
  · have sound := sound_of_planWrite planned
    rw [Preparation.touched, List.mem_cons, not_or, sound.named] at apart
    exact (Catalog.find?_renewed_of_ne _ _ apart.1).trans
      (Catalog.find?_propagated_of_notMem apart.2)
  · obtain ⟨-, -, own, referencing, -⟩ := Catalog.fits_of_deletion planned
    rw [Preparation.touched, List.mem_cons, not_or, referencing, own] at apart
    rw [Preparation.result, own, Catalog.deleted, Roster.find?_erase, if_neg (Ne.symm apart.1)]
    exact Catalog.find?_stripped_of_notMem apart.2

/-- What has to be done makes of an edition the same whenever it is done, and whatever the other
records are. -/
theorem edition?_result_congr
    (prepared : request.prepared configuration catalog = .ok preparation)
    (same : catalog.edition? name = other.edition? name) :
    (preparation.result catalog now).edition? name =
      (preparation.result other later).edition? name := by
  -- Plans for two kinds of changes carry over, each by its own lemma.
  rcases of_prepared prepared with ⟨plan, fields, rfl, planned⟩ | ⟨plan, rfl, -⟩
  · have sound := sound_of_planWrite planned
    exact Catalog.edition?_applied_congr sound.nodup_targets sound.notMem_targets same
  · exact Catalog.edition?_deleted_congr same

/-! ## What a change locks -/

/-- The version that a write finds relates to nothing that is not locked, apart from system
models. -/
theorem old_relatesWithin (configuration : Configuration) (declared : Model) {record : Record}
    (stored : catalog.find? name = some record) :
    record.definition.name = name ∧ record.definition.RelatesWithin fun target =>
      (Registry.writeSet configuration.system declared (catalog.find? name)).contains target =
          true ∨ configuration.system.contains target = true :=
  -- The record is filed under its name, and its relations are locked with it.
  ⟨Roster.name_of_find? stored, Registry.relatesWithin_writeSet_old stored⟩

/-- A change locks the records that it touches. -/
theorem locks_touched (prepared : request.prepared configuration catalog = .ok preparation)
    (touched : name ∈ preparation.touched) :
    (request.lockSet configuration catalog.store).contains name = true := by
  -- What is touched was found by the plan, and what is locked by the relations.
  rcases form configuration request with ⟨fields, mustExist, locks, writes⟩ | ⟨locks, deletes⟩
  · rw [writes] at prepared
    obtain ⟨plan, written, rfl⟩ := Outcome.map_eq_ok.mp prepared
    obtain ⟨-, planned⟩ := (Registry.preparedWrite_eq_ok configuration).mp written
    obtain ⟨own, sound⟩ := sound_of_declared planned
    rw [locks, Catalog.record?_store]
    rcases List.mem_cons.mp touched with rfl | isTarget
    · -- The own record is locked by its name.
      exact Registry.contains_writeSet.mpr (Or.inl (sound.named.trans own))
    · -- A target of an edit is no system model, so it is locked.
      obtain ⟨edit, listed, rfl⟩ := List.mem_map.mp isTarget
      have inside := target_of_mem_edits planned Registry.relatesWithin_writeSet
        (fun _ => old_relatesWithin configuration _) listed
      rcases inside with inLocks | system
      · exact inLocks
      · have outside : configuration.system.contains edit.target = false :=
          (sound.plain_eq listed).2.2
        rw [system] at outside
        cases outside
  · -- A deletion locks the models that refer to the deleted one, and those are what it touches.
    rw [deletes] at prepared
    obtain ⟨plan, deleted, rfl⟩ := Outcome.map_eq_ok.mp prepared
    obtain ⟨-, planned⟩ := Registry.preparedDelete_eq_ok.mp deleted
    obtain ⟨-, -, own, referencing, -⟩ := Catalog.fits_of_deletion planned
    rw [locks, Catalog.ofList_definitions_store]
    rw [Preparation.touched, referencing, own] at touched
    exact Registry.contains_deleteSet.mpr (List.mem_cons.mp touched)

/-- A write makes a model refer to another one only when it locks the other or that is a system
model. -/
theorem references_applied {fields : List Field} {plan : WritePlan}
    (planned : (configuration.context catalog).planWrite (catalog.find? name)
      (configuration.declared name fields) = .ok plan)
    {subject target : String} {definition : Model}
    (left : (catalog.applied plan now).definition? subject = some definition)
    (refers : definition.references target = true) :
    (∃ before, catalog.definition? subject = some before ∧ before.references target = true) ∨
      (Registry.writeSet configuration.system (configuration.declared name fields)
        (catalog.find? name)).contains target = true ∨
      configuration.system.contains target = true := by
  obtain ⟨own, sound⟩ := sound_of_declared planned
  obtain ⟨field, present, targets⟩ := List.any_eq_true.mp refers
  rcases Catalog.of_definition?_applied sound left with ⟨-, alike⟩ | ⟨-, before, stored, rfl⟩
  · -- The model itself relates to what the new version relates to.
    obtain ⟨twin, inPlan, same⟩ := Model.exists_of_outline_eq alike present
    obtain ⟨relation, related, rfl⟩ := Field.targets_iff.mp targets
    rw [← Field.relation?_eq_of_outline_eq same] at related
    refine Or.inr ?_
    rcases relatesWithin_of_planWrite planned Registry.relatesWithin_writeSet twin inPlan
      relation related with leads | inside
    · exact Or.inl (Registry.contains_writeSet.mpr (Or.inl (leads.trans own)))
    · exact inside
  · -- A target relates to what it related to before, and to the model itself.
    rcases sound.of_mem_after present with ⟨_, -, _, -, -, -, mates, -⟩ | ⟨inBefore, -⟩
    · refine Or.inr (Or.inl (Registry.contains_writeSet.mpr (Or.inl ?_)))
      obtain ⟨relation, related, rfl⟩ := Field.targets_iff.mp targets
      have back := mates.symm.targets
      rw [Field.targets_eq related, beq_iff_eq] at back
      exact back.trans own
    · exact Or.inl ⟨before, stored, List.any_eq_true.mpr ⟨field, inBefore, targets⟩⟩

/-- A change makes a model refer to another one only when it locks the other or that is a system
model. -/
theorem references_result (prepared : request.prepared configuration catalog = .ok preparation)
    {definition : Model}
    (left : (preparation.result catalog now).definition? name = some definition)
    {target : String} (refers : definition.references target = true) :
    (∃ before, catalog.definition? name = some before ∧ before.references target = true) ∨
      (request.lockSet configuration catalog.store).contains target = true ∨
      configuration.system.contains target = true := by
  rcases form configuration request with ⟨fields, mustExist, locks, writes⟩ | ⟨-, deletes⟩
  · rw [writes] at prepared
    obtain ⟨plan, written, rfl⟩ := Outcome.map_eq_ok.mp prepared
    obtain ⟨-, planned⟩ := (Registry.preparedWrite_eq_ok configuration).mp written
    rw [locks, Catalog.record?_store]
    exact references_applied planned left refers
  · -- A deletion only takes relations away.
    rw [deletes] at prepared
    obtain ⟨plan, deleted, rfl⟩ := Outcome.map_eq_ok.mp prepared
    obtain ⟨-, before, stored, rfl⟩ := Catalog.of_definition?_deleted left
    obtain ⟨field, present, targets⟩ := List.any_eq_true.mp refers
    exact Or.inl ⟨before, stored,
      List.any_eq_true.mpr ⟨field, (List.mem_filter.mp present).1, targets⟩⟩

/-! ## The same change among other records -/

/-- Among records that are the same where a change locks, a write is prepared alike. -/
theorem preparedWrite_congr {fields : List Field} {mustExist : Bool}
    (outside : ∀ target, configuration.system.contains target = true →
      catalog.find? target = other.find? target)
    (locked : ∀ target, (Registry.writeSet configuration.system
        (configuration.declared name fields) (catalog.find? name)).contains target = true →
      catalog.find? target = other.find? target) :
    Registry.preparedWrite configuration catalog name fields mustExist =
      Registry.preparedWrite configuration other name fields mustExist := by
  -- The contexts agree on what is locked and on the system models.
  have agrees : (configuration.context catalog).AgreesOn (fun target =>
      (Registry.writeSet configuration.system (configuration.declared name fields)
        (catalog.find? name)).contains target = true ∨
          configuration.system.contains target = true) (configuration.context other) := by
    refine ⟨rfl, fun target reads => ?_⟩
    rw [Configuration.find?_context, Configuration.find?_context, Catalog.definition?,
      Catalog.definition?, reads.elim (locked target) (outside target)]
  -- Planning looks up what the new version or the old one relates to, all of which is locked.
  have planned : (configuration.context catalog).planWrite (catalog.find? name)
        (configuration.declared name fields) =
      (configuration.context other).planWrite (catalog.find? name)
        (configuration.declared name fields) :=
    agrees.planWrite Registry.relatesWithin_writeSet fun _ => old_relatesWithin configuration _
  have own := locked name (Registry.contains_writeSet.mpr (Or.inl rfl))
  rw [Registry.preparedWrite, Registry.preparedWrite, planned, own]

/-- Among records that are the same where a deletion locks, and with no further ones that refer to
what is deleted, the same models refer to it. -/
theorem referencingModels_congr
    (locked : ∀ target, (Registry.deleteSet catalog.models name).contains target = true →
      catalog.find? target = other.find? target)
    (referring : ∀ target definition, other.definition? target = some definition →
      definition.references name = true →
      ∃ before, catalog.definition? target = some before ∧ before.references name = true) :
    DeletePlan.referencingModels catalog.models name =
      DeletePlan.referencingModels other.models name := by
  -- On either side these are the stored models that refer to the name.
  have known : ∀ (among : Catalog) (model : Model),
      model ∈ DeletePlan.referencingModels among.models name ↔
        among.definition? model.name = some model ∧ model.name ≠ name ∧
          model.references name = true := by
    intro among model
    rw [DeletePlan.referencingModels, List.mem_filter, Roster.mem_iff_find?, Catalog.find?_models]
    simp [Named.name]
  -- What refers to the deleted model is locked, so that it is the same on either side.
  have same : ∀ target before, catalog.definition? target = some before → target ≠ name →
      before.references name = true → catalog.definition? target = other.definition? target := by
    intro target before stored apart refers
    have isNamed := Catalog.name_of_definition? stored
    subst isNamed
    rw [Catalog.definition?, Catalog.definition?, locked]
    exact Registry.contains_deleteSet.mpr (Or.inr (List.mem_map_of_mem
      ((known catalog before).mpr ⟨stored, apart, refers⟩)))
  -- Both lists are in order of names, so it is enough that they have the same members.
  refine Roster.eq_of_mem_iff (catalog.models.ordered.filter _) (other.models.ordered.filter _)
    fun model => ?_
  rw [known, known]
  constructor
  · rintro ⟨stored, apart, refers⟩
    exact ⟨same _ _ stored apart refers ▸ stored, apart, refers⟩
  · -- A later one was there before, where it is locked.
    rintro ⟨stored, apart, refers⟩
    obtain ⟨before, earlier, referred⟩ := referring _ _ stored refers
    exact ⟨(same _ _ earlier apart referred).trans stored, apart, refers⟩

/-- Among records that are the same where a change locks, and with no further ones that refer to its
subject, the change locks and prepares alike. -/
theorem prepared_congr
    (outside : ∀ target, configuration.system.contains target = true →
      catalog.find? target = other.find? target)
    (locked : ∀ target, (request.lockSet configuration catalog.store).contains target = true →
      catalog.find? target = other.find? target)
    (referring : ∀ target definition, other.definition? target = some definition →
      definition.references request.subject = true →
      ∃ before, catalog.definition? target = some before ∧
        before.references request.subject = true) :
    request.lockSet configuration catalog.store = request.lockSet configuration other.store ∧
      request.prepared configuration catalog = request.prepared configuration other := by
  -- The subject is locked itself, so that the same version of it is found.
  have own := locked _ (locks_subject configuration catalog.store request)
  rcases form configuration request with ⟨fields, mustExist, locks, writes⟩ | ⟨locks, deletes⟩
  · rw [locks, Catalog.record?_store] at locked
    rw [locks, locks, writes, writes, Catalog.record?_store, Catalog.record?_store,
      preparedWrite_congr outside locked, own]
    exact ⟨rfl, rfl⟩
  · rw [locks, Catalog.ofList_definitions_store] at locked
    -- A deletion reads its own record and those that refer to it.
    have same := referencingModels_congr locked referring
    have deletion : catalog.deletion request.subject = other.deletion request.subject := by
      unfold Catalog.deletion
      rw [← own]
      cases stored : catalog.find? request.subject with
      | none => rfl
      | some record =>
        have named : record.definition.name = request.subject := Roster.name_of_find? stored
        simp only [DeletePlan.ofRecord, DeletePlan.joinTables, named, same]
    rw [locks, locks, deletes, deletes, Catalog.ofList_definitions_store,
      Catalog.ofList_definitions_store, Registry.preparedDelete, Registry.preparedDelete, deletion,
      Registry.deleteSet, Registry.deleteSet, same]
    exact ⟨rfl, rfl⟩

end Change

end ModelCatalog
