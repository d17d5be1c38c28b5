import ModelCatalog.Proofs.PlanLocality
import ModelCatalog.Proofs.TableUse

/-! Lock sets: the names that a change locks before it is planned, and what they cover. -/

namespace ModelCatalog

open WritePlan

/-- No name belongs to both of two sets. -/
def NameSet.Disjoint (one other : NameSet) : Prop :=
  ∀ name ∈ one.members, other.contains name = false

instance (one other : NameSet) : Decidable (one.Disjoint other) :=
  inferInstanceAs (Decidable (∀ name ∈ one.members, other.contains name = false))

/-- The record under a name, if there is one that can be read. -/
def Store.record? (store : Store) (name : String) : Option Record := (store.get name).toOption.join

/-- The names that a change locks, as the stored records stand. -/
def Change.lockSet (configuration : Configuration) (store : Store) : Change → NameSet
  | define name fields | update name fields =>
    Registry.writeSet configuration.system (configuration.declared name fields)
      (store.record? name)
  | delete name => Registry.deleteSet (Roster.ofList store.definitions) name

namespace NameSet

variable {one other : NameSet}

/-- Sets that are disjoint one way round are so the other way round. -/
theorem Disjoint.symm (apart : one.Disjoint other) : other.Disjoint one := by
  -- A shared name would be a member on either side.
  intro name listed
  by_contra shared
  have inOne := (Roster.mem_members_iff one name).mpr (by simpa using shared)
  have inOther := (Roster.mem_members_iff other name).mp listed
  rw [apart name inOne] at inOther
  cases inOther

/-- A name that belongs to one of two disjoint sets does not belong to the other. -/
theorem Disjoint.notMem (apart : one.Disjoint other) {name : String}
    (inOne : one.contains name = true) : ¬other.contains name = true := by
  -- Disjointness is stated for the members, and a set contains its members.
  rw [apart name ((Roster.mem_members_iff one name).mpr inOne)]
  exact Bool.false_ne_true

end NameSet

namespace Registry

variable {system : SystemModels} {definition : Model} {old : Option Record} {known : Models}
  {name other : String}

/-- The related models are the others of the catalog to which the relations lead. -/
theorem contains_relatedModels :
    (relatedModels system definition).contains name = true ↔
      ∃ field ∈ definition.fields, ∃ relation, field.relation? = some relation ∧
        leadsOut system definition.name relation ∧ relation.target = name := by
  -- Of the relations those count that lead neither back nor to a system model.
  rw [relatedModels, Roster.contains_ofList, List.mem_filterMap]
  constructor
  · rintro ⟨⟨field, relation⟩, isRelation, same⟩
    obtain ⟨present, related⟩ := Model.mem_relations.mp isRelation
    simp only at same
    split at same
    · cases same
    · rename_i out
      simp only [Bool.or_eq_true, decide_eq_true_eq, not_or, Bool.not_eq_true] at out
      cases same
      exact ⟨field, present, relation, related, out, rfl⟩
  · rintro ⟨field, present, relation, related, out, rfl⟩
    refine ⟨(field, relation), Model.mem_relations.mpr ⟨present, related⟩, ?_⟩
    simp [out.1, out.2]

/-- A write locks its model, what the new version relates to, and what the old one relates to. -/
theorem contains_writeSet :
    (writeSet system definition old).contains name = true ↔
      name = definition.name ∨ (relatedModels system definition).contains name = true ∨
        ∃ record, old = some record ∧
          (relatedModels system record.definition).contains name = true := by
  -- The model is locked in any case, and the rest depends on whether there is an old version.
  have own : ∀ set : NameSet, (set.insert definition.name).contains name = true ↔
      name = definition.name ∨ set.contains name = true := by
    intro set
    have named : (Named.name definition.name : String) = definition.name := rfl
    rw [Roster.contains_eq, Roster.contains_eq, Roster.find?_insert, named]
    by_cases here : definition.name = name
    · simp [here]
    · simp [here, Ne.symm here]
  cases old with
  | none => simp [writeSet, own]
  | some record =>
    simp only [writeSet, Roster.contains_insertAll, own, Roster.mem_members_iff,
      Option.some.injEq, exists_eq_left']
    rw [or_comm, or_assoc]

/-- A write locks no system model, unless it is about one. -/
theorem inCatalog_of_writeSet (inCatalog : system.contains definition.name = false)
    (locks : (writeSet system definition old).contains name = true) :
    system.contains name = false := by
  -- The related models are never system models.
  rcases contains_writeSet.mp locks with rfl | related | ⟨_, -, related⟩
  · exact inCatalog
  all_goals
    obtain ⟨_, -, _, -, out, rfl⟩ := contains_relatedModels.mp related
    exact out.2

/-- A deletion locks its model and the others that refer to it. -/
theorem contains_deleteSet :
    (deleteSet known name).contains other = true ↔
      other = name ∨ other ∈ (DeletePlan.referencingModels known name).map Model.name := by
  -- The model is added to the names of those that refer to it.
  have named : (Named.name name : String) = name := rfl
  rw [deleteSet, Roster.contains_eq, Roster.find?_insert, named]
  by_cases here : name = other
  · simp [here]
  · rw [if_neg here, ← Roster.contains_eq, Roster.contains_ofList]
    simp [Ne.symm here]

/-- Where the related models have some names, a definition relates to nothing else but system
models. -/
theorem relatesWithin_of_relatedModels {names : String → Prop}
    (each : ∀ name, (relatedModels system definition).contains name = true → names name) :
    definition.RelatesWithin fun name => names name ∨ system.contains name = true := by
  -- A relation leads back, to a system model, or to a related model.
  intro field present relation related
  by_cases own : relation.target = definition.name
  · exact Or.inl own
  · cases held : system.contains relation.target with
    | true => exact Or.inr (Or.inr held)
    | false =>
      exact Or.inr (Or.inl (each _ (contains_relatedModels.mpr
        ⟨field, present, relation, related, ⟨own, held⟩, rfl⟩)))

/-- The new version relates to nothing that is not locked, apart from system models. -/
theorem relatesWithin_writeSet : definition.RelatesWithin fun name =>
    (writeSet system definition old).contains name = true ∨ system.contains name = true :=
  -- The models that the new version relates to are locked with it.
  relatesWithin_of_relatedModels fun _ related =>
    contains_writeSet.mpr (Or.inr (Or.inl related))

/-- Nor does the old version. -/
theorem relatesWithin_writeSet_old {record : Record} (isOld : old = some record) :
    record.definition.RelatesWithin fun name =>
      (writeSet system definition old).contains name = true ∨ system.contains name = true :=
  -- So are those that the old version relates to.
  relatesWithin_of_relatedModels fun _ related =>
    contains_writeSet.mpr (Or.inr (Or.inr ⟨record, isOld, related⟩))

end Registry

namespace Catalog

/-- The records of the store of a catalog are found under their names. -/
theorem record?_store (catalog : Catalog) (name : String) :
    catalog.store.record? name = catalog.find? name := by
  -- An intact record is read as itself.
  rw [Store.record?, get_store]
  cases catalog.find? name <;> rfl

/-- Filing the definitions of the store of a catalog anew gives the known models. -/
theorem ofList_definitions_store (catalog : Catalog) :
    Roster.ofList catalog.store.definitions = catalog.models := by
  -- The store gives the definitions in order of their records.
  rw [definitions_store]
  exact ofList_definitions catalog

end Catalog

namespace Change

variable {configuration : Configuration} {catalog : Catalog} {request : Change} {name : String}

/-- A change locks its subject. -/
theorem locks_subject (configuration : Configuration) (store : Store) (request : Change) :
    (request.lockSet configuration store).contains request.subject = true := by
  -- The subject is in either kind of lock set.
  cases request with
  | define name fields => exact Registry.contains_writeSet.mpr (Or.inl rfl)
  | update name fields => exact Registry.contains_writeSet.mpr (Or.inl rfl)
  | delete name => exact Registry.contains_deleteSet.mpr (Or.inl rfl)

/-- A change locks no system model, when none is stored and none is its subject. -/
theorem inCatalog_of_locks
    (outside : ∀ name, configuration.system.contains name = true → catalog.find? name = none)
    (inCatalog : configuration.system.contains request.subject = false)
    (locks : (request.lockSet configuration catalog.store).contains name = true) :
    configuration.system.contains name = false := by
  -- A write locks by its relations, and a deletion by what is stored.
  cases request with
  | define subject fields => exact Registry.inCatalog_of_writeSet inCatalog locks
  | update subject fields => exact Registry.inCatalog_of_writeSet inCatalog locks
  | delete subject =>
    rcases Registry.contains_deleteSet.mp locks with rfl | referring
    · exact inCatalog
    · -- What refers to the subject is stored.
      obtain ⟨model, listed, rfl⟩ := List.mem_map.mp referring
      rw [Catalog.ofList_definitions_store] at listed
      have stored := Roster.mem_iff_find?.mp (List.mem_filter.mp listed).1
      rw [Catalog.find?_models] at stored
      by_contra held
      have missing := outside model.name (by simpa using held)
      have absent : catalog.definition? (Named.name model) = none := by
        show (catalog.find? model.name).map Record.definition = none
        rw [missing]
        rfl
      rw [absent] at stored
      cases stored

end Change

end ModelCatalog
