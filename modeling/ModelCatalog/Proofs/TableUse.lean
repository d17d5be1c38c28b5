import ModelCatalog.Proofs.History
import ModelCatalog.Proofs.Submission

/-! The use of tables: what the tables of a store stand for, and which join tables a call leaves in
use. -/

namespace ModelCatalog

/-- The use of a table by a many-to-many field of a model. -/
structure Joint where
  model : String
  field : Field
  table : String
  deriving DecidableEq

/-- Two uses are of either side of one relation: each field relates to the model of the other and
bears its inverse name. -/
def Joint.Counterparts (joint other : Joint) : Prop :=
  joint.field.invertsTo other.model other.field.name = true ∧
    other.field.invertsTo joint.model joint.field.name = true

instance (joint other : Joint) : Decidable (joint.Counterparts other) :=
  inferInstanceAs (Decidable (_ ∧ _))

namespace Model

/-- The uses that the fields of a model make of their join tables. -/
def joints (model : Model) : List Joint :=
  model.fields.filterMap fun field => (field.joinTable? model.name).map (⟨model.name, field, ·⟩)

/-- The uses of a model are those of its fields. -/
theorem mem_joints {model : Model} {joint : Joint} :
    joint ∈ model.joints ↔ joint.model = model.name ∧ joint.field ∈ model.fields ∧
      joint.field.joinTable? model.name = some joint.table := by
  obtain ⟨owner, field, table⟩ := joint
  -- A use is made of a field and its join table, and carries the name of the model.
  simp only [joints, List.mem_filterMap, Option.map_eq_some_iff, Joint.mk.injEq]
  constructor
  · rintro ⟨_, present, _, joins, rfl, rfl, rfl⟩
    exact ⟨rfl, present, joins⟩
  · rintro ⟨rfl, present, joins⟩
    exact ⟨field, present, table, joins, rfl, rfl, rfl⟩

end Model

namespace Store

/-- The definitions of a store, in order of name. -/
def definitions (store : Store) : List Model :=
  store.members.filterMap fun
    | .intact record => some record.definition
    | .damaged _ => none

/-- The uses that stored fields make of join tables. -/
def joints (store : Store) : List Joint := store.definitions.flatMap Model.joints

variable (system : SystemModels) (store : Store)

/-- A name is that of a model when the model is stored or a system model. -/
def IsModel (name : String) : Prop := store.contains name = true ∨ system.contains name = true

/-- A table is in use when it is that of a model, or the join table of a stored field. -/
def Uses (table : String) : Prop :=
  store.IsModel system table ∨ ∃ joint ∈ store.joints, joint.table = table

/-- A table is contested when it is the join table of a stored field and besides that of a model, or
the join table of another stored field that is not the counterpart of the first. -/
def Contested (table : String) : Prop :=
  ∃ joint ∈ store.joints, joint.table = table ∧ (store.IsModel system table ∨
    ∃ other ∈ store.joints, other.table = table ∧ other ≠ joint ∧ ¬joint.Counterparts other)

instance (name : String) : Decidable (store.IsModel system name) :=
  inferInstanceAs (Decidable (_ ∨ _))

instance (table : String) : Decidable (store.Uses system table) :=
  inferInstanceAs (Decidable (_ ∨ _))

instance (table : String) : Decidable (store.Contested system table) :=
  inferInstanceAs (Decidable (∃ joint ∈ _, _))

end Store

/-- Mates share their join table. -/
theorem Field.Mates.joinTable?_eq {system : SystemModels} {source target : String}
    {field mate : Field} (mates : field.Mates source target mate)
    {relation : Relation} (related : field.relation? = some relation)
    (resolved : relation.Resolved system) : mate.joinTable? target = field.joinTable? source := by
  -- Mates have relations of inverse kinds, so both use a join table or neither does.
  obtain ⟨held, back, heldRelated, backRelated, -, -, -, -, kind, joined⟩ := mates.sides
  rw [related, Option.some.injEq] at heldRelated
  subst heldRelated
  simp only [Field.joinTable?, related, backRelated, Option.bind_some, kind,
    RelationKind.usesJoinTable_inverse]
  split
  · -- A resolved many-to-many relation names its join table, and so does its other side.
    rename_i uses
    obtain ⟨table, given⟩ := Option.isSome_iff_exists.mp (resolved.joined uses)
    simp only [Relation.joinTableName, joined uses, given, Option.getD_some]
  · rfl

namespace Catalog

variable {configuration : Configuration} {catalog : Catalog} {now : Nat}
  {name other : String} {definition : Model} {joint : Joint}

/-- The definitions of the store of a catalog are its known models. -/
theorem definitions_store (catalog : Catalog) :
    catalog.store.definitions = catalog.models.members := by
  -- Each record of the catalog is an intact entry of the store, so that none is left out.
  simp only [Store.definitions, store, models, Roster.map, List.filterMap_map]
  exact congrFun List.filterMap_eq_map catalog.members

/-- The definitions of the store of a catalog are those found under their names. -/
theorem mem_definitions_store :
    definition ∈ catalog.store.definitions ↔
      catalog.definition? definition.name = some definition := by
  -- To be among the known models is to be found under the own name.
  rw [definitions_store, Roster.mem_iff_find?]
  show catalog.models.find? definition.name = some definition ↔ _
  rw [find?_models]

/-- A name is that of a model of the store of a catalog when there is a definition under it. -/
theorem contains_store : catalog.store.contains name = (catalog.definition? name).isSome := by
  -- The store has an entry under a name when the catalog has a record there.
  rw [Roster.contains_eq, find?_store, Option.isSome_map, isSome_definition?]

/-- The join tables of the store of a catalog are those of the fields of its definitions. -/
theorem mem_joints_store : joint ∈ catalog.store.joints ↔
    ∃ definition, catalog.definition? joint.model = some definition ∧
      joint.field ∈ definition.fields ∧ joint.field.joinTable? joint.model = some joint.table := by
  -- The name of the model is written in the use and again in the definition.
  simp only [Store.joints, List.mem_flatMap, mem_definitions_store, Model.mem_joints]
  refine exists_congr fun definition => ?_
  constructor
  · rintro ⟨found, own, present, joins⟩
    exact ⟨own ▸ found, present, own ▸ joins⟩
  · rintro ⟨found, present, joins⟩
    have named := name_of_definition? found
    exact ⟨named ▸ found, named.symm, present, named ▸ joins⟩

/-- The join tables that a stored model takes part in are in use by its own fields, or by fields
that relate to it. -/
theorem mem_joinTables_models {table : String}
    (found : catalog.definition? name = some definition) :
    table ∈ DeletePlan.joinTables catalog.models definition ↔
      ∃ joint ∈ catalog.store.joints, joint.table = table ∧
        (joint.model = name ∨ joint.field.targets name = true) := by
  obtain rfl := name_of_definition? found
  rw [DeletePlan.mem_joinTables, Model.mem_joinTableNames]
  constructor
  · rintro (⟨field, present, isTable⟩ | ⟨other, isKnown, -, field, present, leads, isTable⟩)
    · exact ⟨⟨definition.name, field, table⟩, mem_joints_store.mpr ⟨_, found, present, isTable⟩,
        rfl, Or.inl rfl⟩
    · -- The other model is stored under its own name.
      have known : catalog.definition? other.name = some other := by
        rw [← find?_models]
        exact Roster.mem_iff_find?.mp isKnown
      exact ⟨⟨other.name, field, table⟩, mem_joints_store.mpr ⟨_, known, present, isTable⟩, rfl,
        Or.inr leads⟩
  · rintro ⟨joint, joins, rfl, gone⟩
    obtain ⟨owner, stored, present, isTable⟩ := mem_joints_store.mp joins
    obtain same := name_of_definition? stored
    by_cases own : joint.model = definition.name
    · -- A relation of the model to itself is one of its own.
      rw [own, found, Option.some.injEq] at stored
      subst stored
      exact Or.inl ⟨joint.field, present, own ▸ isTable⟩
    · refine Or.inr ⟨owner, ?_, same ▸ own, joint.field, present, gone.resolve_left own,
        same ▸ isTable⟩
      rw [Roster.mem_iff_find?]
      show catalog.models.find? owner.name = some owner
      rw [find?_models, same, stored]

/-! ## After a deletion -/

/-- What is stored after a deletion was there before, with all its relations. -/
theorem of_definition?_deleted
    (left : (catalog.deleted name now).definition? other = some definition) :
    other ≠ name ∧ ∃ before, catalog.definition? other = some before ∧
      definition = before.stripReferences name := by
  -- Under the name itself nothing is left, and every other definition is stripped.
  rw [definition?_deleted] at left
  split at left
  · cases left
  · rename_i apart
    obtain ⟨before, found, same⟩ := Option.map_eq_some_iff.mp left
    exact ⟨apart, before, found, same.symm⟩

/-- A join table that is in use after a deletion was so before, by a field that leads neither from
nor to what was deleted. -/
theorem mem_joints_of_deleted (joins : joint ∈ (catalog.deleted name now).store.joints) :
    joint.model ≠ name ∧ joint.field.targets name = false ∧ joint ∈ catalog.store.joints := by
  -- The field has survived the stripping, so it leads elsewhere.
  obtain ⟨_, left, present, isTable⟩ := mem_joints_store.mp joins
  obtain ⟨apart, before, found, rfl⟩ := of_definition?_deleted left
  obtain ⟨inBefore, elsewhere⟩ := List.mem_filter.mp present
  exact ⟨apart, by simpa using elsewhere, mem_joints_store.mpr ⟨before, found, inBefore, isTable⟩⟩

/-! ## After a write -/

variable {plan : WritePlan} {old : Option Record}

/-- What is stored after a write was there before, or is what was written. -/
theorem of_definition?_applied (sound : plan.Sound (configuration.context catalog) old)
    (stored : (catalog.applied plan now).definition? name = some definition) :
    name = plan.definition.name ∧ definition.outline = plan.definition.outline ∨
      name ≠ plan.definition.name ∧ ∃ before, catalog.definition? name = some before ∧
        definition = sound.after before := by
  -- The model itself is written, if only up to what is stored already, and targets are edited.
  by_cases own : name = plan.definition.name
  · subst own
    obtain ⟨found, foundAfter, isNew⟩ := definition?_applied_self sound now
    rw [stored, Option.some.injEq] at foundAfter
    subst foundAfter
    exact Or.inl ⟨rfl, isNew.elim (congrArg Model.outline) fun kept =>
      Model.outline_eq_of_sameAs kept.1⟩
  · rw [definition?_applied sound own] at stored
    obtain ⟨before, found, same⟩ := Option.map_eq_some_iff.mp stored
    exact Or.inr ⟨own, before, found, same.symm⟩

/-- A join table that is in use after a write is one of the new version, or it was so before by a
field of another model that was the counterpart of no field of the old version. -/
theorem mem_joints_of_applied (sound : plan.Sound (configuration.context catalog) old)
    (joins : joint ∈ (catalog.applied plan now).store.joints) :
    joint.table ∈ plan.definition.joinTableNames ∨
      joint.model ≠ plan.definition.name ∧ joint ∈ catalog.store.joints ∧
        ∀ record, old = some record → ∀ field ∈ record.definition.fields,
          ∀ relation, field.relation? = some relation →
            configuration.system.contains relation.target = false →
            ∀ table, ¬Joint.Counterparts ⟨plan.definition.name, field, table⟩ joint := by
  obtain ⟨owner, twin, table⟩ := joint
  obtain ⟨definition, stored, present, isTable⟩ := mem_joints_store.mp joins
  rcases of_definition?_applied sound stored with
    ⟨rfl, same⟩ | ⟨apart, before, found, rfl⟩
  · -- The model itself has the join tables of the new version.
    have named := name_of_definition? stored
    rw [← Model.joinTableNames_eq_of_outline_eq named same]
    exact Or.inl (Model.mem_joinTableNames.mpr ⟨twin, present, named.symm ▸ isTable⟩)
  · have named := name_of_definition? found
    subst named
    rcases sound.of_mem_after present with
      ⟨field, inPlan, relation, related, -, -, mates, -⟩ | ⟨inBefore, unremoved, unpaired⟩
    · -- A counterpart of the new version shares its join table.
      refine Or.inl (Model.mem_joinTableNames.mpr ⟨field, inPlan, ?_⟩)
      rw [← mates.joinTable?_eq related (sound.tidy.resolved field inPlan relation related),
        isTable]
    · refine Or.inr ⟨apart, mem_joints_store.mpr ⟨before, found, inBefore, isTable⟩, ?_⟩
      -- Otherwise the relation leads to the model of the field, which keeps only what is no
      -- counterpart.
      intro record isOld field inOld relation related inCatalog _ counterparts
      have leads : relation.target = before.name := by
        obtain ⟨held, heldBy, leads, -⟩ := Field.invertsTo_iff.mp counterparts.1
        rw [related, Option.some.injEq] at heldBy
        exact heldBy ▸ leads
      have known : (configuration.context catalog).known.contains before.name = true := by
        rw [Roster.contains_eq, Configuration.find?_context, found]
        rfl
      have away := sound.invertsTo_of_kept isOld known inOld related ⟨leads ▸ apart, inCatalog⟩
        leads unremoved unpaired
      rw [counterparts.2] at away
      cases away

end Catalog

end ModelCatalog
