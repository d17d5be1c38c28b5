import ModelCatalog.Proofs.GraphSteps

/-! Formed definitions: a write leaves the definitions of its targets formed, and a deletion those
of the models that refer to the deleted one. Neither looks at any definition but its own as a
whole. -/

namespace ModelCatalog

variable {system : SystemModels} {known other : Models}

/-! ## Fields among other models -/

/-- A relation stays formed as long as its target is not taken away. -/
theorem Relation.Formed.of_known {model field : String} {relation : Relation}
    (formed : relation.Formed system known model field)
    (there : known.contains relation.target = true → other.contains relation.target = true) :
    relation.Formed system other model field :=
  -- Only what is asked of the target looks at the known models.
  { formed with present := formed.present.imp id (Or.imp id there) }

/-- A field stays formed as long as what it relates to is not taken away. -/
theorem Field.Formed.of_known {model : String} {field : Field}
    (formed : field.Formed system known model)
    (there : ∀ relation, field.relation? = some relation →
      known.contains relation.target = true → other.contains relation.target = true) :
    field.Formed system other model :=
  -- Only what is asked of the relation looks at the known models.
  { formed with
    relation := fun relation related =>
      (formed.relation relation related).of_known (there relation related) }

/-- A definition stays formed as long as no model that it relates to is taken away. -/
theorem Model.Formed.of_known {model : Model} (formed : model.Formed system known)
    (there : ∀ name, known.contains name = true → other.contains name = true) :
    model.Formed system other :=
  -- The fields alone look at the known models.
  { formed with
    fields := fun field present =>
      (formed.fields field present).of_known fun relation _ => there relation.target }

/-- A definition from which fields are taken away stays formed as long as what the others relate to
is not. -/
theorem Model.Formed.filter {model : Model} (formed : model.Formed system known)
    (keeps : Field → Bool)
    (there : ∀ field ∈ model.fields, keeps field = true → ∀ relation,
      field.relation? = some relation → known.contains relation.target = true →
        other.contains relation.target = true) :
    Model.Formed system other { model with fields := model.fields.filter keeps } where
  -- What is left is a part of what was there, in the same order.
  name := formed.name
  fields := fun field present =>
    (formed.fields field (List.mem_filter.mp present).1).of_known
      (there field (List.mem_filter.mp present).1 (List.mem_filter.mp present).2)
  names := formed.names.sublist (List.filter_sublist.map Field.name)
  columns := formed.columns.sublist (List.filter_sublist.filterMap Field.columnName?)
  oneKey := Nat.le_trans (List.filter_sublist.filter Field.isKey).length_le formed.oneKey

/-! ## Counterparts -/

/-- The mate of a formed field of a source is formed when its own names are identifiers: all other
names it has from the field, and the columns of a join table change places. -/
theorem Field.Mates.formed {source target : String} {field mate : Field}
    (mates : field.Mates source target mate) (formed : field.Formed system known source)
    (resolved : field.Resolved system) (isSource : isIdentifier source = true)
    (apart : source ≠ target) (there : other.contains source = true)
    (identified : TargetEdit.Identified source mate) (plain : mate.default = none) :
    mate.Formed system other target := by
  -- The mate is looked at from the field: each side tells what the other one is.
  obtain ⟨relation, back, related, backRelated, leads, returns, -, inverse, kind, joined⟩ :=
    mates.sides
  obtain ⟨isName, isColumn⟩ := identified back backRelated returns
  have forward := formed.relation relation related
  -- Seen from the other side the columns of a join table change places.
  have columns : back.joinColumnNames target mate.name =
      ((relation.joinColumnNames source field.name).2,
        (relation.joinColumnNames source field.name).1) := by
    simp only [Relation.joinColumnNames, leads, returns, if_neg apart, if_neg apart.symm]
  have uses : back.kind.usesJoinTable = true → relation.kind.usesJoinTable = true := by
    rw [kind, RelationKind.usesJoinTable_inverse]
    exact id
  refine ⟨isName, Field.finite_of_plain plain, ?_, ?_⟩
  · -- A mate is a relation and no choice.
    intro options choice
    rw [Field.relation?_eq_some, choice] at backRelated
    cases backRelated
  · intro again againRelated
    rw [backRelated, Option.some.injEq] at againRelated
    subst againRelated
    refine ⟨⟨?_, ?_, isColumn, fun joins => ?_⟩, ?_, fun joins => ?_⟩
    · rw [returns]
      exact isSource
    · rw [returns]
      exact Or.inr (Or.inr there)
    · -- The join table is written out on the one side and taken over on the other.
      obtain ⟨table, given⟩ := Option.isSome_iff_exists.mp
        ((resolved relation related).joined (uses joins))
      obtain ⟨isTable, isLeft, isRight⟩ := forward.joinTable (uses joins)
      rw [columns]
      refine ⟨?_, isRight, isLeft⟩
      rw [Relation.joinTableName, joined (uses joins), given]
      rwa [Relation.joinTableName, given] at isTable
    · intro name named
      rw [inverse, Option.some.injEq] at named
      exact named ▸ formed.name
    · rw [columns]
      exact (forward.apart (uses joins)).symm

/-! ## Writing -/

namespace WritePlan

variable {context : Context} {old : Option Record} {plan : WritePlan} {target : Model}

namespace Sound

/-- The keys of a target are none of the business of a write. -/
theorem filter_isKey_after (sound : plan.Sound context old) :
    (sound.after target).fields.filter Field.isKey = target.fields.filter Field.isKey := by
  have plain : ∀ fields : List Field, fields.filter Field.isKey =
      (fields.filter fun field => !field.targets plan.definition.name).filter Field.isKey := by
    intro fields
    rw [List.filter_filter]
    refine List.filter_congr fun field _ => ?_
    -- A key is no relation, and so does not lead to the source.
    cases kind : field.kind <;> simp [Field.isKey, Field.targets, kind]
  have kept := TargetEdit.filter_apply (sound.orderly target.name).faces target
  rw [plain, plain target.fields]
  exact congrArg (List.filter Field.isKey) kept

/-- What a write makes of a formed target is formed, next to the new version. -/
theorem formed_after (sound : plan.Sound context old)
    (definition : plan.definition.Formed context.system context.known)
    (found : context.known.find? target.name = some target)
    (apart : target.name ≠ plan.definition.name)
    (formed : target.Formed context.system context.known)
    (own : other.contains plan.definition.name = true)
    (there : ∀ name, context.known.contains name = true → other.contains name = true) :
    (sound.after target).Formed context.system other := by
  by_cases listed : target.name ∈ plan.edits.map TargetEdit.target
  · -- Planning has looked at the names and columns of an edited target.
    obtain ⟨identified, names, columns⟩ :=
      TargetEdit.checkFit_eq_ok.mp (sound.fits_after found listed)
    refine ⟨?_, fun field present => ?_, names, columns, ?_⟩
    · rw [name_revised]
      exact formed.name
    · rw [name_revised]
      rcases sound.of_mem_after present with
        ⟨source, inSource, relation, related, -, -, mates, current⟩ | ⟨before, -⟩
      · -- A counterpart is formed as the mate of a field that is.
        refine mates.formed (definition.fields source inSource)
          (sound.tidy.resolved source inSource) definition.name apart.symm own
          (identified field present) ?_
        rw [← current]
        rfl
      · exact (formed.fields field before).of_known fun relation _ => there relation.target
    · rw [sound.filter_isKey_after]
      exact formed.oneKey
  · -- A target without edits stays as it is.
    rw [sound.after_eq_self listed]
    exact formed.of_known there

end Sound

end WritePlan

/-! ## Catalogs -/

namespace Catalog

variable {configuration : Configuration} {catalog : Catalog} {now : Nat}

/-- Every stored definition is formed next to all of them. -/
def Formed (system : SystemModels) (catalog : Catalog) : Prop :=
  ∀ name definition, catalog.definition? name = some definition →
    definition.Formed system catalog.models

/-- After a write the model itself is stored, and whatever was stored before. -/
theorem contains_models_applied {old : Option Record} {plan : WritePlan}
    (sound : plan.Sound (configuration.context catalog) old) (now : Nat) {name : String} :
    (catalog.applied plan now).models.contains name = true ↔
      name = plan.definition.name ∨ catalog.models.contains name = true := by
  -- Own name and other names are stored for different reasons.
  rw [contains_models, contains_models]
  by_cases own : name = plan.definition.name
  · obtain ⟨definition, stored, -⟩ := definition?_applied_self sound now
    simp [own, stored]
  · rw [definition?_applied sound own, Option.isSome_map]
    simp [own]

/-- A write leaves all stored definitions formed. -/
theorem Formed.applied (formed : catalog.Formed configuration.system) {old : Option Record}
    {declared : Model} {plan : WritePlan}
    (planned : (configuration.context catalog).planWrite old declared = .ok plan) (now : Nat) :
    (catalog.applied plan now).Formed configuration.system := by
  have sound := WritePlan.sound_of_planWrite planned
  have valid := (Model.validate_eq_ok.mp (WritePlan.valid_of_planWrite planned)).1
  have own := (contains_models_applied sound now).mpr (Or.inl rfl)
  -- No model is taken away.
  have there : ∀ name, catalog.models.contains name = true →
      (catalog.applied plan now).models.contains name = true :=
    fun name known => (contains_models_applied sound now).mpr (Or.inr known)
  intro name definition found
  by_cases same : name = plan.definition.name
  · -- The model itself was checked, now or when the version that stays was stored.
    subst same
    obtain ⟨definition, stored, isNew | ⟨-, before⟩⟩ := definition?_applied_self sound now
    all_goals
      rw [found, Option.some.injEq] at stored
      subst stored
    · exact isNew ▸ valid.of_known there
    · exact (formed _ _ before).of_known there
  · -- Any other model is what propagation has made of the one before.
    rw [definition?_applied sound same] at found
    obtain ⟨before, stored, rfl⟩ := Option.map_eq_some_iff.mp found
    have named := name_of_definition? stored
    refine sound.formed_after valid ?_ (named ▸ same) (formed name before stored) own there
    rw [Configuration.find?_context, named]
    exact stored

/-- A deletion leaves all other definitions formed. -/
theorem Formed.deleted {system : SystemModels} (formed : catalog.Formed system) (gone : String)
    (now : Nat) : (catalog.deleted gone now).Formed system := by
  -- What was stored has lost its relations to the deleted model.
  intro name definition found
  rw [definition?_deleted] at found
  split at found
  · cases found
  rename_i apart
  obtain ⟨before, stored, rfl⟩ := Option.map_eq_some_iff.mp found
  -- What is left relates to models that are left.
  refine (formed name before stored).filter _ fun field present away relation related known => ?_
  have kept : relation.target ≠ gone :=
    (Field.not_targets_iff related).mp (by simpa using away)
  rw [contains_models] at known ⊢
  rw [definition?_deleted, if_neg kept, Option.isSome_map]
  exact known

end Catalog

end ModelCatalog
