import ModelCatalog.Proofs.Drafts

/-! The graph of relations between models: mates, and graphs in which every relation has one. -/

namespace ModelCatalog

/-- The inverse of the inverse of a kind is the kind. -/
@[simp] theorem RelationKind.inverse_inverse (kind : RelationKind) :
    kind.inverse.inverse = kind := by
  -- Only the two kinds to one and to many change places.
  cases kind <;> rfl

namespace Field

/-- Two fields are mates when they stand for the two sides of one relation: each bears the inverse
name of the other, the kinds are inverse, and a join table is shared. -/
structure Mates (source target : String) (field mate : Field) : Prop where
  sides : ∃ relation back, field.relation? = some relation ∧ mate.relation? = some back ∧
    relation.target = target ∧ back.target = source ∧
    relation.inverseName = some mate.name ∧ back.inverseName = some field.name ∧
    back.kind = relation.kind.inverse ∧
    (relation.kind.usesJoinTable = true → back.joinTable = relation.joinTable)

variable {source target : String} {field mate : Field}

/-- The sides of a relation may be looked at in either order. -/
theorem Mates.symm (mates : field.Mates source target mate) : mate.Mates target source field := by
  obtain ⟨relation, back, related, backRelated, leads, returns, named, inverse, kind, joined⟩ :=
    mates.sides
  -- Kinds are inverse to each other, and a join table is one for both.
  refine ⟨back, relation, backRelated, related, returns, leads, inverse, named, ?_, ?_⟩
  · rw [kind, RelationKind.inverse_inverse]
  · rw [kind, RelationKind.usesJoinTable_inverse]
    exact fun uses => (joined uses).symm

/-- Whether fields are mates depends on their outlines. -/
theorem Mates.of_outline {twin other : Field} (mates : field.Mates source target mate)
    (same : twin.outline = field.outline) (alike : other.outline = mate.outline) :
    twin.Mates source target other := by
  obtain ⟨relation, back, related, backRelated, leads, returns, named, inverse, rest⟩ :=
    mates.sides
  -- An outline holds the name of a field and its relation, and a pair of mates has nothing else.
  have name : twin.name = field.name := congrArg Prod.fst same
  have otherName : other.name = mate.name := congrArg Prod.fst alike
  refine ⟨relation, back, ?_, ?_, leads, returns, ?_, ?_, rest⟩
  · rw [relation?_eq_of_outline_eq same, related]
  · rw [relation?_eq_of_outline_eq alike, backRelated]
  · rw [otherName, named]
  · rw [name, inverse]

/-- A field that has a mate targets the model of the mate. -/
theorem Mates.targets (mates : field.Mates source target mate) : field.targets target = true := by
  -- Mates lead to each other's models.
  obtain ⟨relation, _, related, -, leads, -⟩ := mates.sides
  exact targets_iff.mpr ⟨relation, related, leads⟩

/-- A field that has a mate inverts to it. -/
theorem Mates.invertsTo (mates : field.Mates source target mate) :
    field.invertsTo target mate.name = true := by
  -- A mate bears the inverse name of the field.
  obtain ⟨relation, _, related, -, leads, -, named, -⟩ := mates.sides
  exact invertsTo_iff.mpr ⟨relation, related, leads, named⟩

/-- The counterpart of a field that has a mate is the mate. -/
theorem Mates.counterpartName (mates : field.Mates source target mate) (model : String) :
    field.counterpartName model = mate.name :=
  -- The inverse name is given, so no default is taken.
  counterpartName_of_invertsTo mates.invertsTo model

/-- A field that is up to date with the counterpart of a resolved relation is its mate. -/
theorem mates_of_current {system : SystemModels} {relation : Relation}
    (related : field.relation? = some relation) (resolved : relation.Resolved system)
    (inCatalog : system.contains relation.target = false)
    (current : (WritePlan.insertionOf source field relation).counterpart.mergeInto mate = mate) :
    field.Mates source relation.target mate := by
  -- A resolved relation to a model of the catalog has an inverse name, which the counterpart bears.
  obtain ⟨name, given⟩ := Option.isSome_iff_exists.mp (resolved.named inCatalog)
  have counterpart : field.counterpartName source = name :=
    counterpartName_of_inverse related given source
  have named : mate.name = name := by
    rw [← current]
    exact counterpart
  -- What the counterpart takes over from the field that was there is no part of the pairing.
  obtain ⟨foreignKey, onDelete, merged⟩ := relation?_mergeInto
    (relation?_ofRelation (field.counterpartName source) (relation.facing source field.name)) mate
  have back : mate.relation? = some { relation.facing source field.name with
      foreignKey := foreignKey, onDelete := onDelete } := by
    rw [← merged]
    exact congrArg relation? current.symm
  refine ⟨relation, _, related, back, rfl, rfl, ?_, rfl, rfl, ?_⟩
  · rw [given, named]
  · intro uses
    simp only [Relation.facing, RelationKind.usesJoinTable_inverse]
    rw [if_pos uses]

end Field

namespace Model

/-- Every self-relation has a self-relation for its counterpart. -/
def Closed (model : Model) : Prop :=
  ∀ field ∈ model.fields, field.targets model.name = true →
    ∃ mate ∈ model.fields, mate.targets model.name = true ∧
      mate.name = field.counterpartName model.name

/-- What holds of every stored model by itself: its fields have different names, its relations are
resolved, and its self-relations are closed. -/
structure Tidy (system : SystemModels) (model : Model) : Prop where
  distinct : (model.fields.map Field.name).Nodup
  resolved : model.Resolved system
  closed : model.Closed

/-- Whether a model is tidy depends on its outline. -/
theorem Tidy.of_outline {system : SystemModels} {model twin : Model}
    (tidy : model.Tidy system) (name : twin.name = model.name)
    (same : twin.outline = model.outline) : twin.Tidy system where
  distinct := by
    rw [names_eq_of_outline_eq same]
    exact tidy.distinct
  resolved := by
    intro field present relation related
    -- Each field has a twin of its outline, and the relations are the same in both.
    obtain ⟨other, otherPresent, alike⟩ := exists_of_outline_eq same present
    exact tidy.resolved other otherPresent relation
      ((Field.relation?_eq_of_outline_eq alike).trans related)
  closed := by
    intro field present targets
    obtain ⟨other, otherPresent, alike⟩ := exists_of_outline_eq same present
    have relation := Field.relation?_eq_of_outline_eq alike
    -- The mate of the twin is the twin of a mate.
    obtain ⟨mate, matePresent, back, named⟩ := tidy.closed other otherPresent (by
      rw [← name]
      obtain ⟨held, related, leads⟩ := Field.targets_iff.mp targets
      exact Field.targets_iff.mpr ⟨held, relation.trans related, leads⟩)
    obtain ⟨again, againPresent, alikeMate⟩ := exists_of_outline_eq same.symm matePresent
    -- It leads back to the same model under the same name, since an outline has both.
    refine ⟨again, againPresent, ?_, ?_⟩
    · rw [name]
      obtain ⟨held, related, leads⟩ := Field.targets_iff.mp back
      exact Field.targets_iff.mpr
        ⟨held, (Field.relation?_eq_of_outline_eq alikeMate).trans related, leads⟩
    · have sameName : again.name = mate.name := congrArg Prod.fst alikeMate
      rw [sameName, named, Field.counterpartName, Field.counterpartName, relation, name]

/-- A field of a model has a mate in a target. -/
def HasMate (target : Model) (source : String) (field : Field) : Prop :=
  ∃ mate ∈ target.fields, field.Mates source target.name mate

/-- Whether a field has a mate depends on outlines. -/
theorem HasMate.of_outline {target twin : Model} {source : String} {field other : Field}
    (mated : target.HasMate source field) (name : twin.name = target.name)
    (same : twin.outline = target.outline) (alike : other.outline = field.outline) :
    twin.HasMate source other := by
  -- The model with the same outline has a field with that of the mate.
  obtain ⟨mate, present, mates⟩ := mated
  obtain ⟨again, againPresent, alikeMate⟩ := exists_of_outline_eq same.symm present
  exact ⟨again, againPresent, by rw [name]; exact mates.of_outline alike alikeMate⟩

end Model

/-- Graphs of one outline have models of one name and outline under every name. -/
theorem Models.exists_twin {known other : Models}
    (same : ∀ name, (other.find? name).map Model.outline = (known.find? name).map Model.outline)
    {name : String} {model : Model} (found : other.find? name = some model) :
    ∃ twin, known.find? name = some twin ∧ twin.name = model.name ∧
      twin.outline = model.outline := by
  have alike := same name
  -- The outlines agree under the name, so something is found in the other graph as well.
  rw [found, Option.map_some] at alike
  obtain ⟨twin, stored, outline⟩ := Option.map_eq_some_iff.mp alike.symm
  have named : model.name = name := Roster.name_of_find? found
  have ownName : twin.name = name := Roster.name_of_find? stored
  exact ⟨twin, stored, ownName.trans named.symm, outline⟩

open WritePlan in
/-- A graph of models is symmetric when none of them is a system model, each is tidy, and every
relation to another model of the catalog has a mate there. -/
structure Symmetric (system : SystemModels) (known : Models) : Prop where
  inCatalog : ∀ name model, known.find? name = some model → system.contains name = false
  tidy : ∀ name model, known.find? name = some model → model.Tidy system
  mated : ∀ name model, known.find? name = some model → ∀ field ∈ model.fields,
    ∀ relation, field.relation? = some relation → leadsOut system name relation →
      ∃ target, known.find? relation.target = some target ∧ target.HasMate name field

namespace Symmetric

variable {system : SystemModels} {known other : Models}

/-- The graph without models is symmetric. -/
theorem empty : Symmetric system (∅ : Models) where
  -- There is no model to ask anything of.
  inCatalog := fun _ _ found => by cases found
  tidy := fun _ _ found => by cases found
  mated := fun _ _ found => by cases found

/-- Whether a graph is symmetric depends on the outlines of its models. -/
theorem of_outline (symmetric : Symmetric system known)
    (same : ∀ name, (other.find? name).map Model.outline = (known.find? name).map Model.outline) :
    Symmetric system other := by
  -- Every model has a twin in the known graph, and what is asked of it carries over.
  refine ⟨?_, ?_, ?_⟩
  · intro name model found
    obtain ⟨before, stored, -⟩ := Models.exists_twin same found
    exact symmetric.inCatalog name before stored
  · intro name model found
    obtain ⟨before, stored, named, outline⟩ := Models.exists_twin same found
    exact (symmetric.tidy name before stored).of_outline named.symm outline.symm
  · intro name model found field present relation related out
    obtain ⟨before, stored, -, outline⟩ := Models.exists_twin same found
    obtain ⟨earlier, earlierPresent, alike⟩ := Model.exists_of_outline_eq outline.symm present
    have held : earlier.relation? = some relation :=
      (Field.relation?_eq_of_outline_eq alike).trans related
    obtain ⟨target, targetStored, mated⟩ :=
      symmetric.mated name before stored earlier earlierPresent relation held out
    -- The target of the relation has a twin as well, and the mate one in it.
    obtain ⟨after, afterStored, afterName, afterOutline⟩ :=
      Models.exists_twin (fun other => (same other).symm) targetStored
    exact ⟨after, afterStored, mated.of_outline afterName afterOutline alike.symm⟩

/-- In a symmetric graph a field has exactly one field that inverts to it. -/
theorem eq_of_invertsTo (symmetric : Symmetric system known) {name target : String}
    {model other : Model} (found : known.find? name = some model)
    (otherFound : known.find? target = some other) (apart : name ≠ target)
    {field mate : Field} (present : field ∈ model.fields) (mates : field.Mates name target mate)
    (matePresent : mate ∈ other.fields) {again : Field} (againPresent : again ∈ other.fields)
    (inverts : again.invertsTo name field.name = true) : again = mate := by
  -- The other field has a mate of the same name, which is the field itself.
  obtain ⟨back, related, leads, inverse⟩ := Field.invertsTo_iff.mp inverts
  obtain ⟨first, firstFound, twin, twinPresent, twinMates⟩ := symmetric.mated target other
    otherFound again againPresent back related
    ⟨leads ▸ apart, leads ▸ symmetric.inCatalog name model found⟩
  rw [leads, found, Option.some.injEq] at firstFound
  subst firstFound
  have sameName : twin.name = field.name := by
    rw [← twinMates.counterpartName name]
    exact Field.counterpartName_of_invertsTo inverts name
  have own := Model.eq_of_name_eq (symmetric.tidy name model found).distinct twinPresent present
    sameName
  subst own
  refine Model.eq_of_name_eq (symmetric.tidy target other otherFound).distinct againPresent
    matePresent ?_
  rw [← mates.counterpartName name, ← twinMates.symm.counterpartName name]

end Symmetric

end ModelCatalog
