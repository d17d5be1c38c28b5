import ModelCatalog.Proofs.Counterpart
import ModelCatalog.Proofs.Outcome
import ModelCatalog.Relation.Resolution

/-! Resolution: what filling in leaves of a definition, and that self-relations come in pairs. -/

namespace ModelCatalog

/-- A relation that nothing is left to be filled in of. -/
structure Relation.Resolved (system : SystemModels) (relation : Relation) : Prop where
  named : system.contains relation.target = false → relation.inverseName.isSome = true
  joined : relation.kind.usesJoinTable = true → relation.joinTable.isSome = true

/-- A field whose relation, if it has one, is resolved. -/
def Field.Resolved (system : SystemModels) (field : Field) : Prop :=
  ∀ relation, field.relation? = some relation → relation.Resolved system

/-- A model all of whose relations are resolved. -/
def Model.Resolved (system : SystemModels) (model : Model) : Prop :=
  ∀ field ∈ model.fields, field.Resolved system

/-- The names of the fields by which a model relates to itself. -/
def Model.selfNames (model : Model) : List String :=
  (model.fields.filter fun field => field.targets model.name).map Field.name

/-- The inverse of a kind lives in a join table when the kind does. -/
@[simp] theorem RelationKind.usesJoinTable_inverse (kind : RelationKind) :
    kind.inverse.usesJoinTable = kind.usesJoinTable := by
  -- The inverse of many-to-many is many-to-many, and no other kind uses a join table.
  cases kind <;> rfl

/-- A counterpart brought up to date with a field of the target is as resolved as its source. -/
theorem Relation.Resolved.mergeInto {system : SystemModels} {relation : Relation}
    (resolved : relation.Resolved system) (source fieldName name : String) (existing : Field) :
    ((Field.ofRelation name (relation.facing source fieldName)).mergeInto existing).Resolved
      system := by
  intro merged related
  -- The counterpart leads back under the name of the field, and shares the join table.
  obtain ⟨foreignKey, onDelete, same⟩ := Field.relation?_mergeInto
    (Field.relation?_ofRelation name (relation.facing source fieldName)) existing
  rw [same, Option.some.injEq] at related
  subst related
  refine ⟨fun _ => rfl, fun uses => ?_⟩
  simp only [facing] at uses ⊢
  rw [if_pos uses]
  exact resolved.joined (by simpa using uses)

namespace Resolution

/-! ## The definition without the self-counterparts it gives up -/

/-- The definition that resolution begins with. -/
def snapshot (old : Option Model) (model : Model) : Model :=
  match old with
  | some old => dropSelfCounterparts old model
  | none => model

/-- One step of taking self-counterparts along: that of a relation of the old version. -/
def dropOne (name : String) (model : Model) (pair : Field × Relation) : Model :=
  match model.field? pair.1.name with
  | some kept =>
    if kept.targets name then model
    else model.removeCounterpart name pair.1.name (pair.1.counterpartName name)
  | none => model.removeCounterpart name pair.1.name (pair.1.counterpartName name)

/-- Self-counterparts are taken along one relation after the other. -/
theorem dropSelfCounterparts_eq (old new : Model) :
    dropSelfCounterparts old new =
      (old.relations.filter fun pair => pair.2.target == new.name).foldl (dropOne new.name) new :=
  rfl

/-- Taking self-counterparts along keeps a sublist of the fields. -/
theorem fields_foldl_dropOne (name : String) (pairs : List (Field × Relation)) (model : Model) :
    (pairs.foldl (dropOne name) model).fields.Sublist model.fields := by
  induction pairs generalizing model with
  | nil => exact List.Sublist.refl _
  | cons first rest ih =>
    refine (ih _).trans ?_
    -- A step removes the fields that pair, or none.
    simp only [dropOne]
    split
    · split
      · exact List.Sublist.refl _
      · exact List.filter_sublist
    · exact List.filter_sublist

/-- Taking self-counterparts along keeps the name. -/
theorem name_foldl_dropOne (name : String) (pairs : List (Field × Relation)) (model : Model) :
    (pairs.foldl (dropOne name) model).name = model.name := by
  -- No step touches the name.
  induction pairs generalizing model with
  | nil => rfl
  | cons first rest ih =>
    refine (ih _).trans ?_
    simp only [dropOne]
    split
    · split <;> rfl
    · rfl

/-- The snapshot has some of the fields of the definition. -/
theorem fields_snapshot (old : Option Model) (model : Model) :
    (snapshot old model).fields.Sublist model.fields := by
  -- Without an old version nothing is taken along.
  cases old with
  | none => exact List.Sublist.refl _
  | some old => exact fields_foldl_dropOne _ _ _

/-- The snapshot has the name of the definition. -/
@[simp] theorem name_snapshot (old : Option Model) (model : Model) :
    (snapshot old model).name = model.name := by
  -- Dropping fields leaves the name alone, and without an old version nothing is dropped.
  cases old with
  | none => rfl
  | some old => exact name_foldl_dropOne _ _ _

/-- Nothing is taken along when nothing is at the turn of any self-relation of the old version. -/
theorem snapshot_eq_of_steps {old model : Model}
    (each : ∀ field ∈ old.fields, ∀ relation, field.relation? = some relation →
      relation.target = model.name → dropOne model.name model (field, relation) = model) :
    snapshot (some old) model = model := by
  -- The definition is the same before every turn, since no turn has taken anything.
  have run : ∀ pairs : List (Field × Relation),
      (∀ pair ∈ pairs, dropOne model.name model pair = model) →
      pairs.foldl (dropOne model.name) model = model := by
    intro pairs
    induction pairs with
    | nil => exact fun _ => rfl
    | cons first rest ih =>
      intro all
      rw [List.foldl_cons, all first List.mem_cons_self]
      exact ih fun pair later => all pair (List.mem_cons_of_mem _ later)
  -- Each turn is that of a field of the old version with a relation to the model.
  refine run _ fun pair member => ?_
  obtain ⟨listed, target⟩ := List.mem_filter.mp member
  obtain ⟨field, present, related⟩ := List.mem_filterMap.mp listed
  obtain ⟨relation, held, rfl⟩ := Option.map_eq_some_iff.mp related
  exact each field present relation held (by simpa using target)

/-- Nothing is taken along while every self-relation of the old version is kept. -/
theorem snapshot_eq_of_kept {old model : Model}
    (kept : ∀ field ∈ old.fields, field.targets model.name = true →
      ∃ again, model.field? field.name = some again ∧ again.targets model.name = true) :
    snapshot (some old) model = model := by
  -- A self-relation that is kept takes nothing along.
  refine snapshot_eq_of_steps fun field present relation related leads => ?_
  obtain ⟨again, found, targets⟩ :=
    kept field present (Field.targets_iff.mpr ⟨relation, related, leads⟩)
  simp only [dropOne, found, targets, reduceIte]

/-- Nothing is taken along from a definition whose relations to itself all name one another as their
inverses. -/
theorem snapshot_eq_of_named {old : Option Model} {model : Model}
    (distinct : (model.fields.map Field.name).Nodup)
    (named : ∀ field ∈ model.fields, field.targets model.name = true →
      ∃ mate ∈ model.fields, mate.targets model.name = true ∧
        field.invertsTo model.name mate.name = true) : snapshot old model = model := by
  -- Only self-relations of an old version take anything along.
  cases old with
  | none => rfl
  | some old =>
    refine snapshot_eq_of_steps fun gone _ relation related leads => ?_
    by_cases kept : (model.field? gone.name).any fun again => again.targets model.name
    · -- A self-relation that is kept takes nothing along.
      obtain ⟨again, found, targets⟩ := (Option.any_eq_true _ _).mp kept
      simp only [dropOne, found, targets, reduceIte]
    · -- What goes with the relation names it, and so it would be there to be kept.
      have whole : model.removeCounterpart model.name gone.name
          (gone.counterpartName model.name) = model := by
        have same : (model.removeCounterpart model.name gone.name
            (gone.counterpartName model.name)).fields = model.fields := by
          refine List.filter_eq_self.mpr fun field present => ?_
          rw [Bool.not_eq_true', Bool.eq_false_iff]
          intro goes
          obtain ⟨mate, there, back, inverts⟩ :=
            named field present (Field.targets_of_isRemovedWith goes)
          obtain ⟨own, held, -, inverse⟩ := Field.invertsTo_iff.mp inverts
          obtain ⟨-, isMate⟩ : own.target = model.name ∧ mate.name = gone.name := by
            simpa [Field.isRemovedWith, held, inverse] using goes
          refine kept ?_
          rw [← isMate, Model.field?_of_mem distinct there]
          exact back
        cases model
        simpa [Model.removeCounterpart] using same
      simp only [dropOne, whole, ite_self]
      split <;> rfl

/-! ## Filling in -/

variable {context : Context} {old : Option Model} {source : Model}

/-- Filling in keeps the kind of a relation. -/
@[simp] theorem kind_fillRelation (fieldName : String) (relation : Relation) :
    (fillRelation context old source fieldName relation).kind = relation.kind := by
  -- Only the inverse name and the join table are filled in, whichever way the conditions fall.
  simp only [fillRelation]
  repeat' split
  all_goals rfl

/-- Filling in keeps the target of a relation. -/
@[simp] theorem target_fillRelation (fieldName : String) (relation : Relation) :
    (fillRelation context old source fieldName relation).target = relation.target := by
  -- Only the inverse name and the join table are filled in, whichever way the conditions fall.
  simp only [fillRelation]
  repeat' split
  all_goals rfl

/-- A relation that was filled in is resolved. -/
theorem resolved_fillRelation (fieldName : String) (relation : Relation) :
    (fillRelation context old source fieldName relation).Resolved context.system := by
  -- Both names have a default in the end.
  refine ⟨?_, ?_⟩
  · -- The inverse name is asked for only where the target is of the catalog, and the join table
    -- only where one is used.
    rw [target_fillRelation]
    intro catalog
    simp only [fillRelation, catalog, Bool.false_eq_true, reduceIte]
    split <;> simp [inverseNameOf]
  · rw [kind_fillRelation]
    intro uses
    simp only [fillRelation]
    split <;> simp [joinTableOf]

/-- Filling in keeps the name of a field. -/
@[simp] theorem name_fillField (field : Field) :
    (fillField context old source field).name = field.name := by
  -- Only a relation is filled in, and it stands under the same name.
  unfold fillField
  split <;> rfl

/-- Filling in keeps the default of a field. -/
@[simp] theorem default_fillField (field : Field) :
    (fillField context old source field).default = field.default := by
  -- Only a relation is filled in, and the default is no part of it.
  unfold fillField
  split <;> rfl

/-- Filling in a field fills in its relation. -/
theorem relation?_fillField (field : Field) :
    (fillField context old source field).relation? =
      field.relation?.map (fillRelation context old source field.name) := by
  -- Only relations are filled in.
  unfold fillField Field.relation?
  cases kind : field.kind <;> simp [kind]

/-- Filling in keeps the target of a field. -/
@[simp] theorem targets_fillField (field : Field) (model : String) :
    (fillField context old source field).targets model = field.targets model := by
  -- A relation that is filled in keeps its target, and other kinds have none.
  unfold fillField Field.targets
  cases kind : field.kind <;> simp [kind]

/-- A relation that is resolved stays as it is. -/
theorem fillRelation_eq_self {relation : Relation} (resolved : relation.Resolved context.system)
    (fieldName : String) : fillRelation context old source fieldName relation = relation := by
  -- What is given comes first in both chains of defaults.
  have kept : ∀ previous target, context.system.contains relation.target = false →
      inverseNameOf source.name fieldName target previous relation = relation.inverseName := by
    intro previous target catalog
    obtain ⟨name, given⟩ := Option.isSome_iff_exists.mp (resolved.named catalog)
    simp [inverseNameOf, given]
  have named : ∀ previous target,
      (if context.system.contains relation.target then relation
        else { relation with
          inverseName := inverseNameOf source.name fieldName target previous relation }) =
        relation := by
    intro previous target
    split
    · rfl
    · rename_i catalog
      rw [kept previous target (by simpa using catalog)]
  simp only [fillRelation, named]
  -- A relation in a join table has its table as well.
  split
  · rename_i uses
    obtain ⟨name, given⟩ := Option.isSome_iff_exists.mp (resolved.joined uses)
    cases relation
    simp_all [joinTableOf]
  · rfl

/-- A field that is resolved stays as it is. -/
theorem fillField_eq_self {field : Field} (resolved : field.Resolved context.system) :
    fillField context old source field = field := by
  -- A plain field has nothing to be filled in.
  unfold fillField
  cases held : field.kind with
  | relation relation =>
    simp only
    rw [fillRelation_eq_self (resolved relation (Field.relation?_eq_some.mpr held)), ← held]
  | _ => rfl

/-- A field is filled in alike when its relation is. -/
theorem fillField_congr {later : Context} {older : Option Model} {other : Model} {field : Field}
    (same : ∀ relation, field.relation? = some relation →
      fillRelation later older other field.name relation =
        fillRelation context old source field.name relation) :
    fillField later older other field = fillField context old source field := by
  -- Nothing but a relation is filled in.
  unfold fillField
  cases kind : field.kind with
  | relation relation =>
    simp only
    rw [same relation (Field.relation?_eq_some.mpr kind)]
  | _ => rfl

/-- The snapshot with its relations filled in. -/
def filled (context : Context) (old : Option Model) (model : Model) : Model :=
  { snapshot old model with
    fields := (snapshot old model).fields.map
      (fillField context old (snapshot old model)) }

/-- A definition is filled in alike when the relations of its snapshot are. -/
theorem filled_congr {later : Context} {model : Model}
    (same : ∀ field ∈ (snapshot old model).fields, ∀ relation,
      field.relation? = some relation →
        fillRelation later old (snapshot old model) field.name relation =
          fillRelation context old (snapshot old model) field.name relation) :
    filled later old model = filled context old model := by
  -- The fields of the snapshot are filled in one by one.
  have fields : (snapshot old model).fields.map (fillField later old (snapshot old model)) =
      (snapshot old model).fields.map (fillField context old (snapshot old model)) :=
    List.map_congr_left fun field present => fillField_congr (same field present)
  rw [filled, filled, fields]

/-- Filling in keeps the name of the definition. -/
@[simp] theorem name_filled (context : Context) (old : Option Model) (model : Model) :
    (filled context old model).name = model.name := name_snapshot old model

/-- Filling in keeps names apart. -/
theorem nodup_names_filled {model : Model} (distinct : (model.fields.map Field.name).Nodup) :
    ((filled context old model).fields.map Field.name).Nodup := by
  -- The names are those of the snapshot, which has some fields of the definition.
  have names : (filled context old model).fields.map Field.name =
      (snapshot old model).fields.map Field.name := by
    simp [filled, Function.comp_def]
  rw [names]
  exact distinct.sublist ((fields_snapshot old model).map Field.name)

/-- A definition that was filled in is resolved. -/
theorem resolved_filled (model : Model) : (filled context old model).Resolved context.system := by
  -- Each field was filled in, and with it the relation it has, if it has one.
  intro field present relation related
  obtain ⟨before, -, rfl⟩ := List.mem_map.mp present
  rw [relation?_fillField] at related
  obtain ⟨given, -, rfl⟩ := Option.map_eq_some_iff.mp related
  exact resolved_fillRelation _ _

end Resolution

end ModelCatalog
