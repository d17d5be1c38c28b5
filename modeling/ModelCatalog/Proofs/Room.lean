import ModelCatalog.Proofs.KeyColumn
import ModelCatalog.Proofs.RepairedFields

/-! Room: where the names that relations can come to bear leave the names and columns of all other
fields alone, a repair leaves valid definitions valid. -/

namespace ModelCatalog

open Resolution WritePlan RepairPlan

variable {system : SystemModels} {scanned : Models}

/-! ## Columns -/

namespace Field

/-- The column that is certain for a field, whatever name and kind a relation comes to have: that of
a plain field, or the foreign key that a relation names. -/
def fixedColumn? (field : Field) : Option String :=
  match field.relation? with
  | some relation => relation.foreignKey
  | none => some field.name

/-- The column of a field is the one that is certain for it, or is called after the field. -/
theorem fixedColumn?_or_of_columnName? {field : Field} {column : String}
    (has : field.columnName? = some column) :
    field.fixedColumn? = some column ∨
      (∃ relation, field.relation? = some relation) ∧ field.name ++ "_id" = column := by
  cases kind : field.kind with
  | relation relation =>
    have related : field.relation? = some relation := relation?_eq_some.mpr kind
    simp only [columnName?, kind, Option.ite_none_right_eq_some, Option.some.injEq] at has
    cases named : relation.foreignKey with
    -- Without a foreign key the column is called after the field.
    | none => exact Or.inr ⟨⟨relation, related⟩, by
        simpa [Relation.columnName, named] using has.2⟩
    -- A foreign key is certain.
    | some key => exact Or.inl (by
        simpa [fixedColumn?, related, Relation.columnName, named] using has.2)
  | _ =>
    -- A field that is no relation has its own column.
    have unrelated : field.relation? = none := by simp [relation?, kind]
    exact Or.inl (by simpa [fixedColumn?, unrelated, columnName?, kind] using has)

/-- Filling in leaves the column that is certain. -/
@[simp] theorem fixedColumn?_fillField (context : Context) (old : Option Model) (snapshot : Model)
    (field : Field) :
    (fillField context old snapshot field).fixedColumn? = field.fixedColumn? := by
  unfold fixedColumn?
  -- Of a relation, filling in changes the inverse name and the join table only.
  rw [relation?_fillField]
  cases field.relation? <;> simp [fillRelation_eq]

/-- A counterpart brought up to date has no foreign key but that of the relation that was there. -/
theorem foreignKey_mergeInto {desired existing : Field} {new merged : Relation}
    (wanted : desired.relation? = some new) (unnamed : new.foreignKey = none)
    (related : (desired.mergeInto existing).relation? = some merged) {key : String}
    (named : merged.foreignKey = some key) :
    ∃ old, existing.relation? = some old ∧ old.foreignKey = some key := by
  rw [relation?_eq_some] at wanted related
  -- Two relations are merged field by field, and anything else is replaced as a whole.
  cases held : existing.kind with
  | relation old =>
    simp only [mergeInto, wanted, held, FieldKind.relation.injEq] at related
    subst related
    refine ⟨old, relation?_eq_some.mpr held, ?_⟩
    -- It is taken over where there is a column, and there is none otherwise.
    dsimp only at named
    split at named
    · exact named
    · rw [unnamed] at named
      cases named
  | _ =>
    simp only [mergeInto, wanted, held, FieldKind.relation.injEq] at related
    rw [← related, unnamed] at named
    cases named

end Field

namespace Model

/-- The columns that are certain for the fields of a model. -/
def fixedColumns (model : Model) : List String := model.fields.filterMap Field.fixedColumn?

/-- Putting a counterpart in place that names no foreign key makes no other columns certain. -/
theorem fixedColumns_upsertCounterpart (target : Model) (source fieldName : String)
    {desired : Field} {relation : Relation} (wanted : desired.relation? = some relation)
    (unnamed : relation.foreignKey = none) :
    (target.upsertCounterpart source fieldName desired).target.fixedColumns.Sublist
      target.fixedColumns := by
  unfold fixedColumns
  rcases upsertCounterpart_cases target source fieldName desired with
    ⟨front, existing, back, before, pairs, merged, after⟩ | ⟨-, same, after⟩
  · -- An existing counterpart is replaced where it stands, and later ones of its kind go.
    rw [after, before, List.filterMap_append, List.filterMap_append, List.filterMap_cons,
      List.filterMap_cons]
    refine (List.filter_sublist.filterMap _).append ?_
    have behind := (@List.filter_sublist _
      (fun field => !field.pairsWith source fieldName desired.name) back).filterMap
        Field.fixedColumn?
    obtain ⟨old, related, -⟩ := Field.targets_iff.mp (Field.pairsWith_iff.mp pairs).1
    obtain ⟨foreignKey, onDelete, isRelation⟩ := Field.relation?_mergeInto wanted existing
    rw [merged]
    -- What is certain for the counterpart was so for the field that it takes the place of.
    cases certain : (desired.mergeInto existing).fixedColumn? with
    | none =>
      dsimp only
      split
      · exact behind
      · exact behind.cons _
    | some column =>
      simp only [Field.fixedColumn?, isRelation] at certain
      obtain ⟨again, relatedAgain, named⟩ :=
        Field.foreignKey_mergeInto wanted unnamed isRelation certain
      have before : existing.fixedColumn? = some column := by
        simp [Field.fixedColumn?, relatedAgain, named]
      rw [before]
      exact behind.cons_cons _
  · -- A counterpart that is new has no column that is certain.
    have nothing : desired.fixedColumn? = none := by simp [Field.fixedColumn?, wanted, unnamed]
    rw [after, List.filterMap_append, List.filterMap_cons_none nothing]
    simp

/-- Columns are different where names are and the columns that are certain are, and none of these
is called after a relation. -/
theorem nodup_columns {model : Model} (names : (model.fields.map Field.name).Nodup)
    (fixed : model.fixedColumns.Nodup)
    (free : ∀ field ∈ model.fields, ∀ relation, field.relation? = some relation →
      field.name ++ "_id" ∉ model.fixedColumns) :
    (model.fields.filterMap Field.columnName?).Nodup := by
  -- Two fields of one column differ in name, and in the column that is certain if either has one.
  have apart := (List.pairwise_map.mp names).and (List.pairwise_filterMap.mp fixed)
  refine List.Pairwise.filterMap _ ?_ (List.Pairwise.and_mem.mp apart)
  rintro one other ⟨onePresent, otherPresent, differ, fixedApart⟩ column has again hasAgain rfl
  have certain : ∀ field ∈ model.fields, field.fixedColumn? = some column →
      column ∈ model.fixedColumns :=
    fun field present isFixed => List.mem_filterMap.mpr ⟨field, present, isFixed⟩
  rcases Field.fixedColumn?_or_of_columnName? has with isFixed | ⟨⟨relation, related⟩, called⟩ <;>
    rcases Field.fixedColumn?_or_of_columnName? hasAgain with
      isFixedToo | ⟨⟨back, backRelated⟩, calledToo⟩
  · exact fixedApart column isFixed column isFixedToo rfl
  · exact free other otherPresent back backRelated (calledToo ▸ certain one onePresent isFixed)
  · exact free one onePresent relation related (called ▸ certain other otherPresent isFixedToo)
  · -- Both columns are called after their fields, which have different names.
    exact differ (String.append_left_inj _ |>.mp (called.trans calledToo.symm))

end Model

/-! ## Names -/

/-- A name is fit for relations: it is an identifier, also when a column is called after it, and it
is not that of the key. -/
@[mk_iff]
structure FitsRelation (name : String) : Prop where
  identifier : isIdentifier name = true
  column : isIdentifier (name ++ "_id") = true
  apart : name ≠ idName

/-- A model among others has room for the names that relations of it can come to bear. -/
@[mk_iff]
structure Model.HasRoom (models : Models) (model : Model) : Prop where
  /-- The names that its relations bear and those that they claim are fit for relations. -/
  fit : ∀ field ∈ model.fields, field.isPlain = false →
    FitsRelation field.name ∧ FitsRelation (field.counterpartName model.name)
  /-- Foreign keys are identifiers, and none is the key. -/
  keys : ∀ field ∈ model.fields, ∀ relation ∈ field.relation?, ∀ key ∈ relation.foreignKey,
    isIdentifier key = true ∧ key ≠ idName
  /-- Join tables are written out. -/
  tables : ∀ field ∈ model.fields, ∀ relation ∈ field.relation?,
    relation.kind.usesJoinTable = true → relation.joinTable.isSome = true
  /-- The columns that are certain are different. -/
  fixed : model.fixedColumns.Nodup
  /-- None of them is called after a relation of the model. -/
  borne : ∀ field ∈ model.fields, field.isPlain = false → field.name ++ "_id" ∉ model.fixedColumns
  /-- None of them is called after a name that a relation claims on the model. -/
  claimed : ∀ source ∈ models.members, ∀ field ∈ source.fields, field.targets model.name = true →
    field.counterpartName source.name ++ "_id" ∉ model.fixedColumns
  /-- Self-relations neither bear nor claim the name of the model, and they claim no name of a field
  that leads elsewhere. -/
  selves : ∀ field ∈ model.fields, field.targets model.name = true →
    field.name ≠ model.name ∧ field.counterpartName model.name ≠ model.name ∧
      model.bars model.name (field.counterpartName model.name) = false

/-- All models have room. -/
def Models.Roomy (models : Models) : Prop := ∀ model ∈ models.members, model.HasRoom models

instance (name : String) : Decidable (FitsRelation name) :=
  decidable_of_iff' _ (fitsRelation_iff name)

instance (models : Models) (model : Model) : Decidable (model.HasRoom models) :=
  decidable_of_iff' _ (model.hasRoom_iff models)

instance (models : Models) : Decidable models.Roomy :=
  inferInstanceAs (Decidable (∀ model ∈ models.members, model.HasRoom models))

/-- A name that a relation can come to bear is fit for it, no certain column of its model is called
after it, and on the way from a model to itself it is not that of the model. -/
theorem Models.Roomy.of_foresees (roomy : scanned.Roomy) {home other name : String}
    (foreseen : scanned.Foresees home other name) :
    FitsRelation name ∧
      (∀ model, scanned.find? home = some model → name ++ "_id" ∉ model.fixedColumns) ∧
      (home = other → name ≠ home) := by
  -- The name is borne by a relation of the model, or claimed on it by another.
  rcases foreseen with ⟨model, found, field, present, targets, rfl⟩ |
    ⟨model, found, field, present, targets, rfl⟩
  · have named : model.name = home := Roster.name_of_find? found
    have listed := Roster.mem_of_find? found
    have related := Field.isPlain_of_targets targets
    refine ⟨((roomy model listed).fit field present related).1, fun again foundAgain => ?_, ?_⟩
    · rw [found, Option.some.injEq] at foundAgain
      subst foundAgain
      exact (roomy model listed).borne field present related
    · rintro rfl
      rw [← named] at targets ⊢
      exact ((roomy model listed).selves field present targets).1
  · have named : model.name = other := Roster.name_of_find? found
    have listed := Roster.mem_of_find? found
    subst named
    refine ⟨((roomy model listed).fit field present (Field.isPlain_of_targets targets)).2,
      fun target foundTarget => ?_, ?_⟩
    · have targetNamed : target.name = home := Roster.name_of_find? foundTarget
      exact (roomy target (Roster.mem_of_find? foundTarget)).claimed model listed field present
        (targetNamed.symm ▸ targets)
    · rintro rfl
      exact ((roomy model listed).selves field present targets).2.1

namespace Resolution

/-- The name that a relation is told by when it is filled in is the one it was told by before, the
one that its previous version was, or that of a field of the target that claims it. -/
theorem getD_inverseNameOf_cases (source fieldName : String) (target : Option Model)
    (previous : Option Relation) (relation : Relation) :
    let name := (inverseNameOf source fieldName target previous relation).getD
      (defaultCounterpartName source)
    name = relation.inverseName.getD (defaultCounterpartName source) ∨
      (∃ held, previous = some held ∧
        name = held.inverseName.getD (defaultCounterpartName source)) ∨
      ∃ other, target = some other ∧ claimant other source fieldName = some name := by
  intro name
  simp only [name, inverseNameOf]
  -- The declared name comes first, then that of the previous version, and then the one that claims.
  cases given : relation.inverseName with
  | some stated => simp
  | none =>
    cases inherited : previous.bind Relation.inverseName with
    | some stated =>
      obtain ⟨held, isPrevious, isStated⟩ := Option.bind_eq_some_iff.mp inherited
      exact Or.inr (Or.inl ⟨held, isPrevious, by simp [isStated]⟩)
    | none =>
      cases claimed : target.bind fun target => claimant target source fieldName with
      | some stated =>
        obtain ⟨other, isTarget, claims⟩ := Option.bind_eq_some_iff.mp claimed
        exact Or.inr (Or.inr ⟨other, isTarget, by simpa using claims⟩)
      | none => simp

/-- The name that a relation claims when it is filled in was claimed by a relation of the model to
the same target before, or a relation back bears it. -/
theorem counterpartName_fillField {models : Models} {model : Model}
    (found : models.find? model.name = some model) {field : Field} (present : field ∈ model.fields)
    {relation : Relation} (related : field.relation? = some relation) :
    (∃ other ∈ model.fields, other.targets relation.target = true ∧
      (fillField ⟨system, models⟩ (some model) model field).counterpartName model.name =
        other.counterpartName model.name) ∨
    ∃ target, models.find? relation.target = some target ∧ ∃ mate ∈ target.fields,
      mate.targets model.name = true ∧
        (fillField ⟨system, models⟩ (some model) model field).counterpartName model.name =
          mate.name := by
  have leads : field.targets relation.target = true :=
    Field.targets_iff.mpr ⟨relation, related, rfl⟩
  have filledRelation : (fillField ⟨system, models⟩ (some model) model field).relation? =
      some (fillRelation ⟨system, models⟩ (some model) model field.name relation) := by
    rw [relation?_fillField, related, Option.map_some]
  rw [Field.counterpartName_eq filledRelation, fillRelation_eq]
  dsimp only [filledName]
  split
  · -- A relation to a system model keeps the name that it has.
    exact Or.inl ⟨field, present, leads, (Field.counterpartName_eq related _).symm⟩
  rcases getD_inverseNameOf_cases model.name field.name
      (targetOf ⟨system, models⟩ model relation.target)
      (previousRelation (some model) field.name relation.target) relation with
    same | ⟨held, previous, same⟩ | ⟨target, isTarget, claims⟩
  · -- The name is kept: it is the declared one, or that of the previous version.
    exact Or.inl ⟨field, present, leads, same.trans (Field.counterpartName_eq related _).symm⟩
  · obtain ⟨other, isOther, -, otherRelated, otherLeads⟩ := exists_of_previousRelation previous
    exact Or.inl ⟨other, isOther, Field.targets_iff.mpr ⟨held, otherRelated, otherLeads⟩,
      same.trans (Field.counterpartName_eq otherRelated _).symm⟩
  · -- The target is known, also when it is the model itself.
    have known : models.find? relation.target = some target := by
      unfold targetOf at isTarget
      split at isTarget
      · rename_i own
        rw [own, found, ← isTarget]
      · exact isTarget
    obtain ⟨mate, isMate, named⟩ := Option.map_eq_some_iff.mp claims
    have inverts := List.find?_some isMate
    rw [Bool.and_eq_true] at inverts
    exact Or.inr ⟨target, known, mate, List.mem_of_find?_eq_some isMate,
      Field.targets_of_invertsTo inverts.2, named.symm⟩

end Resolution

/-! ## Fields that have room -/

/-- What room for all names comes to for a relation, wherever a repair has put it: its names were
foreseen, its foreign key is an identifier, and so are its join table and the columns of that. -/
structure Field.Housed (scanned : Models) (home : String) (field : Field) (relation : Relation) :
    Prop where
  borne : scanned.Foresees home relation.target field.name
  claims : scanned.Foresees relation.target home (field.counterpartName home)
  key : ∀ key, relation.foreignKey = some key → isIdentifier key = true ∧ key ≠ idName
  joined : relation.kind.usesJoinTable = true → ∃ table, relation.joinTable = some table ∧
    isIdentifier table = true ∧ isIdentifier (home ++ "_id") = true ∧
      isIdentifier (relation.target ++ "_id") = true

/-- The relations of stored definitions are housed where there is room. -/
theorem Models.Roomy.housed (roomy : scanned.Roomy) (valid : scanned.Valid system) {model : Model}
    (listed : model ∈ scanned.members) {field : Field} (present : field ∈ model.fields)
    {relation : Relation} (related : field.relation? = some relation) :
    field.Housed scanned model.name relation := by
  have found : scanned.find? model.name = some model := Roster.mem_iff_find?.mp listed
  have leads : field.targets relation.target = true :=
    Field.targets_iff.mpr ⟨relation, related, rfl⟩
  refine ⟨Or.inl ⟨model, found, field, present, leads, rfl⟩,
    -- A stored relation is foreseen by itself, under either of its names.
    Or.inr ⟨model, found, field, present, leads, rfl⟩,
    (roomy model listed).keys field present relation related, fun uses => ?_⟩
  have formed := (Model.validate_eq_ok.mp (valid model listed)).1
  obtain ⟨isTable, isLeft, isRight⟩ :=
    ((formed.fields field present).relation relation related).joinTable uses
  obtain ⟨table, named⟩ :=
    Option.isSome_iff_exists.mp ((roomy model listed).tables field present relation related uses)
  refine ⟨table, named, by simpa [Relation.joinTableName, named] using isTable, isLeft, ?_⟩
  -- On the way from a model to itself the left column is that of the target as well.
  by_cases own : relation.target = model.name
  · exact own ▸ isLeft
  · simpa [Relation.joinColumnNames, own] using isRight

/-- A counterpart is housed on the target of a relation that is. -/
theorem Field.Housed.counterpart {source : String} {field existing : Field}
    {relation merged : Relation} (housed : field.Housed scanned source relation)
    (keys : ∀ old, existing.relation? = some old → ∀ key, old.foreignKey = some key →
      isIdentifier key = true ∧ key ≠ idName)
    (isMerged : ((ofRelation (field.counterpartName source)
      (relation.facing source field.name)).mergeInto existing).relation? = some merged) :
    ((ofRelation (field.counterpartName source)
      (relation.facing source field.name)).mergeInto existing).Housed scanned relation.target
        merged := by
  obtain ⟨foreignKey, onDelete, same⟩ := relation?_mergeInto
    (relation?_ofRelation (field.counterpartName source) (relation.facing source field.name))
    existing
  have merged_eq := Option.some.inj (isMerged.symm.trans same)
  have target_eq : merged.target = source := by rw [merged_eq]; rfl
  have inverse_eq : merged.inverseName = some field.name := by rw [merged_eq]; rfl
  refine ⟨?_, ?_, fun key named => ?_, fun uses => ?_⟩
  · -- The counterpart bears what was claimed and claims what was borne.
    rw [target_eq]
    exact housed.claims
  · rw [target_eq, counterpartName_of_inverse isMerged inverse_eq]
    exact housed.borne
  · obtain ⟨old, isOld, oldNamed⟩ :=
      foreignKey_mergeInto (relation?_ofRelation _ _) rfl isMerged named
    exact keys old isOld key oldNamed
  · -- Both sides use one join table, with the columns in the other order.
    have usesToo : relation.kind.usesJoinTable = true := by
      rw [merged_eq] at uses
      simpa [Relation.facing] using uses
    obtain ⟨table, named, isTable, isLeft, isRight⟩ := housed.joined usesToo
    refine ⟨table, ?_, isTable, isRight, target_eq ▸ isLeft⟩
    rw [merged_eq]
    simpa [Relation.facing, usesToo] using named

/-- Where there is room, a repair leaves all relations housed. -/
theorem Models.Roomy.handsOn_housed (roomy : scanned.Roomy) (valid : scanned.Valid system) :
    scanned.HandsOn system fun home field => ∀ relation, field.relation? = some relation →
      field.Housed scanned home relation where
  stored := by
    intro name model found field present relation related
    have named : model.name = name := Roster.name_of_find? found
    exact named ▸ roomy.housed valid (Roster.mem_of_find? found) present related
  -- Filling in keeps the name of the field and its foreign key, and claims a name that a housed
  -- relation claims or bears.
  fills := by
    intro models model each _ found field present relation related
    have claims := @counterpartName_fillField system models model found field present
    rw [relation?_fillField] at related
    obtain ⟨given, held, rfl⟩ := Option.map_eq_some_iff.mp related
    have housed := each _ model found field present given held
    refine ⟨?_, ?_, ?_, ?_⟩
    · rw [target_fillRelation, name_fillField]
      exact housed.borne
    · rw [target_fillRelation]
      rcases claims held with ⟨other, isOther, leads, same⟩ |
        ⟨target, known, mate, isMate, back, same⟩
      · obtain ⟨again, otherRelated, otherLeads⟩ := Field.targets_iff.mp leads
        rw [same, ← otherLeads]
        exact (each _ model found other isOther again otherRelated).claims
      · obtain ⟨again, mateRelated, mateLeads⟩ := Field.targets_iff.mp back
        rw [same, ← mateLeads]
        exact (each _ target known mate isMate again mateRelated).borne
    · rw [fillRelation_eq]
      exact housed.key
    · -- A join table that was written out stays.
      rw [kind_fillRelation, target_fillRelation]
      intro uses
      obtain ⟨table, named, identifiers⟩ := housed.joined uses
      refine ⟨table, ?_, identifiers⟩
      rw [fillRelation_eq]
      simp [filledTable, uses, joinTableOf, named]
  -- The counterpart of a housed relation is housed, and of the field that it takes the place of it
  -- has the foreign key.
  places := by
    intro source field existing relation _ held related known merged isMerged
    refine (held relation related).counterpart (fun old isOld key named => ?_) isMerged
    rcases known with rfl | ⟨heldToo, -⟩
    · rw [Field.relation?_ofRelation, Option.some.injEq] at isOld
      subst isOld
      cases named
    · exact (heldToo old isOld).key key named

/-! ## Models that have room -/

/-- A model on its way through a repair: names are apart, and no columns are certain that were not
so when it was stored. -/
def Models.Settling (scanned models : Models) : Prop :=
  ∀ name model, models.find? name = some model →
    (model.fields.map Field.name).Nodup ∧
      ∃ before, scanned.find? name = some before ∧
        model.fixedColumns.Sublist before.fixedColumns

/-- A model may be filed for one of its name when names stay apart and no columns become certain. -/
theorem Models.Settling.insert {models : Models} (settling : scanned.Settling models)
    {model next : Model} (found : models.find? next.name = some model)
    (distinct : (next.fields.map Field.name).Nodup)
    (fewer : next.fixedColumns.Sublist model.fixedColumns) :
    scanned.Settling (models.insert next) := by
  intro name other isFound
  -- The model filed last settles; the others have settled before.
  rcases Roster.of_find?_insert isFound with ⟨rfl, rfl⟩ | isFound
  · obtain ⟨-, before, stored, earlier⟩ := settling _ model found
    exact ⟨distinct, before, stored, fewer.trans earlier⟩
  · exact settling name other isFound

/-- Where there is room, to resolve a stored definition leaves names apart. -/
theorem Models.Roomy.nodup_names_of_resolve (roomy : scanned.Roomy) (valid : scanned.Valid system)
    {models : Models} {model resolved : Model} (listed : model ∈ scanned.members)
    (found : models.find? model.name = some model)
    (done : Context.resolve ⟨system, models⟩ (some model) model = .ok resolved) :
    (resolved.fields.map Field.name).Nodup := by
  have distinct := valid.distinct listed
  have pairing := Context.pairing_of_resolve distinct done
  have filledDistinct := @nodup_names_filled ⟨system, models⟩ (some model) model distinct
  rw [filled_self distinct] at pairing filledDistinct
  refine pairing.nodup_names filledDistinct fun self isSelf targets field isField elsewhere same =>
    ?_
  obtain ⟨other, isOther, rfl⟩ := List.mem_map.mp isField
  rw [targets_fillField] at elsewhere
  rw [name_fillField] at same
  -- A self-relation of the definition has another name than what leads elsewhere.
  have apart : ∀ own ∈ model.fields, own.targets model.name = true → own.name ≠ other.name := by
    intro own isOwn back alike
    rw [Model.eq_of_name_eq distinct isOwn isOther alike, elsewhere] at back
    cases back
  -- It was declared, or it was put in place for a relation that claims the name.
  rcases pairing.declared self isSelf targets with declared | ⟨before, isBefore, back, -, claims⟩
  · obtain ⟨own, isOwn, back, alike⟩ := Model.mem_selfNames.mp declared
    obtain ⟨earlier, isEarlier, rfl⟩ := List.mem_map.mp isOwn
    rw [targets_fillField] at back
    rw [name_fillField] at alike
    exact apart earlier isEarlier back (alike.trans same.symm)
  · obtain ⟨earlier, isEarlier, rfl⟩ := List.mem_map.mp isBefore
    rw [targets_fillField] at back
    obtain ⟨relation, related, leads⟩ := Field.targets_iff.mp back
    -- The name was claimed in the definition already, or by a self-relation that bears it.
    rcases @counterpartName_fillField system models model found earlier isEarlier relation related
      with ⟨claimer, isClaimer, toItself, claimed⟩ | ⟨target, known, mate, isMate, toModel, claimed⟩
    · have free := ((roomy model listed).selves claimer isClaimer (leads ▸ toItself)).2.2
      have barred : model.bars model.name (claimer.counterpartName model.name) = true :=
        (Model.bars_iff distinct).mpr
          ⟨other, isOther, same.trans (claims.symm.trans claimed), elsewhere⟩
      rw [free] at barred
      cases barred
    · rw [show relation.target = model.name from leads, found, Option.some.injEq] at known
      subst known
      exact apart mate isMate toModel (claimed.symm.trans (claims.trans same.symm))

/-- Where there is room, a repair leaves names apart and makes no columns certain. -/
theorem Models.Roomy.settling_repair (roomy : scanned.Roomy) (valid : scanned.Valid system)
    (report : RepairReport) : scanned.Settling (repair system scanned report).models := by
  refine valid.repair_induction scanned.Settling (fun name model found => ?_)
    (fun models model resolved settling listed found done => ?_)
    (fun models name fieldName field relation target settling awaits => ?_) report
  · exact ⟨valid.distinct (Roster.mem_of_find? found), model, found, List.Sublist.refl _⟩
  · -- Resolution leaves the names apart, and the counterparts that it puts in place name no foreign
    -- key.
    refine settling.insert ((Context.of_resolve done).1 ▸ found)
      (roomy.nodup_names_of_resolve valid listed found done) ?_
    refine Context.resolve_induction (fun reached => reached.fixedColumns.Sublist
      model.fixedColumns) (valid.distinct listed) done ?_
      fun reached field relation fewer _ _ _ _ =>
        (reached.fixedColumns_upsertCounterpart _ _ (Field.relation?_ofRelation _ _) rfl).trans
          fewer
    simp [Model.fixedColumns, List.filterMap_map]
  · have named : target.name = relation.target := Roster.name_of_find? awaits.found
    have distinct := (settling _ target awaits.found).1
    refine @Models.Settling.insert _ _ settling target _ ?_ ?_
      (target.fixedColumns_upsertCounterpart _ _ (Field.relation?_ofRelation _ _) rfl)
    · rw [Model.name_upsertCounterpart, named]
      exact awaits.found
    · -- What bears the name of the counterpart leads back, since the name is not barred.
      have claims : ∀ one ∈ target.fields, one.name = field.counterpartName name →
          one.pairsWith name field.name (field.counterpartName name) = true := by
        intro one present same
        refine Field.pairsWith_iff.mpr ⟨?_, Or.inl same⟩
        by_contra elsewhere
        have barred := (Model.bars_iff distinct).mpr
          ⟨one, present, same, by simpa using elsewhere⟩
        rw [awaits.free] at barred
        cases barred
      have kept := @Model.nodup_names_upsertCounterpart target name field.name
        (insertionOf name field relation).counterpart (fun _ => true)
        (fun one present _ same => claims one present same) (by simpa using distinct)
      simpa using kept

/-- A housed relation gives rise to identifiers where there is room. -/
theorem Models.Roomy.wellNamed (roomy : scanned.Roomy) {home : String} {field : Field}
    {relation : Relation} (related : field.relation? = some relation)
    (housed : field.Housed scanned home relation) : relation.WellNamed home field.name := by
  obtain ⟨fit, -, apart⟩ := roomy.of_foresees housed.borne
  -- The second column of a join table is called after the field on the way to the model itself.
  have columns : relation.joinColumnNames home field.name = (home ++ "_id",
      if relation.target = home then field.name ++ "_id" else relation.target ++ "_id") := rfl
  -- The name was foreseen, and so was the one claimed on the target.
  refine ⟨fit.identifier, fun name inverse => ?_, fun _ => ?_, fun uses => ?_, fun uses => ?_⟩
  · have claims := (roomy.of_foresees housed.claims).1
    rw [Field.counterpartName_of_inverse related inverse] at claims
    exact claims.identifier
  · unfold Relation.columnName
    cases named : relation.foreignKey with
    | none => exact fit.column
    | some key => exact (housed.key key named).1
  · obtain ⟨table, named, isTable, isLeft, isRight⟩ := housed.joined uses
    rw [columns]
    refine ⟨by simpa [Relation.joinTableName, named] using isTable, isLeft, ?_⟩
    dsimp only
    split
    · exact fit.column
    · exact isRight
  · -- The columns have one name only when the field bears the name of the model.
    rw [columns]
    dsimp only
    intro same
    split at same
    · rename_i own
      exact apart own.symm (String.append_left_inj _ |>.mp same).symm
    · rename_i elsewhere
      exact elsewhere (String.append_left_inj _ |>.mp same).symm

/-- Where there is room, a repair leaves every definition orderly. -/
theorem Models.Roomy.orderly_repair (roomy : scanned.Roomy) (valid : scanned.Valid system)
    {report : RepairReport} {model : Model}
    (listed : model ∈ (repair system scanned report).models.members) : model.Orderly := by
  have found : (repair system scanned report).models.find? model.name = some model :=
    Roster.mem_iff_find?.mp listed
  have housed := (roomy.handsOn_housed valid).eachField_repair valid report _ model found
  obtain ⟨distinct, before, stored, fewer⟩ := roomy.settling_repair valid report _ model found
  have inScanned := Roster.mem_of_find? stored
  have plain := keepsPlain_repair system scanned report model.name
  rw [found, stored, Option.map_some, Option.map_some, Option.some.injEq] at plain
  -- What is stored as a plain field is left so, and nothing else is.
  have same : ∀ field : Field, field.relation? = none →
      (field ∈ model.fields ↔ field ∈ before.fields) := by
    intro field unrelated
    have kept := congrArg (field ∈ ·) plain
    simpa [Model.plain, List.mem_filter, Field.isPlain, unrelated] using kept
  refine ⟨distinct, ?_, fun field present relation related =>
    roomy.wellNamed related (housed field present relation related), ?_⟩
  · -- The columns are different, those of plain fields and foreign keys being as they were stored.
    refine Model.nodup_columns distinct ((roomy before inScanned).fixed.sublist fewer)
      fun field present relation related taken => ?_
    exact (roomy.of_foresees (housed field present relation related).borne).2.1 before stored
      (fewer.subset taken)
  · -- The key keeps its place, as no relation takes its name or its column.
    refine (Model.validate_eq_ok.mp (valid before inScanned)).2.of_unrelated same
      (fun field present relation related => ?_) fun field present relation related has => ?_
    · have isRelation : field.isPlain = false := by simp [Field.isPlain, related]
      exact ((roomy before inScanned).fit field present isRelation).1.apart
    · -- The column is that of a foreign key, or it is called after the field.
      rcases Field.fixedColumn?_or_of_columnName? has with certain | ⟨-, called⟩
      · simp only [Field.fixedColumn?, related] at certain
        exact ((housed field present relation related).key idName certain).2 rfl
      · exact defaultColumnName_ne_idName field.name called

end ModelCatalog
