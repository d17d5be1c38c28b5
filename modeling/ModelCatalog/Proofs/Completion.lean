import ModelCatalog.Proofs.PlannedStatements
import ModelCatalog.Proofs.Reresolution
import ModelCatalog.Proofs.Schema

/-! Completion: resolution keeps every declared field that leads out of its model, adds to a
relation what is missing, and has it from the previous version where that had it. -/

namespace ModelCatalog

/-- The fields of a model that do not target the model itself. -/
def Model.others (model : Model) : List Field :=
  model.fields.filter fun field => !field.targets model.name

namespace Relation

/-- A declared relation and what it is completed to: an inverse name is added where it is missing
and the target is no system model, and a join table where it is missing and one is used. -/
structure CompletedTo (system : SystemModels) (declared completed : Relation) : Prop where
  same : completed = { declared with
    inverseName := completed.inverseName, joinTable := completed.joinTable }
  keepsName : declared.inverseName.isSome = true ∨ system.contains declared.target = true →
    completed.inverseName = declared.inverseName
  keepsTable : declared.joinTable.isSome = true ∨ declared.kind.usesJoinTable = false →
    completed.joinTable = declared.joinTable
  /-- Nothing is missing any more. -/
  resolved : completed.Resolved system

/-- What a relation was completed with is that of its previous version, where that had it. -/
structure InheritedFrom (system : SystemModels) (previous declared completed : Relation) :
    Prop where
  name : declared.inverseName = none → system.contains declared.target = false →
    previous.inverseName.isSome = true → completed.inverseName = previous.inverseName
  table : declared.joinTable = none → declared.kind.usesJoinTable = true →
    previous.kind.usesJoinTable = true → previous.joinTable.isSome = true →
    completed.joinTable = previous.joinTable

end Relation

/-- A relation of a previous version with different field names, of this field and target. -/
def Former (old : Option Model) (fieldName target : String) (previous : Relation) : Prop :=
  ∃ before ∈ old, (before.fields.map Field.name).Nodup ∧ ∃ field ∈ before.fields,
    field.name = fieldName ∧ field.relation? = some previous ∧ previous.target = target

/-- A declared field and what it is completed to, given the previous version of its model. -/
inductive Field.CompletedTo (system : SystemModels) (old : Option Model) :
    Field → Field → Prop where
  | unrelated {field : Field} (plain : field.relation? = none) : CompletedTo system old field field
  | related {field : Field} {declared completed : Relation}
    (held : field.relation? = some declared) (completes : declared.CompletedTo system completed)
    (inherits : ∀ previous, Former old field.name declared.target previous →
      previous.InheritedFrom system declared completed) :
    CompletedTo system old field { field with kind := .relation completed }

namespace Resolution

variable {context : Context} {old : Option Model} {source model paired : Model}
  {fieldName : String} {relation previous : Relation}

/-! ## One relation -/

/-- The previous version of a relation is found where field names are different. -/
theorem previousRelation_of_former {target : String}
    (former : Former old fieldName target previous) :
    previousRelation old fieldName target = some previous := by
  -- The field is found under its name, since no other one has that name.
  obtain ⟨before, rfl, distinct, field, present, rfl, related, rfl⟩ := former
  simp [previousRelation, Model.field?_of_mem distinct present, related]

/-- A relation is completed when it is filled in. -/
theorem completedTo_fillRelation :
    relation.CompletedTo context.system (fillRelation context old source fieldName relation) := by
  refine {
    same := by rw [fillRelation_eq]
    keepsName := fun kept => ?_
    keepsTable := fun kept => ?_
    resolved := resolved_fillRelation fieldName relation }
  · rw [fillRelation_eq]
    show filledName context old source fieldName relation = _
    -- A name that is given comes first, and for a system model nothing is looked for.
    unfold filledName
    split
    · rfl
    · rename_i inCatalog
      obtain ⟨name, given⟩ := Option.isSome_iff_exists.mp (kept.resolve_right inCatalog)
      simp [inverseNameOf, given]
  · rw [fillRelation_eq]
    show filledTable context old source fieldName relation = _
    -- So it is with the join table: it is given, or none is used.
    unfold filledTable
    split
    · rename_i uses
      obtain ⟨table, given⟩ := Option.isSome_iff_exists.mp
        (kept.resolve_right (by simp [uses]))
      simp [joinTableOf, given]
    · rfl

/-- What was missing of a relation comes from its previous version first. -/
theorem inheritedFrom_fillRelation
    (found : previousRelation old fieldName relation.target = some previous) :
    previous.InheritedFrom context.system relation
      (fillRelation context old source fieldName relation) := by
  -- The name and the table are filled in apart, and each looks at the previous version first.
  rw [fillRelation_eq]
  refine ⟨fun missing inCatalog had => ?_, fun missing uses used had => ?_⟩
  · show filledName context old source fieldName relation = _
    obtain ⟨name, was⟩ := Option.isSome_iff_exists.mp had
    simp [filledName, inCatalog, inverseNameOf, missing, found, was]
  · show filledTable context old source fieldName relation = _
    obtain ⟨table, was⟩ := Option.isSome_iff_exists.mp had
    simp [filledTable, uses, joinTableOf, missing, found, used, was]

/-- A field is completed when it is filled in. -/
theorem completedTo_fillField (field : Field) :
    field.CompletedTo context.system old (fillField context old source field) := by
  -- A field is filled in where it relates to something.
  cases related : field.relation? with
  | none =>
    have kept : fillField context old source field = field :=
      fillField_eq_self fun relation held => by rw [related] at held; cases held
    rw [kept]
    exact .unrelated related
  | some relation =>
    have filled : fillField context old source field =
        { field with kind := .relation (fillRelation context old source field.name relation) } := by
      simp only [fillField, Field.relation?_eq_some.mp related]
    rw [filled]
    exact .related related completedTo_fillRelation fun previous former =>
      inheritedFrom_fillRelation (previousRelation_of_former former)

/-! ## All relations -/

/-- The snapshot has all fields that do not target the model, in order. -/
theorem others_snapshot (old : Option Model) (model : Model) :
    (snapshot old model).others = model.others := by
  -- Fields are dropped from the snapshot only with their self-relation.
  rw [Model.others, name_snapshot]
  cases old with
  | none => rfl
  | some before => exact filter_foldl_dropOne _ _ _

/-- Each field that does not target the model is filled in on its own. -/
theorem others_filled (context : Context) (old : Option Model) (model : Model) :
    (filled context old model).others =
      model.others.map (fillField context old (snapshot old model)) := by
  rw [← others_snapshot old model, Model.others, Model.others, name_filled, name_snapshot]
  -- Filling in keeps the targets by which the fields are chosen.
  simp only [filled, List.filter_map, Function.comp_def, targets_fillField]

/-- Pairing keeps the name of the model and the fields that do not target it. -/
theorem others_of_pairSelves {start : Model} (done : pairSelves start = .ok paired) :
    paired.name = start.name ∧ paired.others = start.others := by
  refine @of_pairSelves _ _
    (fun reached => reached.name = start.name ∧ reached.others = start.others)
    (fun reached field relation held present related => ?_) ⟨rfl, rfl⟩ done
  refine ⟨held.1, Eq.trans ?_ held.2⟩
  -- Only self-relations pair with a self-relation, and what is put in place is one.
  refine Model.filter_upsertCounterpart (fun other _ pairs => ?_) ?_
  · simp [(Field.pairsWith_iff.mp pairs).1]
  · have inverts : (Field.ofRelation (field.counterpartName reached.name)
        (relation.facing reached.name field.name)).invertsTo reached.name field.name = true :=
      Field.invertsTo_iff.mpr ⟨_, Field.relation?_ofRelation _ _, rfl, rfl⟩
    simp [Field.targets_of_invertsTo (Model.invertsTo_upsertCounterpart inverts)]

end Resolution

open Resolution

namespace Context

variable {context : Context} {old : Option Model} {declared resolved : Model}

/-- Resolution completes every field that does not target the model itself. -/
theorem completedTo_of_resolve (done : context.resolve old declared = .ok resolved) :
    resolved.name = declared.name ∧
      List.Forall₂ (Field.CompletedTo context.system old) declared.others resolved.others := by
  obtain ⟨named, same⟩ := others_of_pairSelves (resolve_eq_ok.mp done).1
  refine ⟨named.trans (name_filled context old declared), ?_⟩
  -- Pairing leaves these fields as they were filled in.
  rw [same, others_filled, List.forall₂_map_right_iff]
  exact List.forall₂_same.mpr fun field _ => completedTo_fillField field

end Context

namespace WritePlan

variable {context : Context} {old : Option Record} {declared : Model} {plan : WritePlan}

/-- A plan drops no table that a relation of its definition lives in. -/
theorem not_drops_of_joinTable (planned : context.planWrite old declared = .ok plan)
    {table : String} (used : table ∈ plan.definition.joinTableNames) {statement : Statement}
    (listed : statement ∈ plan.submitted) : ¬statement.Drops table := by
  rintro ⟨dropped, rfl, rfl⟩
  -- A drop is one of an obsolete table, which no relation uses.
  cases submits_of_mem planned listed with
  | drop _ obsolete => exact (mem_obsoleteTables obsolete).1 used

/-- A relation that is kept without another join table lives in the one that was recorded. -/
theorem joinTable_of_kept (planned : context.planWrite old declared = .ok plan) {field : Field}
    (present : field ∈ declared.fields) {relation previous : Relation}
    (held : field.relation? = some relation) (out : relation.target ≠ declared.name)
    (uses : relation.kind.usesJoinTable = true)
    (former : Former (old.map Record.definition) field.name relation.target previous)
    (used : previous.kind.usesJoinTable = true) {table : String}
    (recorded : previous.joinTable = some table)
    (agrees : relation.joinTable = none ∨ relation.joinTable = some table) :
    table ∈ plan.definition.joinTableNames := by
  have done := (resolve_of_planWrite planned).2
  -- Pairing leaves the field alone, which does not target the model.
  obtain ⟨-, same⟩ := others_of_pairSelves (Context.resolve_eq_ok.mp done).1
  generalize old.map Record.definition = before at former done same
  generalize isFilled : fillRelation context before (snapshot before declared) field.name relation =
    filledRelation
  -- The relation as it was filled in is among those of the definition.
  have elsewhere : field ∈ declared.others :=
    List.mem_filter.mpr ⟨present, by simp [(Field.not_targets_iff held).mpr out]⟩
  have listed := List.mem_map_of_mem
    (f := fillField context before (snapshot before declared)) elsewhere
  rw [← others_filled, ← same] at listed
  have related : (fillField context before (snapshot before declared) field).relation? =
      some filledRelation := by
    rw [relation?_fillField, held, Option.map_some, isFilled]
  have completes : relation.CompletedTo context.system filledRelation :=
    isFilled ▸ completedTo_fillRelation
  have inherits : previous.InheritedFrom context.system relation filledRelation :=
    isFilled ▸ inheritedFrom_fillRelation (previousRelation_of_former former)
  have sameKind : filledRelation.kind = relation.kind := by rw [completes.same]
  -- The table is inherited where it is left out, and stated otherwise.
  have isTable : filledRelation.joinTable = some table := by
    rcases agrees with missing | stated
    · rw [inherits.table missing uses used (by simp [recorded]), recorded]
    · rw [completes.keepsTable (Or.inl (by simp [stated])), stated]
  refine Model.mem_joinTableNames.mpr ⟨_, (List.mem_filter.mp listed).1, ?_⟩
  simp [Field.joinTable?, related, sameKind, uses, Relation.joinTableName, isTable]

end WritePlan

/-- Resolution keeps what is declared. The fields that lead out of the model are those of the
declaration, in order; to a relation of theirs is added what it is missing, from its previous
version where that had it. A plan therefore drops no join table that was recorded of a relation to
another model, if the relation is kept and no other table is stated. -/
theorem Context.resolve_keeps_declared (context : Context) (declared : Model) :
    (∀ old resolved, context.resolve old declared = .ok resolved →
      resolved.name = declared.name ∧
        List.Forall₂ (Field.CompletedTo context.system old) declared.others resolved.others) ∧
    ∀ record plan, context.planWrite (some record) declared = .ok plan →
      ∀ field ∈ declared.fields, ∀ relation previous table, field.relation? = some relation →
        relation.target ≠ declared.name → relation.kind.usesJoinTable = true →
        Former (some record.definition) field.name relation.target previous →
        previous.kind.usesJoinTable = true → previous.joinTable = some table →
        (relation.joinTable = none ∨ relation.joinTable = some table) →
        ∀ statement ∈ plan.submitted, ¬statement.Drops table := by
  -- The first half is about resolution alone; the second follows it into the plan.
  refine ⟨fun old resolved done => completedTo_of_resolve done, ?_⟩
  intro record plan planned field present relation previous table held out uses former used
    recorded agrees statement listed
  -- The relation still has its table, so what it drops is another one.
  exact WritePlan.not_drops_of_joinTable planned
    (WritePlan.joinTable_of_kept planned present held out uses former used recorded agrees) listed

/-- Posts as they were stored: they share a table with their tags, and notes have one of their
own. -/
def taggedPost : Record := .first ⟨"Post", [
  .ofRelation "tags" { Relation.to .manyToMany "Tag" with
    inverseName := some "posts", joinTable := some "tagged" },
  .ofRelation "notes" { Relation.to .manyToMany "Note" with
    inverseName := some "about", joinTable := some "noted" }]⟩ 0

/-- Posts with a title and their tags, of which nothing but the target is stated. -/
def titledPost : Model where
  name := "Post"
  fields := [.ofScalar "title" .text, .ofRelation "tags" (.to .manyToMany "Tag")]

/-- What is known of posts, tags and notes. -/
def tagging : Context where
  system := .standard
  known := Roster.ofList [taggedPost.definition, { name := "Note", fields := [] },
    { name := "Tag", fields := [] }]

/-- The titled posts keep the inverse name and the join table that were recorded of their tags, and
of the tables only that of the notes is dropped. -/
theorem Context.resolve_keeps_declared_tagged :
    (∃ resolved, tagging.resolve (some taggedPost.definition) titledPost = .ok resolved ∧
      resolved.name = "Post" ∧
      List.Forall₂ (Field.CompletedTo tagging.system (some taggedPost.definition))
        titledPost.fields resolved.others) ∧
    ∃ plan, tagging.planWrite (some taggedPost) titledPost = .ok plan ∧
      plan.definition.others = [.ofScalar "title" .text,
        .ofRelation "tags" { Relation.to .manyToMany "Tag" with
          inverseName := some "posts", joinTable := some "tagged" }] ∧
      (plan.submitted.filter fun statement => statement.kind == .dropTable).map
        (fun statement => statement.table.text) = ["noted"] ∧
      ∀ statement ∈ plan.submitted, ¬statement.Drops "tagged" := by
  obtain ⟨completes, keeps⟩ := resolve_keeps_declared tagging titledPost
  -- What is planned is evaluated, with the drops among its statements.
  have summary : (tagging.planWrite (some taggedPost) titledPost).map (fun plan =>
      (plan.definition.others,
        (plan.submitted.filter fun statement => statement.kind == .dropTable).map
          fun statement => statement.table.text)) =
      .ok ([.ofScalar "title" .text, .ofRelation "tags" { Relation.to .manyToMany "Tag" with
        inverseName := some "posts", joinTable := some "tagged" }], ["noted"]) := by
    decide +kernel
  obtain ⟨plan, planned, same⟩ := Outcome.map_eq_ok.mp summary
  obtain ⟨others, dropped⟩ := Prod.mk.inj same
  obtain ⟨named, fields⟩ := completes _ _ (WritePlan.resolve_of_planWrite planned).2
  refine ⟨⟨plan.definition, (WritePlan.resolve_of_planWrite planned).2, named, fields⟩,
    plan, planned, others, dropped, ?_⟩
  -- The tags are stated without a table, and theirs was recorded under the same name and target.
  exact keeps taggedPost plan planned (.ofRelation "tags" (.to .manyToMany "Tag")) (by decide)
    (.to .manyToMany "Tag") { Relation.to .manyToMany "Tag" with
      inverseName := some "posts", joinTable := some "tagged" } "tagged" rfl (by decide) rfl
    ⟨taggedPost.definition, rfl, by decide, _, List.mem_cons_self, rfl, rfl, rfl⟩ rfl rfl
    (Or.inl rfl)

end ModelCatalog
