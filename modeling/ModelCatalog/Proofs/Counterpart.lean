import Mathlib.Data.List.Nodup
import ModelCatalog.Proofs.Sameness
import ModelCatalog.Relation.Counterpart

/-! Counterparts: what putting one in place and taking one away leaves of the fields of a target. -/

namespace ModelCatalog

/-! ## Fields that stand for relations -/

namespace Field

/-- The relation of a field is its kind. -/
theorem relation?_eq_some {field : Field} {relation : Relation} :
    field.relation? = some relation ↔ field.kind = .relation relation := by
  -- Of the three kinds of fields only a relation has one.
  unfold relation?
  cases field.kind <;> simp

/-- A field targets a model when its relation does. -/
theorem targets_iff {field : Field} {model : String} :
    field.targets model = true ↔
      ∃ relation, field.relation? = some relation ∧ relation.target = model := by
  -- A scalar or a choice leads nowhere, and a relation leads to its target.
  unfold targets relation?
  cases field.kind <;> simp

/-- A relation tells which model the field targets. -/
theorem targets_eq {field : Field} {relation : Relation} {model : String}
    (related : field.relation? = some relation) :
    field.targets model = (relation.target == model) := by
  -- The kind of the field is the relation, whose target is compared.
  simp [targets, relation?_eq_some.mp related]

/-- A field targets no model but that of its relation. -/
theorem not_targets_iff {field : Field} {relation : Relation} {model : String}
    (related : field.relation? = some relation) :
    field.targets model = false ↔ relation.target ≠ model := by
  -- The comparison that targeting comes to fails exactly when the two names differ.
  rw [targets_eq related, beq_eq_false_iff_ne]

/-- A field without a relation targets nothing. -/
theorem not_targets_of_none {field : Field} {model : String} (unrelated : field.relation? = none) :
    field.targets model = false := by
  -- If it targeted the model it would have a relation, by which it does so.
  rw [Bool.eq_false_iff]
  intro targets
  obtain ⟨relation, related, -⟩ := targets_iff.mp targets
  rw [unrelated] at related
  cases related

/-- A field that targets one model does not target another. -/
theorem not_targets_of_ne {field : Field} {target other : String}
    (targets : field.targets target = true) (differ : target ≠ other) :
    field.targets other = false := by
  obtain ⟨relation, related, leads⟩ := targets_iff.mp targets
  -- A field has one relation, which has one target.
  exact (not_targets_iff related).mpr (leads ▸ differ)

/-- Inverting to a source field means targeting the source under that inverse name. -/
theorem invertsTo_iff {field : Field} {source fieldName : String} :
    field.invertsTo source fieldName = true ↔
      ∃ relation, field.relation? = some relation ∧ relation.target = source ∧
        relation.inverseName = some fieldName := by
  -- Without a relation nothing is inverted, and with one both its target and its inverse name
  -- count.
  unfold invertsTo
  cases field.relation? <;> simp

/-- A field that inverts to a source field targets the source. -/
theorem targets_of_invertsTo {field : Field} {source fieldName : String}
    (inverts : field.invertsTo source fieldName = true) : field.targets source = true := by
  -- The target is one of the two things that inverting asks for.
  obtain ⟨relation, related, target, -⟩ := invertsTo_iff.mp inverts
  exact targets_iff.mpr ⟨relation, related, target⟩

/-- Pairing means targeting the source, under the name or under the inverse name. -/
theorem pairsWith_iff {field : Field} {source fieldName name : String} :
    field.pairsWith source fieldName name = true ↔
      field.targets source = true ∧
        (field.name = name ∨ field.invertsTo source fieldName = true) := by
  -- Pairing is defined by these two conditions.
  simp [pairsWith]

/-- A field that inverts to one of the source pairs with it under any name. -/
theorem pairsWith_of_invertsTo {field : Field} {source fieldName : String}
    (inverts : field.invertsTo source fieldName = true) (name : String) :
    field.pairsWith source fieldName name = true :=
  -- The inverse name is the second of the two ways to pair, whatever the name.
  pairsWith_iff.mpr ⟨targets_of_invertsTo inverts, Or.inr inverts⟩

/-- A field to another model pairs with nothing of the source. -/
theorem pairsWith_of_not_targets {field : Field} {source fieldName name : String}
    (elsewhere : field.targets source = false) :
    field.pairsWith source fieldName name = false := by
  -- To target the source is the first thing that pairing asks for.
  simp [pairsWith, elsewhere]

/-- Fields of one outline pair with the same fields of a source. -/
theorem pairsWith_congr {one other : Field} (same : one.outline = other.outline)
    (source fieldName name : String) :
    one.pairsWith source fieldName name = other.pairsWith source fieldName name := by
  -- The name and the relation are all that pairing asks for, and they make up the outline.
  obtain ⟨named, kind⟩ := Prod.mk.inj same
  simp only [pairsWith, targets, invertsTo, named, show one.kind = other.kind from kind,
    relation?_eq_of_outline_eq same]

end Field

/-- The relation a counterpart carries: the same relation as its target sees it. -/
def Relation.facing (relation : Relation) (source fieldName : String) : Relation where
  kind := relation.kind.inverse
  target := source
  inverseName := some fieldName
  foreignKey := none
  joinTable := if relation.kind.inverse.usesJoinTable then relation.joinTable else none
  onDelete := none

namespace Field

/-- The counterpart of a relation faces its source. -/
theorem counterpart?_eq (field : Field) (source : String) :
    field.counterpart? source = field.relation?.map fun relation =>
      ofRelation (field.counterpartName source) (relation.facing source field.name) := rfl

/-- A resolved relation is told by its inverse name where its counterpart is. -/
theorem counterpartName_of_inverse {field : Field} {relation : Relation} {name : String}
    (related : field.relation? = some relation) (named : relation.inverseName = some name)
    -- The name of the inverse comes before the default.
    (source : String) : field.counterpartName source = name := by
  simp [counterpartName, related, named]

/-- A relation without an inverse name has the default counterpart, and any other the one it
names. -/
theorem counterpartName_eq {field : Field} {relation : Relation}
    (related : field.relation? = some relation) (source : String) :
    field.counterpartName source =
      relation.inverseName.getD (defaultCounterpartName source) := by
  -- The name is looked up in the relation, which is there.
  simp [counterpartName, related]

/-- A field that inverts to a source field has the name of that field for its counterpart. -/
theorem counterpartName_of_invertsTo {field : Field} {source fieldName : String}
    (inverts : field.invertsTo source fieldName = true) (other : String) :
    field.counterpartName other = fieldName := by
  -- Inverting means that the inverse name of its relation is the name of that field.
  obtain ⟨relation, related, -, inverse⟩ := invertsTo_iff.mp inverts
  exact counterpartName_of_inverse related inverse other

/-- The relation of a field made from one. -/
@[simp] theorem relation?_ofRelation (name : String) (relation : Relation) :
    (ofRelation name relation).relation? = some relation := rfl

/-- Merging keeps the name of the desired field. -/
@[simp] theorem name_mergeInto (desired existing : Field) :
    (desired.mergeInto existing).name = desired.name := rfl

/-- Merging keeps the default of the desired field. -/
@[simp] theorem default_mergeInto (desired existing : Field) :
    (desired.mergeInto existing).default = desired.default := rfl

/-- Merging keeps everything that makes up the pairing. -/
theorem relation?_mergeInto {desired : Field} {new : Relation}
    (related : desired.relation? = some new) (existing : Field) :
    ∃ foreignKey onDelete, (desired.mergeInto existing).relation? =
      some { new with foreignKey := foreignKey, onDelete := onDelete } := by
  rw [relation?_eq_some] at related
  -- Only a relation that was there has column attributes to hand on.
  cases held : existing.kind with
  | relation old =>
    exact ⟨_, _, by rw [relation?_eq_some, mergeInto]; simp only [related, held]; rfl⟩
  | scalar type primary autoIncrement =>
    exact ⟨new.foreignKey, new.onDelete, by simp [relation?, mergeInto, related, held]⟩
  | choice options =>
    exact ⟨new.foreignKey, new.onDelete, by simp [relation?, mergeInto, related, held]⟩

/-- Merging once more changes nothing. -/
theorem mergeInto_mergeInto (desired existing : Field) :
    desired.mergeInto (desired.mergeInto existing) = desired.mergeInto existing := by
  -- The column attributes come from the existing field both times.
  cases wanted : desired.kind <;> cases held : existing.kind <;>
    simp only [mergeInto, wanted, held] <;> split <;> rfl

/-- A field is up to date with itself. -/
theorem mergeInto_self (field : Field) : field.mergeInto field = field := by
  -- Every attribute comes from one of the two sides, which are the same here.
  cases field with
  | mk name required unique default kind => cases kind <;> simp [mergeInto]

/-- Removing a counterpart takes only fields to the source. -/
theorem targets_of_isRemovedWith {field : Field} {source fieldName name : String}
    (removed : field.isRemovedWith source fieldName name = true) :
    field.targets source = true := by
  -- What is no relation is never removed, and a relation only when it leads to the source.
  unfold isRemovedWith at removed
  cases related : field.relation? with
  | none => simp [related] at removed
  | some relation =>
    simp only [related, Bool.and_eq_true, beq_iff_eq] at removed
    exact targets_iff.mpr ⟨relation, related, removed.1⟩

/-- Fields of one outline are removed with the same fields of a source. -/
theorem isRemovedWith_congr {one other : Field} (same : one.outline = other.outline)
    (source fieldName name : String) :
    one.isRemovedWith source fieldName name = other.isRemovedWith source fieldName name := by
  -- The outline of a field is its name with its kind, and removal looks at nothing else.
  have named : one.name = other.name := congrArg Prod.fst same
  simp only [isRemovedWith, named, relation?_eq_of_outline_eq same]

/-- A counterpart that names the removed field as its inverse goes. -/
theorem isRemovedWith_of_invertsTo {field : Field} {source fieldName : String}
    (inverts : field.invertsTo source fieldName = true) (name : String) :
    field.isRemovedWith source fieldName name = true := by
  -- Removal asks for the target first, and then the inverse name decides.
  obtain ⟨relation, related, target, inverse⟩ := invertsTo_iff.mp inverts
  simp [isRemovedWith, related, target, inverse]

end Field

/-- A relation of a model is one of its fields. -/
theorem Model.mem_relations {model : Model} {field : Field} {relation : Relation} :
    (field, relation) ∈ model.relations ↔
      field ∈ model.fields ∧ field.relation? = some relation := by
  -- A relation is listed together with the field that has it.
  simp only [relations, List.mem_filterMap, Option.map_eq_some_iff, Prod.mk.injEq]
  constructor
  · rintro ⟨_, present, _, related, rfl, rfl⟩
    exact ⟨present, related⟩
  · rintro ⟨present, related⟩
    exact ⟨field, present, relation, related, rfl, rfl⟩

/-! ## Fields under their names -/

namespace Model

/-- A field is among those of its name when names are apart. -/
theorem field?_of_mem {model : Model} (distinct : (model.fields.map Field.name).Nodup)
    {field : Field} (present : field ∈ model.fields) : model.field? field.name = some field := by
  -- Before the field itself there is none of its name.
  unfold field?
  obtain ⟨_, fields⟩ := model
  simp only at distinct present ⊢
  induction fields with
  | nil => cases present
  | cons first rest ih =>
    rw [List.map_cons, List.nodup_cons] at distinct
    rcases List.mem_cons.mp present with rfl | later
    · -- The search meets the field first.
      simp
    · have differ : first.name ≠ field.name := by
        intro same
        exact distinct.1 (same ▸ List.mem_map_of_mem later)
      rw [List.find?_cons_of_neg (by simpa using differ)]
      exact ih distinct.2 later

/-- The field found under a name is one of the fields, and bears the name. -/
theorem mem_of_field? {model : Model} {name : String} {field : Field}
    (found : model.field? name = some field) : field ∈ model.fields ∧ field.name = name :=
  -- A search finds only what is listed and what it asks for.
  ⟨List.mem_of_find?_eq_some found, by simpa using List.find?_some found⟩

/-- Nothing is found under a name that no field bears. -/
theorem field?_eq_none {model : Model} {name : String} :
    model.field? name = none ↔ ∀ field ∈ model.fields, field.name ≠ name := by
  -- The search fails when the test fails on every field.
  simp [field?]

/-- Two fields of one name are one when names are apart. -/
theorem eq_of_name_eq {model : Model} (distinct : (model.fields.map Field.name).Nodup)
    {one other : Field} (present : one ∈ model.fields) (otherPresent : other ∈ model.fields)
    (same : one.name = other.name) : one = other := by
  -- Both are what is found under the name they share.
  have found := field?_of_mem distinct present
  rw [same, field?_of_mem distinct otherPresent] at found
  exact (Option.some.inj found).symm

/-- Of fields with different names, those that fulfil a condition are one if all are that one. -/
theorem filter_eq_singleton {model : Model} (distinct : (model.fields.map Field.name).Nodup)
    {condition : Field → Bool} {field : Field} (present : field ∈ model.fields)
    (holds : condition field = true)
    (only : ∀ other ∈ model.fields, condition other = true → other = field) :
    model.fields.filter condition = [field] := by
  have once : model.fields.Nodup := List.Nodup.of_map Field.name distinct
  -- The condition singles out the field, which is listed once.
  have same : model.fields.filter condition = model.fields.filter fun other => other == field := by
    -- The only field that fulfils the condition is the one given.
    refine List.filter_congr fun other listed => ?_
    rw [Bool.eq_iff_iff, beq_iff_eq]
    exact ⟨only other listed, fun equal => equal ▸ holds⟩
  rw [same, List.filter_beq, List.count_eq_one_of_mem once present]
  rfl

/-! ## Putting a counterpart in place -/

/-- The index of a counterpart points at a field that pairs. -/
theorem exists_of_counterpartIndex? {target : Model} {source fieldName name : String}
    {index : Nat} (found : target.counterpartIndex? source fieldName name = some index) :
    ∃ existing, target.fields[index]? = some existing ∧
      existing.pairsWith source fieldName name = true := by
  -- The field was found by its name or by its inverse name.
  unfold counterpartIndex? at found
  cases byName : target.fields.findIdx? fun field => field.name == name && field.targets source with
  | some position =>
    rw [byName, Option.some_or, Option.some.injEq] at found
    subst found
    obtain ⟨within, holds, -⟩ := List.findIdx?_eq_some_iff_getElem.mp byName
    -- The search by name asks for both, the name and the target.
    rw [Bool.and_eq_true, beq_iff_eq] at holds
    exact ⟨_, List.getElem?_eq_getElem within,
      Field.pairsWith_iff.mpr ⟨holds.2, Or.inl holds.1⟩⟩
  | none =>
    rw [byName, Option.none_or] at found
    -- What was found by its inverse name pairs under any name.
    obtain ⟨within, holds, -⟩ := List.findIdx?_eq_some_iff_getElem.mp found
    exact ⟨_, List.getElem?_eq_getElem within, Field.pairsWith_of_invertsTo holds name⟩

/-- Without an index no field pairs. -/
theorem pairsWith_of_counterpartIndex?_none {target : Model} {source fieldName name : String}
    (missing : target.counterpartIndex? source fieldName name = none) :
    ∀ field ∈ target.fields, field.pairsWith source fieldName name = false := by
  -- Both searches have failed, the one by name and the one by inverse name.
  unfold counterpartIndex? at missing
  rw [Option.or_eq_none_iff, List.findIdx?_eq_none_iff, List.findIdx?_eq_none_iff] at missing
  intro field present
  have unnamed := missing.1 field present
  have uninverted := missing.2 field present
  rw [Bool.eq_false_iff]
  intro pairs
  -- A field that pairs would have been found by the one search or by the other.
  obtain ⟨targets, named | inverts⟩ := Field.pairsWith_iff.mp pairs
  · simp [named, targets] at unnamed
  · simp [inverts] at uninverted

/-- Where a field pairs there is an index. -/
theorem isSome_counterpartIndex? {target : Model} {source fieldName name : String} {field : Field}
    (present : field ∈ target.fields) (pairs : field.pairsWith source fieldName name = true) :
    (target.counterpartIndex? source fieldName name).isSome = true := by
  rw [Option.isSome_iff_ne_none]
  -- Were there no index, the field would not pair.
  intro missing
  have unpaired := pairsWith_of_counterpartIndex?_none missing field present
  exact Bool.false_ne_true (unpaired.symm.trans pairs)

/-- A counterpart either takes the place of one field that pairs, the others that pair being
removed, or comes last when none pairs. -/
theorem upsertCounterpart_cases (target : Model) (source fieldName : String) (desired : Field) :
    let upsert := target.upsertCounterpart source fieldName desired
    let unpaired := fun (field : Field) => !field.pairsWith source fieldName desired.name
    (∃ front existing back, target.fields = front ++ existing :: back ∧
      existing.pairsWith source fieldName desired.name = true ∧
      upsert.field = desired.mergeInto existing ∧
      upsert.target.fields = front.filter unpaired ++ upsert.field :: back.filter unpaired) ∨
    ((∀ field ∈ target.fields, field.pairsWith source fieldName desired.name = false) ∧
      upsert.field = desired ∧ upsert.target.fields = target.fields ++ [desired]) := by
  intro upsert unpaired
  -- The index of the counterpart splits the fields into those before and those behind it.
  cases found : target.counterpartIndex? source fieldName desired.name with
  | some index =>
    obtain ⟨existing, there, pairs⟩ := exists_of_counterpartIndex? found
    obtain ⟨within, same⟩ := List.getElem?_eq_some_iff.mp there
    refine Or.inl ⟨target.fields.take index, existing, target.fields.drop (index + 1), ?_, pairs,
      ?_, ?_⟩
    · -- What stands before the index, at it and behind it are all the fields.
      rw [← same, ← List.drop_eq_getElem_cons within, List.take_append_drop]
    · simp only [upsert, upsertCounterpart, found, there]
    · simp only [upsert, unpaired, upsertCounterpart, found, there]
  | none =>
    -- Where nothing pairs the counterpart is added behind the fields.
    exact Or.inr ⟨pairsWith_of_counterpartIndex?_none found, by
      simp [upsert, upsertCounterpart, found]⟩

/-- Putting a counterpart in place keeps the name of the target. -/
@[simp] theorem name_upsertCounterpart (target : Model) (source fieldName : String)
    (desired : Field) :
    (target.upsertCounterpart source fieldName desired).target.name = target.name := rfl

/-- The counterpart put in place is the desired one, brought up to date with what was there. -/
theorem mergeInto_upsertCounterpart (target : Model) (source fieldName : String)
    (desired : Field) :
    desired.mergeInto (target.upsertCounterpart source fieldName desired).field =
      (target.upsertCounterpart source fieldName desired).field := by
  -- It was merged when it was put in place, or there was nothing to merge with.
  rcases upsertCounterpart_cases target source fieldName desired with
    ⟨front, existing, back, -, -, merged, -⟩ | ⟨-, same, -⟩
  · rw [merged, Field.mergeInto_mergeInto]
  · rw [same, Field.mergeInto_self]

/-- Putting a counterpart in place keeps the fields that do not pair, in order. -/
theorem filter_upsertCounterpart {target : Model} {source fieldName : String} {desired : Field}
    {kept : Field → Bool}
    (apart : ∀ field ∈ target.fields,
      field.pairsWith source fieldName desired.name = true → kept field = false)
    (placed : kept (target.upsertCounterpart source fieldName desired).field = false) :
    (target.upsertCounterpart source fieldName desired).target.fields.filter kept =
      target.fields.filter kept := by
  -- Neither what was there before nor what is there now is among the fields kept.
  have narrow : ∀ fields : List Field, (∀ field ∈ fields, field ∈ target.fields) →
      (fields.filter fun field => !field.pairsWith source fieldName desired.name).filter kept =
        fields.filter kept := by
    intro fields within
    rw [List.filter_filter]
    refine List.filter_congr fun field present => ?_
    by_cases pairs : field.pairsWith source fieldName desired.name = true
    · simp [apart field (within field present) pairs]
    · simp [pairs]
  -- The fields before and behind the one replaced keep what they had, less those that pair.
  rcases upsertCounterpart_cases target source fieldName desired with
    ⟨front, existing, back, before, pairs, -, after⟩ | ⟨-, same, after⟩
  · -- The replaced field pairs, so it was not kept, and neither is its replacement.
    have inFront : ∀ field ∈ front, field ∈ target.fields := by simp +contextual [before]
    have inBack : ∀ field ∈ back, field ∈ target.fields := by simp +contextual [before]
    have replaced : kept existing = false := apart existing (by simp [before]) pairs
    rw [after, List.filter_append, List.filter_cons_of_neg (by simp [placed]), narrow front inFront,
      narrow back inBack, before, List.filter_append,
      List.filter_cons_of_neg (by simp [replaced])]
  · -- The counterpart comes last, and it is not among those kept.
    rw [same] at placed
    rw [after, List.filter_append, List.filter_cons_of_neg (by simp [placed]), List.filter_nil,
      List.append_nil]

/-- Once a counterpart is in place, it is the one field that pairs. -/
theorem filter_pairsWith_upsertCounterpart {target : Model} {source fieldName : String}
    {desired : Field} (faces : desired.targets source = true) :
    (target.upsertCounterpart source fieldName desired).target.fields.filter
        (fun field => field.pairsWith source fieldName desired.name) =
      [(target.upsertCounterpart source fieldName desired).field] := by
  -- All others that pair were removed, or there were none.
  have unpaired : ∀ fields : List Field,
      (fields.filter fun field => !field.pairsWith source fieldName desired.name).filter
        (fun field => field.pairsWith source fieldName desired.name) = [] := by
    intro fields
    simp [List.filter_filter]
  -- What is merged still leads to the source, under the name that is asked for.
  have pairs : (target.upsertCounterpart source fieldName desired).field.pairsWith source
      fieldName desired.name = true := by
    obtain ⟨relation, related, faces⟩ := Field.targets_iff.mp faces
    rw [← mergeInto_upsertCounterpart]
    obtain ⟨foreignKey, onDelete, merged⟩ := Field.relation?_mergeInto related
      (target.upsertCounterpart source fieldName desired).field
    exact Field.pairsWith_iff.mpr ⟨Field.targets_iff.mpr ⟨_, merged, faces⟩, Or.inl rfl⟩
  rcases upsertCounterpart_cases target source fieldName desired with
    ⟨front, existing, back, -, -, -, after⟩ | ⟨alone, same, after⟩
  · -- Of the fields around the counterpart none is left that pairs.
    rw [after, List.filter_append, List.filter_cons_of_pos (by simpa using pairs), unpaired,
      unpaired, List.nil_append]
  · -- There was none that paired, so the last field is alone.
    have nothing : target.fields.filter
        (fun field => field.pairsWith source fieldName desired.name) = [] := by
      simpa [List.filter_eq_nil_iff] using alone
    rw [same] at pairs ⊢
    rw [after, List.filter_append, nothing, List.filter_cons_of_pos (by simpa using pairs),
      List.filter_nil, List.nil_append]

/-- The fields after putting a counterpart in place are the counterpart and those that do not
pair. -/
theorem mem_upsertCounterpart {target : Model} {source fieldName : String} {desired field : Field} :
    field ∈ (target.upsertCounterpart source fieldName desired).target.fields ↔
      field = (target.upsertCounterpart source fieldName desired).field ∨
        field ∈ target.fields ∧ field.pairsWith source fieldName desired.name = false := by
  -- The counterpart stands in the middle, where one was replaced, or it comes last.
  rcases upsertCounterpart_cases target source fieldName desired with
    ⟨front, existing, back, before, pairs, -, after⟩ | ⟨alone, same, after⟩
  · -- A field is in front of the counterpart, behind it, or it is the counterpart.
    rw [after, before]
    simp only [List.mem_append, List.mem_cons, List.mem_filter, Bool.not_eq_true']
    constructor
    · rintro (⟨inFront, apart⟩ | placed | ⟨inBack, apart⟩)
      · exact Or.inr ⟨Or.inl inFront, apart⟩
      · exact Or.inl placed
      · exact Or.inr ⟨Or.inr (Or.inr inBack), apart⟩
    · rintro (placed | ⟨inFront | same | inBack, apart⟩)
      · exact Or.inr (Or.inl placed)
      · exact Or.inl ⟨inFront, apart⟩
      · rw [same, pairs] at apart
        cases apart
      · exact Or.inr (Or.inr ⟨inBack, apart⟩)
  · -- None of the fields in front of the last one pairs.
    rw [after, same, List.mem_append, List.mem_singleton]
    constructor
    · rintro (present | placed)
      · exact Or.inr ⟨present, alone field present⟩
      · exact Or.inl placed
    · rintro (placed | ⟨present, -⟩)
      · exact Or.inr placed
      · exact Or.inl present

/-- The counterpart put in place bears the name it was meant to have. -/
theorem name_field_upsertCounterpart (target : Model) (source fieldName : String)
    (desired : Field) :
    (target.upsertCounterpart source fieldName desired).field.name = desired.name := by
  -- The field is the desired one merged into something, and merging keeps its name.
  rw [← mergeInto_upsertCounterpart]
  rfl

/-- The counterpart put in place inverts to the source field when it was meant to. -/
theorem invertsTo_upsertCounterpart {target : Model} {source fieldName : String}
    {desired : Field} (inverts : desired.invertsTo source fieldName = true) :
    (target.upsertCounterpart source fieldName desired).field.invertsTo source fieldName =
      true := by
  -- The pairing of the desired field is all that is asked for, and merging keeps it.
  obtain ⟨relation, related, faces, inverse⟩ := Field.invertsTo_iff.mp inverts
  obtain ⟨foreignKey, onDelete, merged⟩ := Field.relation?_mergeInto related
    (target.upsertCounterpart source fieldName desired).field
  rw [mergeInto_upsertCounterpart] at merged
  exact Field.invertsTo_iff.mpr ⟨_, merged, faces, inverse⟩

/-- A counterpart has a name of its own beside fields that do not pair with it, if among these
fields all that bear its name would. -/
theorem nodup_names_cons_of_unpaired {target : Model} {source fieldName : String} {desired : Field}
    {kept : Field → Bool}
    (claims : ∀ field ∈ target.fields, kept field = true → field.name = desired.name →
      field.pairsWith source fieldName desired.name = true)
    {rest : List Field} (distinct : (rest.map Field.name).Nodup)
    (unpaired : ∀ field ∈ rest, field ∈ target.fields ∧ kept field = true ∧
      field.pairsWith source fieldName desired.name = false) :
    (((target.upsertCounterpart source fieldName desired).field :: rest).map Field.name).Nodup := by
  rw [List.map_cons, List.nodup_cons, name_field_upsertCounterpart]
  refine ⟨fun taken => ?_, distinct⟩
  -- A field of the name would pair, and none of the others does.
  obtain ⟨field, present, same⟩ := List.mem_map.mp taken
  obtain ⟨before, isKept, apart⟩ := unpaired field present
  rw [claims field before isKept same] at apart
  cases apart

/-- Putting a counterpart in place keeps names apart among fields of a kind, if the fields of that
kind that bear its name pair with it. -/
theorem nodup_names_upsertCounterpart {target : Model} {source fieldName : String}
    {desired : Field} {kept : Field → Bool}
    (claims : ∀ field ∈ target.fields, kept field = true → field.name = desired.name →
      field.pairsWith source fieldName desired.name = true)
    (distinct : ((target.fields.filter kept).map Field.name).Nodup) :
    (((target.upsertCounterpart source fieldName desired).target.fields.filter kept).map
      Field.name).Nodup := by
  rcases upsertCounterpart_cases target source fieldName desired with
    ⟨front, existing, back, before, -, -, after⟩ | ⟨alone, same, after⟩
  · -- The counterpart replaces a field in the middle, beside fields that do not pair.
    have left : ((front ++ back).filter fun field =>
        kept field && !field.pairsWith source fieldName desired.name).Sublist
          (target.fields.filter kept) := by
      rw [before]
      refine List.Sublist.trans ?_
        (((List.sublist_cons_self existing back).append_left front).filter kept)
      exact List.monotone_filter_right _ fun field both => (Bool.and_eq_true_iff.mp both).1
    have others := distinct.sublist (left.map Field.name)
    have gathered : (front.filter fun field =>
          !field.pairsWith source fieldName desired.name).filter kept ++
        (back.filter fun field => !field.pairsWith source fieldName desired.name).filter kept =
        (front ++ back).filter fun field =>
          kept field && !field.pairsWith source fieldName desired.name := by
      rw [List.filter_filter, List.filter_filter, List.filter_append]
    rw [after, List.filter_append, List.filter_cons]
    split
    · -- A counterpart that is kept stands beside others that bear other names.
      refine ((List.perm_middle.map Field.name).nodup_iff).mpr ?_
      rw [gathered]
      refine nodup_names_cons_of_unpaired claims others fun field present => ?_
      obtain ⟨listed, holds⟩ := List.mem_filter.mp present
      simp only [Bool.and_eq_true, Bool.not_eq_true'] at holds
      refine ⟨?_, holds.1, holds.2⟩
      rw [before]
      rcases List.mem_append.mp listed with inFront | inBack
      · exact List.mem_append_left _ inFront
      · exact List.mem_append_right _ (List.mem_cons_of_mem _ inBack)
    · -- Otherwise only its neighbours are kept, and they were apart before.
      rw [gathered]
      exact others
  · -- The counterpart comes last, beside fields none of which pairs.
    rw [after, List.filter_append, ← same]
    refine ((List.perm_append_comm.map Field.name).nodup_iff).mpr ?_
    -- The last field counts only when it is kept.
    cases last : kept (target.upsertCounterpart source fieldName desired).field with
    | true =>
      rw [List.filter_cons_of_pos last, List.filter_nil]
      refine nodup_names_cons_of_unpaired claims distinct fun field present => ?_
      obtain ⟨listed, holds⟩ := List.mem_filter.mp present
      exact ⟨listed, holds, alone field listed⟩
    | false =>
      rw [List.filter_cons_of_neg (by simp [last]), List.filter_nil]
      exact distinct

/-- A counterpart that is in place and up to date changes nothing. -/
theorem upsertCounterpart_of_placed {target : Model} {source fieldName : String}
    {desired placed : Field}
    (only : target.fields.filter (fun field => field.pairsWith source fieldName desired.name) =
      [placed])
    (current : desired.mergeInto placed = placed) :
    (target.upsertCounterpart source fieldName desired).target = target := by
  -- The one field that pairs is replaced by itself, and none is removed.
  suffices same : (target.upsertCounterpart source fieldName desired).target.fields =
      target.fields by
    cases target
    simpa [upsertCounterpart] using same
  rcases upsertCounterpart_cases target source fieldName desired with
    ⟨front, existing, back, before, pairs, merged, after⟩ | ⟨alone, -, -⟩
  · -- The field that was replaced is the only one that pairs.
    rw [before, List.filter_append, List.filter_cons_of_pos (by simpa using pairs)] at only
    have lengths := congrArg List.length only
    simp only [List.length_append, List.length_cons, List.length_nil] at lengths
    have noneInFront : front.filter
        (fun field => field.pairsWith source fieldName desired.name) = [] :=
      List.eq_nil_of_length_eq_zero (by omega)
    have noneInBack : back.filter
        (fun field => field.pairsWith source fieldName desired.name) = [] :=
      List.eq_nil_of_length_eq_zero (by omega)
    rw [noneInFront, noneInBack, List.nil_append, List.cons.injEq] at only
    -- With one field that pairs there is none before it and none behind it to remove.
    have whole : ∀ fields : List Field,
        fields.filter (fun field => field.pairsWith source fieldName desired.name) = [] →
        fields.filter (fun field => !field.pairsWith source fieldName desired.name) = fields := by
      intro fields nothing
      simpa [List.filter_eq_self, List.filter_eq_nil_iff] using nothing
    rw [after, before, whole front noneInFront, whole back noneInBack, merged, only.1, current]
  · -- There would be no field that pairs, but one is given.
    have empty : target.fields.filter
        (fun field => field.pairsWith source fieldName desired.name) = [] := by
      simpa [List.filter_eq_nil_iff] using alone
    rw [empty] at only
    cases only

/-- A counterpart that is in place and up to date reports no change, where every field equals
itself. -/
theorem upsertCounterpart_unchanged_of_placed {target : Model} {source fieldName : String}
    {desired placed : Field}
    (only : target.fields.filter (fun field => field.pairsWith source fieldName desired.name) =
      [placed])
    (current : desired.mergeInto placed = placed)
    (comparable : Field.sameList target.fields target.fields = true) :
    (target.upsertCounterpart source fieldName desired).changed = false := by
  -- The target is the one before, so the lists that are compared are one list.
  have fields := congrArg Model.fields (upsertCounterpart_of_placed only current)
  simp only [upsertCounterpart] at fields ⊢
  rw [fields, comparable, Bool.not_true]

/-- Putting a counterpart in place that reports no change makes none. -/
theorem eq_of_upsertCounterpart_unchanged {target : Model} {source fieldName : String}
    {desired : Field} (unambiguous : desired.Unambiguous)
    (unchanged : (target.upsertCounterpart source fieldName desired).changed = false) :
    (target.upsertCounterpart source fieldName desired).target = target := by
  -- Nothing was removed or appended, and the counterpart is as the field it took the place of.
  have same : Field.sameList (target.upsertCounterpart source fieldName desired).target.fields
      target.fields = true := by
    simpa [upsertCounterpart] using unchanged
  suffices fields : (target.upsertCounterpart source fieldName desired).target.fields =
      target.fields by
    cases target
    simpa [upsertCounterpart] using fields
  have counted := Field.length_eq_of_sameList same
  rcases upsertCounterpart_cases target source fieldName desired with
    ⟨front, existing, back, before, -, merged, after⟩ | ⟨-, -, after⟩
  · -- Each side may only have lost fields, and the number of all is what it was.
    rw [after, before] at counted
    simp only [List.length_append, List.length_cons] at counted
    have inFront := List.length_filter_le
      (fun field => !field.pairsWith source fieldName desired.name) front
    have inBack := List.length_filter_le
      (fun field => !field.pairsWith source fieldName desired.name) back
    -- As long as before, the list has lost nothing on either side of the counterpart.
    have keptFront : front.filter (fun field => !field.pairsWith source fieldName desired.name) =
        front := List.filter_eq_self.mpr (List.length_filter_eq_length_iff.mp (by omega))
    have keptBack : back.filter (fun field => !field.pairsWith source fieldName desired.name) =
        back := List.filter_eq_self.mpr (List.length_filter_eq_length_iff.mp (by omega))
    rw [after, before, keptFront, keptBack] at same
    -- What took the place of the field equals it, and its default has one spelling.
    have placed : (target.upsertCounterpart source fieldName desired).field = existing := by
      refine Field.Unambiguous.eq_of_sameAs ?_ (Field.sameAs_of_sameList_append same)
      simpa only [Field.Unambiguous, merged, Field.default_mergeInto] using unambiguous
    rw [after, before, keptFront, keptBack, placed]
  · -- Where nothing pairs there is one field more than before.
    rw [after] at counted
    simp at counted

end Model

end ModelCatalog
