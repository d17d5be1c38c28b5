import ModelCatalog.Proofs.RelationGraph
import ModelCatalog.Relation.RepairPlan

/-! Turns of a repair: what putting the counterparts of one model in place makes of the others. -/

namespace ModelCatalog

open WritePlan RepairPlan

/-! ## Barred names -/

/-- A name on a target is barred to a source when the field of the name leads elsewhere. -/
def Model.bars (target : Model) (source name : String) : Bool :=
  (target.field? name).any fun existing => !existing.targets source

/-- Where names are apart, a name is barred by any field of the name that leads elsewhere. -/
theorem Model.bars_iff {target : Model} (distinct : (target.fields.map Field.name).Nodup)
    {source name : String} :
    target.bars source name = true ↔
      ∃ field ∈ target.fields, field.name = name ∧ field.targets source = false := by
  -- The field that is found under a name is the only one of that name.
  unfold bars
  rw [Option.any_eq_true]
  constructor
  · rintro ⟨field, found, elsewhere⟩
    obtain ⟨present, named⟩ := mem_of_field? found
    exact ⟨field, present, named, by simpa using elsewhere⟩
  · rintro ⟨field, present, rfl, elsewhere⟩
    exact ⟨field, field?_of_mem distinct present, by simp [elsewhere]⟩

/-- Which names are barred depends on the fields that lead elsewhere. -/
theorem Model.bars_congr {target other : Model} (distinct : (target.fields.map Field.name).Nodup)
    (otherDistinct : (other.fields.map Field.name).Nodup) {source : String}
    (same : ∀ field : Field, field.targets source = false →
      (field ∈ other.fields ↔ field ∈ target.fields)) (name : String) :
    other.bars source name = target.bars source name := by
  -- A bar is a field that leads elsewhere, and both models have the same of those.
  rw [Bool.eq_iff_iff, bars_iff distinct, bars_iff otherDistinct]
  constructor
  · rintro ⟨field, present, named, elsewhere⟩
    exact ⟨field, (same field elsewhere).mp present, named, elsewhere⟩
  · rintro ⟨field, present, named, elsewhere⟩
    exact ⟨field, (same field elsewhere).mpr present, named, elsewhere⟩

/-! ## One relation -/

namespace RepairPlan

section Awaits

variable {system : SystemModels}

/-- A relation awaits its counterpart on a target: it is found under its name on a model that is
there, it leads from there to the target, and the name of the counterpart is not barred. -/
structure Awaits (system : SystemModels) (models : Models) (name fieldName : String) (field : Field)
    (relation : Relation) (target : Model) : Prop where
  source : ∃ source, models.find? name = some source ∧ source.field? fieldName = some field
  related : field.relation? = some relation
  out : leadsOut system name relation
  found : models.find? relation.target = some target
  free : target.bars name (field.counterpartName name) = false

variable {models : Models} {progress : Progress} {name fieldName : String} {field : Field}
  {relation : Relation} {target : Model}

/-- The field that awaits its counterpart bears the name it is found under. -/
theorem Awaits.name_eq (awaits : Awaits system models name fieldName field relation target) :
    field.name = fieldName := by
  -- The field was found by looking for that name.
  obtain ⟨source, -, found⟩ := awaits.source
  exact (Model.mem_of_field? found).2

/-- What putting in place does that a relation awaits. -/
def placing (progress : Progress) (name : String) (field : Field) (relation : Relation)
    (target : Model) : Progress :=
  let upsert := target.upsertCounterpart name field.name
    (insertionOf name field relation).counterpart
  { models := progress.models.insert upsert.target
    report := countUpsert progress.report
      (target.counterpartIndex? name field.name (field.counterpartName name)).isSome
      target.fields.length upsert }

/-- Mending puts the counterpart in place that a relation awaits. -/
theorem mendField_of_awaits
    (awaits : Awaits system progress.models name fieldName field relation target) :
    mendField system name progress fieldName = placing progress name field relation target := by
  obtain ⟨source, found, isField⟩ := awaits.source
  -- The relation is one that mending looks at.
  have inside : ¬(relation.target = name ∨ system.contains relation.target = true) := by
    rintro (own | outside)
    · exact awaits.out.1 own
    · exact Bool.false_ne_true (awaits.out.2.symm.trans outside)
  have counterpart : field.counterpart? name =
      some (insertionOf name field relation).counterpart := by
    rw [Field.counterpart?_eq, awaits.related]
    rfl
  have free := awaits.free
  unfold mendField placing
  simp only [found, isField, awaits.related, Option.bind_eq_bind, Option.bind_some, awaits.found,
    counterpart]
  rw [if_neg (by simpa using inside), awaits.name_eq]
  have named : (insertionOf name field relation).counterpart.name = field.counterpartName name :=
    rfl
  -- The name of the counterpart is free on the target, or a relation back has it.
  cases there : target.field? (field.counterpartName name) with
  | none => simp [named, there]
  | some existing =>
    have back : existing.targets name = true := by simpa [Model.bars, there] using free
    simp [named, there, back]

/-- Mending does nothing where no counterpart is awaited. -/
theorem mendField_of_not_awaits
    (idle : ∀ field relation target,
      ¬Awaits system progress.models name fieldName field relation target) :
    mendField system name progress fieldName = progress := by
  unfold mendField
  dsimp only
  split
  · rfl
  · -- A counterpart that is chosen comes of a field with a relation out of the model, on a target
    -- that is there.
    rename_i target counterpart chosen
    obtain ⟨source, found, chosen⟩ := Option.bind_eq_some_iff.mp chosen
    obtain ⟨field, isField, chosen⟩ := Option.bind_eq_some_iff.mp chosen
    obtain ⟨relation, related, chosen⟩ := Option.bind_eq_some_iff.mp chosen
    split at chosen
    · cases chosen
    · rename_i outside
      obtain ⟨made, isMade, chosen⟩ := Option.bind_eq_some_iff.mp chosen
      obtain ⟨other, otherFound, chosen⟩ := Option.bind_eq_some_iff.mp chosen
      refine absurd ?_ (idle field relation other)
      rw [Field.counterpart?_eq, related, Option.map_some, Option.some.injEq] at isMade
      -- Of a barred name nothing would have been chosen.
      have free : other.bars name (field.counterpartName name) = false := by
        unfold Model.bars
        rw [← isMade] at chosen
        cases there : other.field? (field.counterpartName name) with
        | none => rfl
        | some existing =>
          have named : (Field.ofRelation (field.counterpartName name)
              (relation.facing name field.name)).name = field.counterpartName name := rfl
          rw [named, there] at chosen
          cases back : existing.targets name with
          | true => simp [back]
          | false => simp [back] at chosen
      exact ⟨⟨source, found, isField⟩, related, by simpa [leadsOut] using outside, otherFound, free⟩

/-- Mending one relation puts the counterpart in place that it awaits, or does nothing. -/
theorem mendField_cases (system : SystemModels) (progress : Progress) (name fieldName : String) :
    (∃ field relation target, Awaits system progress.models name fieldName field relation target ∧
      mendField system name progress fieldName = placing progress name field relation target) ∨
    mendField system name progress fieldName = progress := by
  -- Whether there is something to mend is decided here, and each case has its own lemma.
  by_cases awaited : ∃ field relation target,
      Awaits system progress.models name fieldName field relation target
  · obtain ⟨field, relation, target, awaits⟩ := awaited
    exact Or.inl ⟨field, relation, target, awaits, mendField_of_awaits awaits⟩
  · exact Or.inr (mendField_of_not_awaits fun field relation target awaits =>
      awaited ⟨field, relation, target, awaits⟩)

end Awaits

variable (system : SystemModels) (source : Model)

/-- A relation is due on a target when it leads there from another model of the catalog, and the
name of its counterpart is not barred. -/
def isDue (target : Model) (pair : Field × Relation) : Bool :=
  pair.2.target != source.name && !system.contains pair.2.target &&
    pair.2.target == target.name &&
    !target.bars source.name (pair.1.counterpartName source.name)

/-- What the counterpart of one relation makes of a target. -/
def mendedBy (target : Model) (pair : Field × Relation) : Model :=
  let insertion := insertionOf source.name pair.1 pair.2
  if isDue system source target pair then
    (target.upsertCounterpart source.name insertion.field insertion.counterpart).target
  else target

variable {system source}

/-- A relation is due on the target that it leads to, where the name of its counterpart is not
barred. -/
theorem isDue_iff {target : Model} {field : Field} {relation : Relation} :
    isDue system source target (field, relation) = true ↔
      leadsOut system source.name relation ∧ relation.target = target.name ∧
        target.bars source.name (field.counterpartName source.name) = false := by
  -- The three parts are tested one after the other.
  simp [isDue, leadsOut, and_assoc]

/-- Mending one relation keeps the name of a target. -/
@[simp] theorem name_mendedBy (target : Model) (pair : Field × Relation) :
    (mendedBy system source target pair).name = target.name := by
  -- Either way the target is the same one or an edited one of its name.
  unfold mendedBy
  dsimp only
  split <;> rfl

/-- Where a relation is not due nothing is mended. -/
theorem map_mendedBy_of_not_isDue {known : Option Model} {pair : Field × Relation}
    (undue : ∀ target, known = some target → isDue system source target pair = false) :
    known.map (fun target => mendedBy system source target pair) = known := by
  -- Either there is no target, or it is left as it is.
  cases known with
  | none => rfl
  | some target =>
    rw [Option.map_some, mendedBy, undue target rfl]
    rfl

/-- A relation of a model is due on a target that is there exactly when it awaits its counterpart on
it. -/
theorem awaits_iff_isDue {models : Models} (found : models.find? source.name = some source)
    (distinct : (source.fields.map Field.name).Nodup) {field : Field}
    (present : field ∈ source.fields) {relation : Relation}
    (related : field.relation? = some relation) {target : Model}
    (known : models.find? target.name = some target) :
    Awaits system models source.name field.name field relation target ↔
      isDue system source target (field, relation) = true := by
  rw [isDue_iff]
  constructor
  · -- What is found under the name of the target is the target.
    intro awaits
    have leads : target.name = relation.target := Roster.name_of_find? awaits.found
    exact ⟨awaits.out, leads.symm, awaits.free⟩
  · rintro ⟨out, leads, free⟩
    exact ⟨⟨source, found, Model.field?_of_mem distinct present⟩, related, out, leads ▸ known, free⟩

/-- Mending one relation changes its target, and no other model. -/
theorem find?_mendField {progress : Progress} {name : String}
    (found : progress.models.find? name = some source)
    (distinct : (source.fields.map Field.name).Nodup) {pair : Field × Relation}
    (listed : pair ∈ source.relations) (other : String) :
    (mendField system name progress pair.1.name).models.find? other =
      (progress.models.find? other).map fun target => mendedBy system source target pair := by
  obtain ⟨field, relation⟩ := pair
  obtain ⟨present, related⟩ := Model.mem_relations.mp listed
  have own : source.name = name := Roster.name_of_find? found
  subst own
  by_cases awaited : ∃ target,
      Awaits system progress.models source.name field.name field relation target
  · -- The one target of the relation is filed anew under its name.
    obtain ⟨target, awaits⟩ := awaited
    have leads : target.name = relation.target := Roster.name_of_find? awaits.found
    have known : progress.models.find? target.name = some target := leads ▸ awaits.found
    have due := (awaits_iff_isDue found distinct present related known).mp awaits
    have filed : Named.name (target.upsertCounterpart source.name field.name
        -- The other name is the one of the target, or there is nothing for it to mend.
        (insertionOf source.name field relation).counterpart).target = target.name := rfl
    rw [mendField_of_awaits awaits, placing, Roster.find?_insert, filed]
    split
    · rename_i same
      rw [← same, known, Option.map_some, mendedBy, due]
      rfl
    · rename_i differ
      refine (map_mendedBy_of_not_isDue fun held stored =>
        Bool.eq_false_iff.mpr fun heldDue => ?_).symm
      have heldName : held.name = other := Roster.name_of_find? stored
      exact differ (leads.trans ((isDue_iff.mp heldDue).2.1.trans heldName))
  · -- A relation that awaits nothing is due nowhere.
    have idle : mendField system source.name progress field.name = progress := by
      refine mendField_of_not_awaits fun again held target awaits => ?_
      obtain ⟨model, isSource, isField⟩ := awaits.source
      rw [found, Option.some.injEq] at isSource
      subst isSource
      rw [Model.field?_of_mem distinct present, Option.some.injEq] at isField
      subst isField
      have same := related.symm.trans awaits.related
      rw [Option.some.injEq] at same
      exact awaited ⟨target, same ▸ awaits⟩
    rw [idle]
    refine (map_mendedBy_of_not_isDue fun target held => Bool.eq_false_iff.mpr fun due => ?_).symm
    have named : target.name = other := Roster.name_of_find? held
    exact awaited ⟨target,
      (awaits_iff_isDue found distinct present related (named ▸ held)).mpr due⟩

/-! ## All relations of one model -/

/-- What the counterparts of all relations of a source make of a target. -/
def mended (system : SystemModels) (source target : Model) : Model :=
  source.relations.foldl (mendedBy system source) target

/-- The counterparts that are put in place on a target. -/
def dues (system : SystemModels) (source target : Model) : List Insertion :=
  (source.relations.filter (isDue system source target)).map fun pair =>
    insertionOf source.name pair.1 pair.2

/-- A turn keeps the name of a target. -/
@[simp] theorem name_mended (system : SystemModels) (source target : Model) :
    (mended system source target).name = target.name := by
  unfold mended
  -- Each relation finds the target as the ones before it have left it.
  induction source.relations generalizing target with
  | nil => rfl
  | cons first rest ih => rw [List.foldl_cons, ih, name_mendedBy]

/-- Nothing is mended in the source itself. -/
theorem mendedBy_self (pair : Field × Relation) : mendedBy system source source pair = source := by
  have undue : isDue system source source pair = false := by
    -- A relation is due on another model only.
    cases same : pair.2.target == source.name <;> simp_all [isDue, bne]
  rw [mendedBy, undue]
  rfl

/-- A turn leaves the source itself as it is. -/
theorem mended_self (system : SystemModels) (source : Model) :
    mended system source source = source := by
  unfold mended
  -- None of the relations mends it, in whatever order they come.
  generalize source.relations = pairs
  induction pairs with
  | nil => rfl
  | cons first rest ih => rw [List.foldl_cons, mendedBy_self, ih]

/-- A turn mends all other models, one relation after the other. -/
theorem find?_mendOne {progress : Progress} {name : String}
    (found : progress.models.find? name = some source)
    (distinct : (source.fields.map Field.name).Nodup) (other : String) :
    (mendOne system progress name).models.find? other =
      (progress.models.find? other).map (mended system source) := by
  -- The source stands under its name throughout its turn, since it never mends itself.
  have run : ∀ (pairs : List (Field × Relation)) (reached : Progress),
      (∀ pair ∈ pairs, pair ∈ source.relations) → reached.models.find? name = some source →
      (pairs.foldl (fun progress pair => mendField system name progress pair.1.name)
          reached).models.find? other =
        (reached.models.find? other).map fun target =>
          pairs.foldl (mendedBy system source) target := by
    intro pairs
    induction pairs with
    -- Without relations nothing is mended.
    | nil =>
      intro reached _ _
      simp
    | cons first rest ih =>
      intro reached listed stands
      have head := @find?_mendField system source reached name stands distinct first
        (listed first List.mem_cons_self)
      -- The source is mended to itself, so it is still found.
      have still : (mendField system name reached first.1.name).models.find? name =
          some source := by
        rw [head name, stands, Option.map_some, mendedBy_self]
      rw [List.foldl_cons,
        ih _ (fun pair later => listed pair (List.mem_cons_of_mem _ later)) still, head other,
        Option.map_map]
      rfl
  unfold mendOne
  simp only [found, List.foldl_map]
  exact run source.relations progress (fun _ listed => listed) found

/-- A counterpart is due when it is that of a relation that is due. -/
theorem mem_dues {target : Model} {insertion : Insertion} :
    insertion ∈ dues system source target ↔
      ∃ field ∈ source.fields, ∃ relation, field.relation? = some relation ∧
        leadsOut system source.name relation ∧ relation.target = target.name ∧
        target.bars source.name (field.counterpartName source.name) = false ∧
        insertion = insertionOf source.name field relation := by
  -- The insertions that are due are made from the relations that are.
  simp only [dues, List.mem_map, List.mem_filter]
  constructor
  · rintro ⟨⟨field, relation⟩, ⟨listed, due⟩, rfl⟩
    obtain ⟨present, related⟩ := Model.mem_relations.mp listed
    obtain ⟨out, leads, free⟩ := isDue_iff.mp due
    exact ⟨field, present, relation, related, out, leads, free, rfl⟩
  · rintro ⟨field, present, relation, related, out, leads, free, rfl⟩
    exact ⟨(field, relation), ⟨Model.mem_relations.mpr ⟨present, related⟩,
      isDue_iff.mpr ⟨out, leads, free⟩⟩, rfl⟩

/-- Every counterpart that is due faces the source. -/
theorem faces_of_mem_dues {target : Model} {insertion : Insertion}
    (listed : insertion ∈ dues system source target) : insertion.Faces source.name := by
  -- Each one due was made from a field of the source.
  obtain ⟨field, -, relation, -, -, -, -, rfl⟩ := mem_dues.mp listed
  exact faces_insertionOf _ _ _

/-- Mending a relation that is due puts its counterpart in place. -/
theorem mendedBy_of_isDue {target : Model} {field : Field} {relation : Relation}
    (due : isDue system source target (field, relation) = true) :
    mendedBy system source target (field, relation) =
      (target.upsertCounterpart source.name field.name
        (insertionOf source.name field relation).counterpart).target := by
  -- The test passes, so the counterpart goes in.
  rw [mendedBy, due]
  rfl

/-- Mending a relation that is not due does nothing. -/
theorem mendedBy_of_not_isDue {target : Model} {pair : Field × Relation}
    (undue : isDue system source target pair = false) :
    mendedBy system source target pair = target := by
  -- The test fails, so the target is left.
  rw [mendedBy, undue]
  rfl

/-- Mending one relation keeps names apart. -/
theorem nodup_names_mendedBy {target : Model} (distinct : (target.fields.map Field.name).Nodup)
    (pair : Field × Relation) :
    ((mendedBy system source target pair).fields.map Field.name).Nodup := by
  cases due : isDue system source target pair with
  | false =>
    -- A relation that is not due leaves the target.
    rw [mendedBy_of_not_isDue due]
    exact distinct
  | true =>
    obtain ⟨field, relation⟩ := pair
    have free := (isDue_iff.mp due).2.2
    -- A field of the name of the counterpart relates to the source, and so pairs with it.
    have pairs : ∀ one ∈ target.fields,
        one.name = (insertionOf source.name field relation).counterpart.name →
        one.pairsWith source.name field.name
          (insertionOf source.name field relation).counterpart.name = true := by
      intro one present named
      refine Field.pairsWith_iff.mpr ⟨?_, Or.inl named⟩
      by_contra elsewhere
      -- Otherwise the name would be barred, and it was due.
      rw [Bool.not_eq_true] at elsewhere
      have barred := (Model.bars_iff distinct).mpr ⟨one, present, named, elsewhere⟩
      exact Bool.false_ne_true (free.symm.trans barred)
    rw [mendedBy_of_isDue due]
    have kept : ((target.upsertCounterpart source.name field.name
        (insertionOf source.name field relation).counterpart).target.fields.filter
          fun _ => true).map Field.name |>.Nodup :=
      Model.nodup_names_upsertCounterpart (fun one present _ => pairs one present)
        (by simpa using distinct)
    simpa using kept

/-- Mending one relation leaves the fields that lead elsewhere than to the source. -/
theorem mem_mendedBy_of_not_targets {target : Model} {pair : Field × Relation} {field : Field}
    (elsewhere : field.targets source.name = false) :
    field ∈ (mendedBy system source target pair).fields ↔ field ∈ target.fields := by
  cases due : isDue system source target pair with
  | false => rw [mendedBy_of_not_isDue due]
  | true =>
    obtain ⟨origin, relation⟩ := pair
    rw [mendedBy_of_isDue due, Model.mem_upsertCounterpart]
    constructor
    · rintro (rfl | ⟨present, -⟩)
      · -- The counterpart itself leads to the source.
        have leads := Field.targets_of_invertsTo (@Model.invertsTo_upsertCounterpart target _ _ _
          (faces_insertionOf source.name origin relation).inverts)
        exact (Bool.false_ne_true (elsewhere.symm.trans leads)).elim
      · exact present
    · exact fun present => Or.inr ⟨present, Field.pairsWith_of_not_targets elsewhere⟩

/-- Mending one relation changes nothing in what is due. -/
theorem isDue_mendedBy {target : Model} (distinct : (target.fields.map Field.name).Nodup)
    (first pair : Field × Relation) :
    isDue system source (mendedBy system source target first) pair =
      isDue system source target pair := by
  unfold isDue
  -- What is due depends on the name of the target and on its fields that lead elsewhere.
  rw [name_mendedBy, Model.bars_congr distinct (nodup_names_mendedBy distinct first)]
  exact fun one elsewhere => mem_mendedBy_of_not_targets elsewhere

/-- A turn keeps names apart. -/
theorem nodup_names_mended {target : Model} (distinct : (target.fields.map Field.name).Nodup) :
    ((mended system source target).fields.map Field.name).Nodup := by
  unfold mended
  -- The induction is on the relations, over the target as those before have left it.
  induction source.relations generalizing target with
  | nil => exact distinct
  | cons first rest ih => exact ih (nodup_names_mendedBy distinct first)

/-- A turn puts the counterparts in place that were due when it began. -/
theorem mended_eq {target : Model} (distinct : (target.fields.map Field.name).Nodup) :
    mended system source target =
      (TargetEdit.applyInsertions source.name target (dues system source target)).1 := by
  unfold mended dues
  -- The induction is on the relations; the target of the others is what the first has made of it.
  induction source.relations generalizing target with
  | nil => rfl
  | cons first rest ih =>
    -- What is due after the first step was due before it.
    have apart : ((mendedBy system source target first).fields.map Field.name).Nodup :=
      nodup_names_mendedBy distinct first
    have step := ih apart
    rw [List.filter_congr fun pair _ => isDue_mendedBy distinct first pair] at step
    rw [List.foldl_cons, step]
    cases due : isDue system source target first with
    | false => rw [List.filter_cons_of_neg (by simp [due]), mendedBy_of_not_isDue due]
    | true =>
      rw [List.filter_cons_of_pos due, List.map_cons, mendedBy_of_isDue due]
      rfl

end RepairPlan

/-! ## Turns of tidy models -/

/-- No two relations of a model claim the same counterpart on another model. -/
def Model.Unambiguous (system : SystemModels) (model : Model) : Prop :=
  ∀ one ∈ model.fields, ∀ other ∈ model.fields, ∀ relation again,
    one.relation? = some relation → other.relation? = some again →
    leadsOut system model.name relation → again.target = relation.target →
    again.inverseName = relation.inverseName → other = one

namespace RepairPlan

variable {system : SystemModels} {source target : Model}

/-- The counterparts due from an unambiguous source are apart. -/
theorem pairwise_dues (tidy : source.Tidy system) (unambiguous : source.Unambiguous system) :
    (dues system source target).Pairwise Insertion.Apart := by
  have distinct : source.fields.Pairwise fun one other => one.name ≠ other.name :=
    List.pairwise_map.mp tidy.distinct
  -- Both relations lead to the target, so they differ in the names of their counterparts.
  have apart : source.relations.Pairwise fun one other =>
      isDue system source target one = true → isDue system source target other = true →
        (insertionOf source.name one.1 one.2).Apart
          (insertionOf source.name other.1 other.2) := by
    refine List.Pairwise.filterMap _ ?_ (List.Pairwise.and_mem.mp distinct)
    rintro one other ⟨onePresent, otherPresent, differ⟩ first firstMade second secondMade due
      otherDue
    obtain ⟨relation, related, rfl⟩ := Option.map_eq_some_iff.mp firstMade
    obtain ⟨again, relatedAgain, rfl⟩ := Option.map_eq_some_iff.mp secondMade
    obtain ⟨out, leads, -⟩ := isDue_iff.mp due
    obtain ⟨otherOut, otherLeads, -⟩ := isDue_iff.mp otherDue
    refine ⟨differ, fun same => differ ?_⟩
    obtain ⟨name, named⟩ := Option.isSome_iff_exists.mp
      ((tidy.resolved one onePresent relation related).named out.2)
    -- Two relations with one counterpart would be one.
    obtain ⟨otherName, otherNamed⟩ := Option.isSome_iff_exists.mp
      ((tidy.resolved other otherPresent again relatedAgain).named otherOut.2)
    have same : one.counterpartName source.name = other.counterpartName source.name := same
    rw [Field.counterpartName_of_inverse related named,
      Field.counterpartName_of_inverse relatedAgain otherNamed] at same
    rw [unambiguous one onePresent other otherPresent relation again related relatedAgain out
      (otherLeads.trans leads.symm) (by rw [named, otherNamed, same])]
  exact List.pairwise_map.mpr ((List.pairwise_filter.mpr apart).imp id)

/-- After a turn every relation of the source that was not barred from the target has a mate
there. -/
theorem hasMate_mended (tidy : source.Tidy system) (unambiguous : source.Unambiguous system)
    (distinct : (target.fields.map Field.name).Nodup) {field : Field} {relation : Relation}
    (present : field ∈ source.fields) (related : field.relation? = some relation)
    (out : leadsOut system source.name relation) (leads : relation.target = target.name)
    (free : target.bars source.name (field.counterpartName source.name) = false) :
    (mended system source target).HasMate source.name field := by
  -- The relation is due, and what is due is in place after the turn.
  have due : insertionOf source.name field relation ∈ dues system source target :=
    mem_dues.mpr ⟨field, present, relation, related, out, leads, free, rfl⟩
  have placed := TargetEdit.placedIn_applyInsertions (fun _ listed => faces_of_mem_dues listed)
    (pairwise_dues tidy unambiguous) target _ due
  rw [← mended_eq distinct] at placed
  obtain ⟨mate, there, current⟩ := placed.exists_mem
  refine ⟨mate, there, ?_⟩
  rw [name_mended, ← leads]
  exact Field.mates_of_current related (tidy.resolved field present relation related) out.2 current

/-- After a turn a field of a target is the mate of a relation of the source that was not barred,
or it is from before and pairs with none of these. -/
theorem mem_mended (tidy : source.Tidy system) (distinct : (target.fields.map Field.name).Nodup)
    {mate : Field} (present : mate ∈ (mended system source target).fields) :
    (∃ field ∈ source.fields, ∃ relation, field.relation? = some relation ∧
        leadsOut system source.name relation ∧ relation.target = target.name ∧
        target.bars source.name (field.counterpartName source.name) = false ∧
        field.Mates source.name target.name mate ∧
        (insertionOf source.name field relation).counterpart.mergeInto mate = mate) ∨
      mate ∈ target.fields ∧ ∀ field ∈ source.fields, ∀ relation,
        field.relation? = some relation → leadsOut system source.name relation →
        relation.target = target.name →
        target.bars source.name (field.counterpartName source.name) = false →
        mate.pairsWith source.name field.name (field.counterpartName source.name) = false := by
  -- The turn inserts what is due, each of which replaces what pairs with it.
  rw [mended_eq distinct] at present
  rcases TargetEdit.mem_applyInsertions present with ⟨insertion, listed, current⟩ | ⟨before, apart⟩
  · obtain ⟨field, inSource, relation, related, out, leads, free, rfl⟩ := mem_dues.mp listed
    have mates := Field.mates_of_current related
      (tidy.resolved field inSource relation related) out.2 current
    rw [leads] at mates
    exact Or.inl ⟨field, inSource, relation, related, out, leads, free, mates, current⟩
  · refine Or.inr ⟨before, fun field inSource relation related out leads free => ?_⟩
    exact apart _ (mem_dues.mpr ⟨field, inSource, relation, related, out, leads, free, rfl⟩)

/-- A turn leaves the fields that lead elsewhere than to the source. -/
theorem mem_mended_of_not_targets (distinct : (target.fields.map Field.name).Nodup) {field : Field}
    (elsewhere : field.targets source.name = false) :
    field ∈ (mended system source target).fields ↔ field ∈ target.fields := by
  unfold mended
  -- Each relation only touches fields that lead to the source.
  induction source.relations generalizing target with
  | nil => exact Iff.rfl
  | cons first rest ih =>
    exact (ih (nodup_names_mendedBy distinct first)).trans (mem_mendedBy_of_not_targets elsewhere)

/-- A turn of a tidy source keeps its targets tidy. -/
theorem tidy_mended (tidy : source.Tidy system) (targetTidy : target.Tidy system)
    (apart : target.name ≠ source.name) : (mended system source target).Tidy system := by
  -- Names stay apart, and what comes is merged from relations that are resolved.
  refine ⟨nodup_names_mended targetTidy.distinct, ?_, ?_⟩
  · intro field present
    rcases mem_mended tidy targetTidy.distinct present with
      ⟨origin, inSource, relation, related, -, -, -, -, current⟩ | ⟨before, -⟩
    · rw [← current]
      exact (tidy.resolved origin inSource relation related).mergeInto _ _ _ _
    · exact targetTidy.resolved field before
  · intro field present own
    rw [name_mended] at own ⊢
    -- Self-relations of the target lead elsewhere than to the source.
    have elsewhere : ∀ one : Field, one.targets target.name = true →
        one.targets source.name = false :=
      fun one targets => Field.not_targets_of_ne targets apart
    obtain ⟨mate, there, back, named⟩ := targetTidy.closed field
      ((mem_mended_of_not_targets targetTidy.distinct (elsewhere field own)).mp present) own
    exact ⟨mate, (mem_mended_of_not_targets targetTidy.distinct (elsewhere mate back)).mpr there,
      back, named⟩

/-- A turn of an unambiguous source keeps its targets unambiguous. -/
theorem unambiguous_mended (tidy : source.Tidy system) (targetTidy : target.Tidy system)
    (targetUnambiguous : target.Unambiguous system) :
    (mended system source target).Unambiguous system := by
  intro one onePresent other otherPresent relation again related relatedAgain out sameTarget
    sameInverse
  rw [name_mended] at out
  by_cases back : relation.target = source.name
  · -- With one target and one inverse name the two relations invert to the same fields.
    have alike : ∀ field : Field, other.invertsTo source.name field.name =
        one.invertsTo source.name field.name := by
      intro field
      rw [Bool.eq_iff_iff, Field.invertsTo_iff, Field.invertsTo_iff]
      simp [related, relatedAgain, sameTarget, sameInverse]
    rcases mem_mended tidy targetTidy.distinct onePresent with
      ⟨field, inSource, held, heldRelation, leadsAway, leads, free, mates, -⟩ | ⟨before, unpaired⟩
    · rcases mem_mended tidy targetTidy.distinct otherPresent with
        ⟨twin, twinInSource, -, -, -, -, -, twinMates, -⟩ | ⟨-, otherUnpaired⟩
      · -- Both are the mate of the one relation whose name they bear as inverse name.
        have named : twin.name = field.name := by
          rw [← twinMates.symm.counterpartName target.name,
            Field.counterpartName_of_invertsTo ((alike field).trans mates.symm.invertsTo)]
        have same := Model.eq_of_name_eq tidy.distinct twinInSource inSource named
        subst same
        refine Model.eq_of_name_eq (nodup_names_mended targetTidy.distinct) otherPresent onePresent
          ?_
        rw [← mates.counterpartName source.name, ← twinMates.counterpartName source.name]
      · -- A field from before that inverts to the relation would have been replaced.
        have pairs := otherUnpaired field inSource held heldRelation leadsAway leads free
        rw [Field.pairsWith_of_invertsTo ((alike field).trans mates.symm.invertsTo)] at pairs
        cases pairs
    · rcases mem_mended tidy targetTidy.distinct otherPresent with
        ⟨twin, twinInSource, held, heldRelation, leadsAway, leads, free, twinMates, -⟩ |
        ⟨otherBefore, -⟩
      · have pairs := unpaired twin twinInSource held heldRelation leadsAway leads free
        have inverts := (alike twin).symm.trans twinMates.symm.invertsTo
        rw [Field.pairsWith_of_invertsTo inverts] at pairs
        cases pairs
      · exact targetUnambiguous one before other otherBefore relation again related relatedAgain
          out sameTarget sameInverse
  · -- Relations that lead elsewhere were there before.
    have elsewhere : one.targets source.name = false := (Field.not_targets_iff related).mpr back
    have otherElsewhere : other.targets source.name = false :=
      (Field.not_targets_iff relatedAgain).mpr (sameTarget ▸ back)
    exact targetUnambiguous one
      ((mem_mended_of_not_targets targetTidy.distinct elsewhere).mp onePresent) other
      ((mem_mended_of_not_targets targetTidy.distinct otherElsewhere).mp otherPresent) relation
      again related relatedAgain out sameTarget sameInverse

end RepairPlan

end ModelCatalog
