import ModelCatalog.Proofs.RepairTurns
import ModelCatalog.Proofs.WritePlan

/-! Plain fields: what relations give rise to, in a model or in others, leaves the fields alone that
hold values of their own. -/

namespace ModelCatalog

open Resolution RepairPlan

variable {system : SystemModels}

/-- The field holds a value of its own. -/
def Field.isPlain (field : Field) : Bool := field.relation?.isNone

/-- A relation is no plain field. -/
@[simp] theorem Field.isPlain_ofRelation (name : String) (relation : Relation) :
    (Field.ofRelation name relation).isPlain = false := rfl

/-- A field that leads somewhere is not plain. -/
theorem Field.isPlain_of_targets {field : Field} {target : String}
    (leads : field.targets target = true) : field.isPlain = false := by
  -- What leads somewhere is a relation.
  obtain ⟨relation, related, -⟩ := targets_iff.mp leads
  simp [isPlain, related]

/-- To fill in a field leaves it plain or not. -/
@[simp] theorem Resolution.isPlain_fillField (context : Context) (old : Option Model)
    (snapshot : Model) (field : Field) :
    (fillField context old snapshot field).isPlain = field.isPlain := by
  -- To fill in a relation leaves it one, and nothing else is touched.
  cases kind : field.kind <;> simp [Field.isPlain, Field.relation?, fillField, kind]

/-- A plain field has nothing to fill in. -/
theorem Resolution.fillField_of_isPlain {context : Context} {old : Option Model} {snapshot : Model}
    {field : Field} (plain : field.isPlain = true) :
    fillField context old snapshot field = field := by
  -- Only the relation of a field is ever filled in.
  unfold fillField
  cases kind : field.kind <;> simp_all [Field.isPlain, Field.relation?]

namespace Model

/-- The fields of a model that hold values of their own, in order. -/
def plain (model : Model) : List Field := model.fields.filter Field.isPlain

/-- The models bear one name and have the same plain fields: they differ in relations at most. -/
structure SharesPlain (model other : Model) : Prop where
  name : model.name = other.name
  plain : model.plain = other.plain

/-! ## Single models -/

/-- To keep all fields but some relations keeps the plain ones. -/
theorem plain_filter {model : Model} {kept : Field → Bool}
    (all : ∀ field ∈ model.fields, field.isPlain = true → kept field = true) :
    { model with fields := model.fields.filter kept }.plain = model.plain := by
  unfold plain
  rw [List.filter_filter]
  -- The plain fields pass both filters, and the others pass neither.
  refine List.filter_congr fun field present => ?_
  cases isPlain : field.isPlain with
  | true => simp [all field present isPlain]
  | false => rfl

/-- Removing counterparts keeps the plain fields. -/
theorem plain_removeCounterpart (target : Model) (source fieldName name : String) :
    (target.removeCounterpart source fieldName name).plain = target.plain := by
  -- What goes with a counterpart leads to the source, and so it is not plain.
  refine plain_filter fun field _ isPlain => ?_
  rw [Bool.not_eq_true', Bool.eq_false_iff]
  intro goes
  rw [Field.isPlain_of_targets (Field.targets_of_isRemovedWith goes)] at isPlain
  cases isPlain

/-- Putting a counterpart in place keeps the plain fields. -/
theorem plain_upsertCounterpart (target : Model) (source fieldName : String) {desired : Field}
    (related : desired.isPlain = false) :
    (target.upsertCounterpart source fieldName desired).target.plain = target.plain := by
  refine filter_upsertCounterpart (fun field _ pairs =>
    Field.isPlain_of_targets (Field.pairsWith_iff.mp pairs).1) ?_
  -- What is put in place is merged from a relation.
  obtain ⟨relation, isRelation⟩ : ∃ relation, desired.relation? = some relation :=
    Option.isSome_iff_exists.mp (by simpa [Field.isPlain] using related)
  rw [← mergeInto_upsertCounterpart]
  obtain ⟨foreignKey, onDelete, merged⟩ := Field.relation?_mergeInto isRelation
    (target.upsertCounterpart source fieldName desired).field
  simp [Field.isPlain, merged]

end Model

/-- A definition to begin resolution with has the plain fields of the definition. -/
theorem Resolution.plain_snapshot (old : Option Model) (model : Model) :
    (snapshot old model).plain = model.plain := by
  -- A step gives up no relation, or removes the counterpart of one.
  have step : ∀ (reached : Model) (pair : Field × Relation),
      (dropOne model.name reached pair).plain = reached.plain := by
    intro reached pair
    unfold dropOne
    split
    · split
      · rfl
      · exact reached.plain_removeCounterpart _ _ _
    · exact reached.plain_removeCounterpart _ _ _
  cases old with
  | none => rfl
  | some old =>
    -- Each relation that is given up takes some relations along.
    have run : ∀ (pairs : List (Field × Relation)) (reached : Model),
        (pairs.foldl (dropOne model.name) reached).plain = reached.plain := by
      intro pairs
      induction pairs with
      | nil => exact fun _ => rfl
      | cons first rest ih => exact fun reached => (ih _).trans (step reached first)
    exact run _ model

/-- A resolved definition has the plain fields of the definition. -/
theorem Context.plain_of_resolve {context : Context} {old : Option Model} {model resolved : Model}
    (done : context.resolve old model = .ok resolved) : resolved.plain = model.plain := by
  have filled_eq : (filled context old model).plain = model.plain := by
    have same : (filled context old model).plain = (snapshot old model).plain := by
      simp only [filled, Model.plain, List.filter_map, Function.comp_def, isPlain_fillField]
      refine (List.map_congr_left fun field listed => ?_).trans (List.map_id _)
      exact fillField_of_isPlain (List.mem_filter.mp listed).2
    rw [same, plain_snapshot]
  -- Pairing puts relations in place.
  exact @of_pairSelves _ _ (fun reached => reached.plain = model.plain)
    (fun reached field relation before _ _ =>
      (reached.plain_upsertCounterpart _ _ (Field.isPlain_ofRelation _ _)).trans before)
    filled_eq (resolve_eq_ok.mp done).1

/-- An edit keeps the plain fields of its target when it puts relations in place. -/
theorem TargetEdit.plain_apply {edit : TargetEdit} (source : String) (target : Model)
    (relations : ∀ insertion ∈ edit.insertions, insertion.counterpart.isPlain = false) :
    (edit.apply source target).1.plain = target.plain := by
  -- Removals come first and take only relations.
  have removed : ∀ (removals : List Removal) (reached : Model),
      (applyRemovals source reached removals).plain = reached.plain := by
    intro removals
    induction removals with
    | nil => exact fun _ => rfl
    | cons first rest ih =>
      exact fun reached => (ih _).trans (reached.plain_removeCounterpart _ _ _)
  -- Insertions replace relations by relations, or add one.
  have inserted : ∀ (insertions : List Insertion) (reached : Model),
      (∀ insertion ∈ insertions, insertion.counterpart.isPlain = false) →
      (applyInsertions source reached insertions).1.plain = reached.plain := by
    intro insertions
    induction insertions with
    | nil => exact fun _ _ => rfl
    | cons first rest ih =>
      intro reached all
      exact (ih _ fun insertion later => all insertion (List.mem_cons_of_mem _ later)).trans
        (reached.plain_upsertCounterpart _ _ (all first List.mem_cons_self))
  exact (inserted _ _ relations).trans (removed _ _)

/-! ## Repairs -/

/-- The models stand under the same names, with the same plain fields. -/
def Models.KeepsPlain (before after : Models) : Prop :=
  ∀ name, (after.find? name).map Model.plain = (before.find? name).map Model.plain

/-- A model may be filed in the stead of one of its name that has its plain fields. -/
theorem Models.KeepsPlain.insert {before models : Models} (keeps : before.KeepsPlain models)
    {model next : Model} (found : models.find? next.name = some model)
    (same : next.plain = model.plain) : before.KeepsPlain (models.insert next) := by
  intro other
  -- The filed model has the plain fields of the one it replaces.
  rw [← keeps other, Roster.find?_insert]
  split
  · rename_i here
    rw [← here, show models.find? (Named.name next) = some model from found, Option.map_some,
      Option.map_some, same]
  · rfl

namespace RepairPlan

/-- Pruning takes only relations away. -/
theorem keepsPlain_pruneAll (scanned : Models) (report : RepairReport) :
    scanned.KeepsPlain (pruneAll system scanned report).models := by
  intro name
  rw [find?_pruneAll, Option.map_map]
  -- A field without a relation is never pruned.
  refine congrArg (Option.map · _) (funext fun model => Model.plain_filter fun field _ plain => ?_)
  refine leadsSomewhere_of_stored fun relation related => ?_
  simp [Field.isPlain, related] at plain

/-- A repair keeps the plain fields of every model. -/
theorem keepsPlain_repair (system : SystemModels) (scanned : Models) (report : RepairReport) :
    scanned.KeepsPlain (repair system scanned report).models := by
  have resolved : ∀ names : List String, scanned.KeepsPlain
      (names.foldl (resolveOne system) (pruneAll system scanned report)).models := by
    refine models_resolveAll_induction scanned.KeepsPlain (keepsPlain_pruneAll scanned report)
      fun models name model resolved keeps found done => ?_
    -- A model is resolved under its own name, and keeps its plain fields.
    refine keeps.insert ?_ (Context.plain_of_resolve done)
    rw [(Context.of_resolve done).1, show model.name = name from Roster.name_of_find? found]
    exact found
  refine models_mendAll_induction scanned.KeepsPlain
    (fun models name fieldName field relation target keeps awaits => ?_) _ (resolved _)
  refine keeps.insert ?_ (target.plain_upsertCounterpart _ _ (Field.isPlain_ofRelation _ _))
  rw [Model.name_upsertCounterpart, show target.name = relation.target from
    Roster.name_of_find? awaits.found]
  exact awaits.found

end RepairPlan

end ModelCatalog
