import ModelCatalog.Proofs.RelationGraph
import ModelCatalog.Proofs.SelfPairing
import ModelCatalog.Relation.RepairPlan

/-! Repair of self-relations: resolving a stored model anew touches nothing but these. -/

namespace ModelCatalog

open Resolution RepairPlan

variable {system : SystemModels}

namespace Model

/-- A model whose self-relations were paired anew: its fields to others stay in their order, and
no self-relation has a name that was not one of a self-relation before. -/
structure RepairedFrom (system : SystemModels) (before after : Model) : Prop where
  name : after.name = before.name
  others : after.fields.filter (fun field => !field.targets before.name) =
    before.fields.filter fun field => !field.targets before.name
  declared : ∀ name ∈ after.selfNames, name ∈ before.selfNames
  tidy : after.Tidy system

variable {before middle after : Model}

/-- A tidy model may stay as it is. -/
theorem RepairedFrom.refl (tidy : before.Tidy system) : RepairedFrom system before before :=
  -- Everything is as it was, and tidy already.
  ⟨rfl, rfl, fun _ listed => listed, tidy⟩

/-- Repairs may follow on each other. -/
theorem RepairedFrom.trans (first : RepairedFrom system before middle)
    (second : RepairedFrom system middle after) : RepairedFrom system before after := by
  -- What the first repair kept the second one keeps as well.
  refine ⟨second.name.trans first.name, ?_,
    fun name listed => first.declared name (second.declared name listed), second.tidy⟩
  rw [← first.name, second.others, first.name, first.others]

/-- A field that leads elsewhere is there after a repair when it was there before. -/
theorem RepairedFrom.mem_iff (repaired : RepairedFrom system before after) {field : Field}
    (elsewhere : field.targets before.name = false) :
    field ∈ after.fields ↔ field ∈ before.fields := by
  -- What leads elsewhere is among the fields that both have in the same order.
  have within : ∀ fields : List Field,
      field ∈ fields ↔ field ∈ fields.filter fun field => !field.targets before.name := by
    simp [List.mem_filter, elsewhere]
  rw [within, repaired.others, ← within]

/-- Every name after a repair was there before, under the same roof: a self-relation comes from a
self-relation, and any other field from itself. -/
theorem RepairedFrom.exists_of_mem (repaired : RepairedFrom system before after) {field : Field}
    (present : field ∈ after.fields) :
    ∃ earlier ∈ before.fields, earlier.name = field.name ∧
      ∀ model, earlier.targets model = field.targets model := by
  cases own : field.targets before.name with
  | false => exact ⟨field, (repaired.mem_iff own).mp present, rfl, fun _ => rfl⟩
  | true =>
    -- A self-relation takes its name from one before, which leads to the same model.
    have listed : field.name ∈ after.selfNames := by
      refine mem_selfNames.mpr ⟨field, present, ?_, rfl⟩
      rw [repaired.name]
      exact own
    obtain ⟨earlier, inBefore, targets, same⟩ := mem_selfNames.mp (repaired.declared _ listed)
    refine ⟨earlier, inBefore, same, fun model => ?_⟩
    obtain ⟨one, oneRelated, oneLeads⟩ := Field.targets_iff.mp targets
    obtain ⟨other, otherRelated, otherLeads⟩ := Field.targets_iff.mp own
    rw [Field.targets_eq oneRelated, Field.targets_eq otherRelated, oneLeads, otherLeads]

end Model

/-! ## One model -/

/-- Nothing is left to be filled in of a resolved model that was stored before. -/
theorem Resolution.filled_eq_of_resolved {context : Context} {model : Model}
    (distinct : (model.fields.map Field.name).Nodup) (resolved : model.Resolved context.system) :
    filled context (some model) model = model := by
  -- The snapshot is the model itself, and none of its relations lacks anything.
  have kept : snapshot (some model) model = model := by
    refine snapshot_eq_of_kept fun field present targets => ?_
    exact ⟨field, Model.field?_of_mem distinct present, targets⟩
  have same : model.fields.map (fillField context (some model) model) = model.fields := by
    refine (List.map_congr_left fun field present => ?_).trans (List.map_id _)
    exact fillField_eq_self (resolved field present)
  rw [filled, kept, same]

/-- Nothing is left to be filled in of a tidy model that was stored before. -/
theorem Resolution.filled_eq_self {context : Context} {model : Model}
    (tidy : model.Tidy context.system) : filled context (some model) model = model :=
  -- Each field is resolved already, and their names differ.
  filled_eq_of_resolved tidy.distinct tidy.resolved

/-- Names are apart in a model when they are among its self-relations, among its other fields, and
between the two. -/
theorem Model.nodup_names_of_selfNames {model : Model} (selves : model.selfNames.Nodup)
    (others : ((model.fields.filter fun field => !field.targets model.name).map Field.name).Nodup)
    (apart : ∀ name ∈ model.selfNames, ∀ field ∈ model.fields,
      field.targets model.name = false → field.name ≠ name) :
    (model.fields.map Field.name).Nodup := by
  -- The fields are those that lead to the model and those that do not, in another order.
  have parted := (List.filter_append_perm (fun field : Field => field.targets model.name)
    model.fields).map Field.name
  rw [← parted.nodup_iff, List.map_append, List.nodup_append]
  refine ⟨selves, others, fun name listed other otherListed => ?_⟩
  obtain ⟨field, member, same⟩ := List.mem_map.mp otherListed
  obtain ⟨present, elsewhere⟩ := List.mem_filter.mp member
  have differ := apart name listed field present (by simpa using elsewhere)
  rw [same] at differ
  exact Ne.symm differ

/-- Pairing leaves all names different when no field that leads elsewhere has the name of a
self-relation that comes of it. -/
theorem Resolution.Pairing.nodup_names {start model : Model} {todo : List String}
    (pairing : Pairing start todo model) (distinct : (start.fields.map Field.name).Nodup)
    (apart : ∀ self ∈ model.fields, self.targets start.name = true → ∀ field ∈ start.fields,
      field.targets start.name = false → field.name ≠ self.name) :
    (model.fields.map Field.name).Nodup := by
  -- Pairing keeps the names of self-relations apart, and the other fields are those from the start.
  refine Model.nodup_names_of_selfNames pairing.distinct ?_ fun name selfNamed field present => ?_
  · rw [pairing.name, pairing.others]
    exact distinct.sublist (List.filter_sublist.map Field.name)
  · obtain ⟨self, selfPresent, targets, rfl⟩ := Model.mem_selfNames.mp selfNamed
    rw [pairing.name] at targets ⊢
    intro elsewhere
    exact apart self selfPresent targets field ((pairing.mem_of_not_targets elsewhere).mp present)
      elsewhere

/-- Resolving a tidy model over itself repairs its self-relations. -/
theorem Context.repairedFrom_of_resolve {context : Context} {model resolved : Model}
    (tidy : model.Tidy context.system) (done : context.resolve (some model) model = .ok resolved) :
    model.RepairedFrom context.system resolved := by
  -- A tidy model has nothing to fill in, so pairing begins with the model itself.
  have pairing := Context.pairing_of_resolve tidy.distinct done
  rw [filled_eq_self tidy] at pairing
  have name := pairing.name
  have declared : ∀ name ∈ resolved.selfNames, name ∈ model.selfNames := by
    intro other listed
    obtain ⟨field, present, targets, rfl⟩ := Model.mem_selfNames.mp listed
    rw [name] at targets
    rcases pairing.declared field present targets with own | ⟨before, inModel, back, -, claims⟩
    · exact own
    · -- The counterpart of a self-relation was there before, since the model was closed.
      obtain ⟨mate, mateThere, mateBack, named⟩ := tidy.closed before inModel back
      exact Model.mem_selfNames.mpr ⟨mate, mateThere, mateBack, named.trans claims⟩
  refine ⟨name, pairing.others, declared, ?_, Context.resolved_of_resolve done, ?_⟩
  · -- A field that leads elsewhere has another name than every self-relation before.
    refine pairing.nodup_names tidy.distinct fun self listed targets field present elsewhere same =>
      ?_
    rw [← name] at targets
    obtain ⟨earlier, inModel, back, named⟩ := Model.mem_selfNames.mp
      (declared self.name (Model.mem_selfNames.mpr ⟨self, listed, targets, rfl⟩))
    rw [Model.eq_of_name_eq tidy.distinct present inModel (same.trans named.symm),
      back] at elsewhere
    cases elsewhere
  · intro field present targets
    rw [name] at targets ⊢
    obtain ⟨mate, there, back, named, -⟩ := pairing.closed field present targets (by simp)
    exact ⟨mate, there, back, named⟩

/-! ## All models -/

/-- Models of which every one was repaired, and none came or went. -/
structure Models.RepairedFrom (system : SystemModels) (before after : Models) : Prop where
  found : ∀ name model, before.find? name = some model →
    ∃ next, after.find? name = some next ∧ model.RepairedFrom system next
  missing : ∀ name, before.find? name = none → after.find? name = none

namespace Models.RepairedFrom

variable {before middle after : Models}

/-- Tidy models may stay as they are. -/
theorem refl (tidy : ∀ name model, before.find? name = some model → model.Tidy system) :
    Models.RepairedFrom system before before :=
  -- Each model is its own repair.
  ⟨fun name model found => ⟨model, found, .refl (tidy name model found)⟩, fun _ missing => missing⟩

/-- Repairs of all models may follow on each other. -/
theorem trans (first : Models.RepairedFrom system before middle)
    (second : Models.RepairedFrom system middle after) :
    Models.RepairedFrom system before after := by
  refine ⟨fun name model found => ?_, fun name missing =>
    -- A model that is found is repaired twice, and one that is missing stays so.
    second.missing name (first.missing name missing)⟩
  obtain ⟨between, inMiddle, head⟩ := first.found name model found
  obtain ⟨last, inAfter, tail⟩ := second.found name between inMiddle
  exact ⟨last, inAfter, head.trans tail⟩

/-- A repaired model was there before. -/
theorem exists_before (repaired : Models.RepairedFrom system before after) {name : String}
    {model : Model} (found : after.find? name = some model) :
    ∃ earlier, before.find? name = some earlier ∧ earlier.RepairedFrom system model := by
  -- Had it been missing before, it would be missing now.
  cases earlier : before.find? name with
  | none =>
    rw [repaired.missing name earlier] at found
    cases found
  | some first =>
    obtain ⟨next, inAfter, head⟩ := repaired.found name first earlier
    rw [found, Option.some.injEq] at inAfter
    exact ⟨first, rfl, inAfter ▸ head⟩

/-- Repaired models are tidy. -/
theorem tidy (repaired : Models.RepairedFrom system before after) (name : String) (model : Model)
    (found : after.find? name = some model) : model.Tidy system := by
  -- The model is the repair of an earlier one.
  obtain ⟨_, -, step⟩ := repaired.exists_before found
  exact step.tidy

end Models.RepairedFrom

/-- To resolve one of several tidy models repairs them. -/
theorem RepairPlan.repairedFrom_resolveOne {progress : Progress}
    (tidy : ∀ name model, progress.models.find? name = some model → model.Tidy system)
    (name : String) :
    Models.RepairedFrom system progress.models (resolveOne system progress name).models := by
  unfold resolveOne
  cases found : progress.models.find? name with
  -- A name that nothing is found under is passed over.
  | none => exact .refl tidy
  | some model =>
    cases done : Context.resolve ⟨system, progress.models⟩ (some model) model with
    | error =>
      simp only [done]
      exact .refl tidy
    | ok resolved =>
      -- The resolved model takes the place of the stored one, and the others stay.
      have own : model.name = name := Roster.name_of_find? found
      have step := @Context.repairedFrom_of_resolve ⟨system, progress.models⟩ model resolved
        (tidy name model found) done
      have named : Named.name resolved = name := step.name.trans own
      simp only [done]
      refine ⟨fun other before listed => ?_, fun other missing => ?_⟩
      · rw [Roster.find?_insert, named]
        split
        · rename_i same
          subst same
          rw [found, Option.some.injEq] at listed
          exact ⟨resolved, rfl, listed ▸ step⟩
        · exact ⟨before, listed, .refl (tidy other before listed)⟩
      · -- No model is added.
        rw [Roster.find?_insert, named, if_neg]
        · exact missing
        · rintro rfl
          rw [found] at missing
          cases missing

/-- To resolve several tidy models, one after the other, repairs them. -/
theorem RepairPlan.repairedFrom_resolve (names : List String) {progress : Progress}
    (tidy : ∀ name model, progress.models.find? name = some model → model.Tidy system) :
    Models.RepairedFrom system progress.models
      (names.foldl (resolveOne system) progress).models := by
  -- Each step begins with tidy models and leaves them so.
  induction names generalizing progress with
  | nil => exact .refl tidy
  | cons first rest ih =>
    have head := repairedFrom_resolveOne tidy first
    exact head.trans (ih head.tidy)

end ModelCatalog
