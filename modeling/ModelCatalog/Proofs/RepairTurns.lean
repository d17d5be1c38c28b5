import ModelCatalog.Proofs.Repair

/-! What a single step of a repair can do, and what follows for all of its steps: the defaults that
it leaves are defaults that were there. -/

namespace ModelCatalog

open Resolution WritePlan RepairPlan

variable {system : SystemModels}

/-! ## Single steps -/

namespace RepairPlan

/-- To resolve one model files what it is resolved to, or does nothing. -/
theorem resolveOne_cases (system : SystemModels) (progress : Progress) (name : String) :
    (∃ model resolved, progress.models.find? name = some model ∧
      Context.resolve ⟨system, progress.models⟩ (some model) model = .ok resolved ∧
      resolveOne system progress name =
        { models := progress.models.insert resolved
          report := { progress.report with
            fieldsAdded := progress.report.fieldsAdded +
              (resolved.fields.length - model.fields.length) } }) ∨
    resolveOne system progress name = progress := by
  -- Nothing is done without a model under the name, or when its resolution fails.
  cases found : progress.models.find? name with
  | none => exact Or.inr (by simp [resolveOne, found])
  | some model =>
    cases done : Context.resolve ⟨system, progress.models⟩ (some model) model with
    | error => exact Or.inr (by simp [resolveOne, found, done])
    | ok resolved => exact Or.inl ⟨model, resolved, rfl, done, by simp [resolveOne, found, done]⟩

/-- What each step keeps of the models is kept by all of them. -/
theorem models_foldl_induction (keeps : Models → Prop) {step : Progress → String → Progress}
    (kept : ∀ progress name, keeps progress.models → keeps (step progress name).models)
    (names : List String) {progress : Progress} (start : keeps progress.models) :
    keeps (names.foldl step progress).models := by
  -- Each step begins with the models that the steps before have left.
  induction names generalizing progress with
  | nil => exact start
  | cons first rest ih => exact ih (kept progress first start)

/-- What holds of the models after pruning and is kept by each resolution holds when all are
resolved. -/
theorem models_resolveAll_induction (keeps : Models → Prop) {scanned : Models}
    {report : RepairReport} (pruned : keeps (pruneAll system scanned report).models)
    (resolves : ∀ (models : Models) (name : String) (model resolved : Model), keeps models →
      models.find? name = some model →
      Context.resolve ⟨system, models⟩ (some model) model = .ok resolved →
      keeps (models.insert resolved)) (names : List String) :
    keeps (names.foldl (resolveOne system) (pruneAll system scanned report)).models := by
  -- A model is resolved in its turn, or the turn does nothing.
  refine models_foldl_induction keeps (fun progress name held => ?_) names pruned
  rcases resolveOne_cases system progress name with ⟨model, resolved, found, done, same⟩ | same
  · rw [same]
    exact resolves _ name model resolved held found done
  · rw [same]
    exact held

/-- What each counterpart that is put in place keeps of the models is kept by mending. -/
theorem models_mendAll_induction (keeps : Models → Prop)
    (mends : ∀ (models : Models) (name fieldName : String) (field : Field) (relation : Relation)
      (target : Model), keeps models →
      Awaits system models name fieldName field relation target →
      keeps (models.insert (target.upsertCounterpart name field.name
        (insertionOf name field relation).counterpart).target))
    (names : List String) {progress : Progress} (start : keeps progress.models) :
    keeps (names.foldl (mendOne system) progress).models := by
  refine models_foldl_induction keeps (fun progress name held => ?_) names start
  -- A turn of a model goes through the names of its relations.
  unfold mendOne
  split
  · exact held
  · refine models_foldl_induction keeps (fun progress fieldName held => ?_) _ held
    rcases mendField_cases system progress name fieldName with
      ⟨field, relation, target, awaits, done⟩ | done
    · rw [done]
      exact mends _ name fieldName field relation target held awaits
    · rw [done]
      exact held

end RepairPlan

/-! ## Defaults -/

namespace Field

/-- Equal fields have both a default, or both none. -/
theorem isSome_default_of_sameAs {one other : Field} (same : one.sameAs other = true) :
    one.default.isSome = other.default.isSome := by
  -- Equality of fields compares defaults only where both have one.
  cases held : one.default <;> cases otherHeld : other.default <;>
    simp_all [sameAs]

/-- Equal lists of fields have as many defaults. -/
theorem length_defaults_of_sameList {one other : List Field} (same : sameList one other = true) :
    (one.filterMap default).length = (other.filterMap default).length := by
  induction sameList_iff.mp same with
  | nil => rfl
  -- The lists are walked side by side, and equal fields have one default each or none.
  | @cons first second _ _ head tail ih =>
    have both := isSome_default_of_sameAs head
    have rest := ih (sameList_iff.mpr tail)
    cases held : first.default <;> cases otherHeld : second.default <;>
      simp_all

/-- Equal lists of fields with the same defaults are one. -/
theorem eq_of_sameList {one other : List Field} (same : sameList one other = true)
    (defaults : one.filterMap default = other.filterMap default) : one = other := by
  -- The defaults are told apart field by field, since equal fields have one both or neither.
  induction sameList_iff.mp same with
  | nil => rfl
  | @cons first second _ _ head tail ih =>
    have both := isSome_default_of_sameAs head
    have alike := eq_of_sameAs head
    cases held : first.default with
    | none =>
      -- Neither field has a default, so the lists of defaults are those of the rests.
      have missing : second.default = none := by simpa [held] using both
      rw [List.filterMap_cons_none held, List.filterMap_cons_none missing] at defaults
      rw [alike, held, ← missing, ih (sameList_iff.mpr tail) defaults]
    | some value =>
      -- Both fields have a default, and they head the two lists.
      obtain ⟨again, otherHeld⟩ := Option.isSome_iff_exists.mp (both.symm.trans (by rw [held]; rfl))
      rw [List.filterMap_cons_some held, List.filterMap_cons_some otherHeld,
        List.cons.injEq] at defaults
      rw [alike, held, defaults.1, ← otherHeld, ih (sameList_iff.mpr tail) defaults.2]

end Field

namespace Model

/-- The defaults of a model, in the order of the fields that have them. -/
def defaults (model : Model) : List DefaultValue := model.fields.filterMap Field.default

/-- A definition equals itself when each of its defaults does: a number may not. -/
theorem sameAs_self_iff {model : Model} :
    model.sameAs model = true ↔ ∀ value ∈ model.defaults, value.sameAs value = true := by
  -- All else of a field equals itself, so the defaults decide.
  have each : ∀ field : Field, field.sameAs field = true ↔
      ∀ value, field.default = some value → value.sameAs value = true := by
    intro field
    cases held : field.default <;> simp [Field.sameAs, held]
  have fields : model.sameAs model = true ↔
      ∀ field ∈ model.fields, field.sameAs field = true := by
    simp only [sameAs, Bool.and_eq_true, beq_self_eq_true, true_and, Field.sameList_iff,
      List.forall₂_same]
  simp only [fields, each, defaults, List.mem_filterMap]
  constructor
  · rintro all value ⟨field, present, held⟩
    exact all field present value held
  · exact fun all field present value held => all value ⟨field, present, held⟩

/-- Equal definitions are one when one of them has no defaults but those of the other. -/
theorem eq_of_sameAs {one other : Model} (same : one.sameAs other = true)
    (fewer : other.defaults.Sublist one.defaults) : other = one := by
  have fields := sameList_of_sameAs same
  -- As many defaults, none of them new: these are the same, and so are the fields.
  have equal := fewer.eq_of_length (Field.length_defaults_of_sameList fields).symm
  have named := name_eq_of_sameAs same
  have listed := Field.eq_of_sameList fields equal.symm
  cases one
  cases other
  simp_all

/-- A counterpart without a default brings none to its target. -/
theorem defaults_upsertCounterpart (target : Model) (source fieldName : String) {desired : Field}
    (plain : desired.default = none) :
    (target.upsertCounterpart source fieldName desired).target.defaults.Sublist
      target.defaults := by
  -- What is put in place has the default of what was desired, which is none.
  have placed : (target.upsertCounterpart source fieldName desired).field.default = none := by
    rw [← mergeInto_upsertCounterpart, Field.default_mergeInto, plain]
  unfold defaults
  rcases upsertCounterpart_cases target source fieldName desired with
    ⟨front, existing, back, before, -, -, after⟩ | ⟨-, same, after⟩
  · rw [after, before, List.filterMap_append, List.filterMap_append,
      List.filterMap_cons_none placed]
    exact (List.filter_sublist.filterMap _).append
      ((List.filter_sublist.trans (List.sublist_cons_self existing back)).filterMap _)
  · rw [after, List.filterMap_append, ← same, List.filterMap_cons_none placed]
    simp

end Model

namespace Context

variable {context : Context} {old : Option Model} {model resolved : Model}

/-- Resolution keeps the name of a definition and brings it no defaults. -/
theorem of_resolve (done : context.resolve old model = .ok resolved) :
    resolved.name = model.name ∧ resolved.defaults.Sublist model.defaults := by
  have filledDefaults : (filled context old model).defaults.Sublist model.defaults := by
    have same : (filled context old model).defaults = (snapshot old model).defaults := by
      simp [filled, Model.defaults, List.filterMap_map]
    rw [same]
    exact (fields_snapshot old model).filterMap _
  -- The counterparts that pairing puts in place come without defaults.
  refine @of_pairSelves _ _
    (fun reached => reached.name = model.name ∧ reached.defaults.Sublist model.defaults)
    (fun reached field relation before _ _ => ⟨before.1, ?_⟩)
    ⟨name_filled context old model, filledDefaults⟩ (resolve_eq_ok.mp done).1
  exact (Model.defaults_upsertCounterpart reached _ _ rfl).trans before.2

end Context

/-- Models that are those from before, with no defaults but the ones that were there. -/
structure Models.DefaultsFrom (before after : Models) : Prop where
  same : ∀ name, (after.find? name).isSome = (before.find? name).isSome
  fewer : ∀ name model, after.find? name = some model → ∃ earlier,
    before.find? name = some earlier ∧ model.defaults.Sublist earlier.defaults

namespace Models.DefaultsFrom

variable {before models : Models}

/-- A model may be filed with fewer defaults in the stead of one of its name. -/
theorem insert (from_before : Models.DefaultsFrom before models) {name : String}
    {model next : Model} (found : models.find? name = some model) (named : next.name = name)
    (fewer : next.defaults.Sublist model.defaults) :
    Models.DefaultsFrom before (models.insert next) := by
  subst named
  refine ⟨fun other => (Roster.isSome_find?_insert found).trans (from_before.same other),
    fun other held listed => ?_⟩
  -- The new model has fewer defaults than the one it replaces, and that one no others than before.
  rcases Roster.of_find?_insert listed with ⟨rfl, rfl⟩ | listed
  · obtain ⟨earlier, inBefore, less⟩ := from_before.fewer _ model found
    exact ⟨earlier, inBefore, fewer.trans less⟩
  · exact from_before.fewer other held listed

/-- Where every definition equals itself, those with no other defaults do. -/
theorem equal (from_before : Models.DefaultsFrom before models)
    (all : ∀ name model, before.find? name = some model → model.sameAs model = true) (name : String)
    (model : Model) (found : models.find? name = some model) : model.sameAs model = true := by
  -- Equality of a definition with itself depends on its defaults, and there are no new ones.
  obtain ⟨earlier, inBefore, fewer⟩ := from_before.fewer name model found
  exact Model.sameAs_self_iff.mpr fun value held =>
    Model.sameAs_self_iff.mp (all name earlier inBefore) value (fewer.subset held)

end Models.DefaultsFrom

namespace RepairPlan

/-- When all models are resolved they stand under their names, with no other defaults. -/
theorem defaultsFrom_resolveAll (scanned : Models) (report : RepairReport) (names : List String) :
    Models.DefaultsFrom scanned
      (names.foldl (resolveOne system) (pruneAll system scanned report)).models := by
  -- Pruning filters the fields, and with them their defaults.
  have pruned : Models.DefaultsFrom scanned (pruneAll system scanned report).models := by
    refine ⟨fun name => ?_, fun name model found => ?_⟩
    · rw [find?_pruneAll, Option.isSome_map]
    · rw [find?_pruneAll] at found
      obtain ⟨before, listed, rfl⟩ := Option.map_eq_some_iff.mp found
      exact ⟨before, listed, List.filter_sublist.filterMap _⟩
  refine models_resolveAll_induction (Models.DefaultsFrom scanned) pruned
    (fun models name model resolved held found done => ?_) names
  obtain ⟨named, fewer⟩ := Context.of_resolve done
  exact held.insert found (named.trans (Roster.name_of_find? found)) fewer

/-- A repair keeps all models under their names and brings them no defaults. -/
theorem defaultsFrom_repair (system : SystemModels) (scanned : Models) (report : RepairReport) :
    Models.DefaultsFrom scanned (repair system scanned report).models := by
  -- To resolve brings in no defaults, so it is left to mend, and a counterpart has none.
  refine models_mendAll_induction (Models.DefaultsFrom scanned)
    (fun models name fieldName field relation target held awaits => ?_) _
    (defaultsFrom_resolveAll scanned report _)
  exact held.insert awaits.found (Roster.name_of_find? awaits.found)
    (Model.defaults_upsertCounterpart _ _ _ rfl)

end RepairPlan

end ModelCatalog
