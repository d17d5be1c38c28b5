import ModelCatalog.Proofs.Rejection
import ModelCatalog.Proofs.TornGraph

/-! Recovery: what a repair makes of the graph after a change that was refused on its way. -/

namespace ModelCatalog

open WritePlan RepairPlan

variable {system : SystemModels}

/-- Whether a graph is fit to be mended depends on the outlines of its models. -/
theorem Mendable.of_outline {known other : Models} (mendable : Mendable system known)
    (same : ∀ name, (other.find? name).map Model.outline = (known.find? name).map Model.outline) :
    Mendable system other := by
  -- Each model has a twin of its outline in the known graph, and what is asked of it carries over.
  have tidy : ∀ name model, other.find? name = some model → model.Tidy system := by
    intro name model found
    obtain ⟨before, stored, named, outline⟩ := Models.exists_twin same found
    exact (mendable.tidy name before stored).of_outline named.symm outline.symm
  refine ⟨?_, tidy, ?_, ?_⟩
  · -- The names are the same.
    intro name model found
    obtain ⟨before, stored, -⟩ := Models.exists_twin same found
    exact mendable.inCatalog name before stored
  · -- Two relations with one target and one inverse name have twins of which that is true as well.
    intro name model found one onePresent two twoPresent relation again related relatedAgain out
      sameTarget sameInverse
    obtain ⟨before, stored, named, outline⟩ := Models.exists_twin same found
    obtain ⟨first, firstPresent, firstAlike⟩ := Model.exists_of_outline_eq outline.symm onePresent
    obtain ⟨second, secondPresent, secondAlike⟩ :=
      Model.exists_of_outline_eq outline.symm twoPresent
    have equal := mendable.unambiguous name before stored first firstPresent second secondPresent
      relation again ((Field.relation?_eq_of_outline_eq firstAlike).trans related)
      ((Field.relation?_eq_of_outline_eq secondAlike).trans relatedAgain) (named ▸ out) sameTarget
      sameInverse
    -- Fields of one outline bear one name, and names are apart.
    have sameName : two.name = one.name := by
      have firstName : first.name = one.name := congrArg Prod.fst firstAlike
      have secondName : second.name = two.name := congrArg Prod.fst secondAlike
      rw [← firstName, ← secondName, equal]
    exact Model.eq_of_name_eq (tidy name model found).distinct twoPresent onePresent sameName
  · -- What the twin leads to is there, and so is its own twin.
    intro name model found field present relation related out
    obtain ⟨before, stored, -, outline⟩ := Models.exists_twin same found
    obtain ⟨earlier, earlierPresent, alike⟩ := Model.exists_of_outline_eq outline.symm present
    obtain ⟨target, targetStored⟩ := mendable.stored name before stored earlier earlierPresent
      relation ((Field.relation?_eq_of_outline_eq alike).trans related) out
    obtain ⟨after, afterStored, -⟩ :=
      Models.exists_twin (fun other => (same other).symm) targetStored
    exact ⟨after, afterStored⟩

/-- A graph in which relations to other models have mates but for those that are excused, by their
source, their target and the name they claim there. -/
structure Recovered (system : SystemModels) (excused : String → String → String → Prop)
    (known : Models) : Prop where
  mendable : Mendable system known
  mated : ∀ name model, known.find? name = some model → ∀ field ∈ model.fields,
    ∀ relation, field.relation? = some relation → leadsOut system name relation →
      (∃ target, known.find? relation.target = some target ∧ target.HasMate name field) ∨
        excused name relation.target (field.counterpartName name)

variable {excused : String → String → String → Prop}

/-- Whether a graph is recovered depends on the outlines of its models. -/
theorem Recovered.of_outline {known other : Models} (recovered : Recovered system excused known)
    (same : ∀ name, (other.find? name).map Model.outline = (known.find? name).map Model.outline) :
    Recovered system excused other := by
  refine ⟨recovered.mendable.of_outline same, ?_⟩
  -- The relation stands in the twin, and its mate or its excuse with it.
  intro name model found field present relation related out
  obtain ⟨before, stored, -, outline⟩ := Models.exists_twin same found
  obtain ⟨earlier, earlierPresent, alike⟩ := Model.exists_of_outline_eq outline.symm present
  have held := (Field.relation?_eq_of_outline_eq alike).trans related
  rcases recovered.mated name before stored earlier earlierPresent relation held out with
    ⟨target, targetStored, mated⟩ | excuse
  · obtain ⟨after, afterStored, afterName, afterOutline⟩ :=
      Models.exists_twin (fun other => (same other).symm) targetStored
    exact Or.inl ⟨after, afterStored, mated.of_outline afterName afterOutline alike.symm⟩
  · refine Or.inr ?_
    rw [Field.counterpartName_eq related, ← Field.counterpartName_eq held]
    exact excuse

/-- A repair recovers a graph where no claim was denied but those that are excused. -/
theorem Repaired.recovered {start final : Models} (repaired : Repaired system start final)
    (excuses : ∀ source target name, target ≠ source → system.contains target = false →
      start.Denies source target name → excused source target name) :
    Recovered system excused final := by
  refine ⟨repaired.mendable, fun name model found field present relation related out => ?_⟩
  -- What a repair does not mate was denied to it, and that is excused.
  rcases repaired.settled name model found field present relation related out with mated | denied
  · exact Or.inl mated
  · exact Or.inr (excuses name relation.target _ out.1 out.2 denied)

/-- A repair recovers a symmetric graph without any excuse. -/
theorem Symmetric.recovered {known final : Models} (symmetric : Symmetric system known)
    (repaired : Repaired system known final) : Recovered system excused final :=
  -- In a symmetric graph every claim is met, so that none has to be excused.
  repaired.recovered fun _ _ _ apart inCatalog denied =>
    absurd (symmetric.hasRelation_of_hasClaim apart inCatalog denied.claimed) denied.unmet

/-! ## Torn graphs -/

/-- A claim on a model is excused where the version of it that stays has a field of the name that
leads elsewhere than to the claimant. -/
def Blocked (subject : String) (kept : Option Model) (source target name : String) : Prop :=
  target = subject ∧ ∃ model, kept = some model ∧
    ∃ bar ∈ model.fields, bar.name = name ∧ bar.targets source = false

namespace WritePlan.Sound

variable {context : Context} {old : Option Record} {plan : WritePlan} {touched : List String}

/-- A repair recovers a torn graph, but for claims on the source that are blocked there. -/
theorem recovered_torn (sound : plan.Sound context old)
    (symmetric : Symmetric context.system context.known)
    (stored : context.known.find? plan.definition.name = old.map Record.definition)
    (unwritten : plan.definition.name ∉ touched) (report : RepairReport) :
    Recovered context.system (Blocked plan.definition.name (old.map Record.definition))
        (repair context.system (sound.torn touched) report).models ∧
      ∀ name, ((repair context.system (sound.torn touched) report).models.find? name).isSome =
        ((sound.torn touched).find? name).isSome := by
  -- A version that stays may block claims, and where there is none nothing does.
  cases isOld : old.map Record.definition with
  | some kept =>
    have isStored := stored.trans isOld
    have mendable := sound.mendable_torn symmetric stored isStored unwritten
    have repaired := repaired_of_mendable (mendable.pruneAll_eq report) mendable
    refine ⟨repaired.recovered fun source target name apart inCatalog denied => ?_, repaired.same⟩
    obtain ⟨own, bar⟩ := sound.of_denied symmetric isStored isOld unwritten apart inCatalog denied
    exact ⟨own, kept, rfl, bar⟩
  | none =>
    have missing := stored.trans isOld
    cases inCatalog : context.system.contains plan.definition.name with
    -- A system model is no target, so the torn graph is symmetric as it stands.
    | true =>
      have left := sound.symmetric_torn symmetric inCatalog unwritten
      have repaired := repaired_of_mendable (left.mendable.pruneAll_eq report) left.mendable
      exact ⟨left.recovered repaired, repaired.same⟩
    | false =>
      -- What was added for a source that never came is pruned again.
      have repaired := repaired_of_mendable
        (@pruneAll_torn context old plan touched sound symmetric missing inCatalog report)
        symmetric.mendable
      refine ⟨symmetric.recovered repaired, fun name => ?_⟩
      rw [repaired.same, find?_torn, Option.isSome_map]

end WritePlan.Sound

/-! ## Catalogs -/

namespace Catalog

variable {configuration : Configuration} {catalog : Catalog} {old : Option Record}
  {plan : WritePlan}

/-- Some edits of a sound plan leave a torn graph. -/
theorem models_propagated (sound : plan.Sound (configuration.context catalog) old)
    {done : List TargetEdit} (listed : done.Sublist plan.edits) (now : Nat) :
    (catalog.propagated plan.definition.name now done).models =
      sound.torn (done.map TargetEdit.target) := by
  -- The propagated edits are those that tear the graph, name by name.
  refine Roster.eq_of_find? fun name => ?_
  rw [find?_models, sound.find?_torn, Configuration.find?_context]
  cases stored : catalog.definition? name with
  | none => exact definition?_propagated_of_missing sound listed stored
  | some before => exact definition?_propagated sound listed stored

/-- The source of a sound plan is none of its targets. -/
theorem notMem_targets (sound : plan.Sound (configuration.context catalog) old)
    {done : List TargetEdit} (listed : done.Sublist plan.edits) :
    plan.definition.name ∉ done.map TargetEdit.target :=
  -- What is listed is among the edits of the plan, and none of these leads to the source.
  fun isTarget => sound.notMem_targets ((listed.map TargetEdit.target).subset isTarget)

/-- A repair of a catalog recovers its graph when the repair of its definitions does. -/
theorem recovered_reconciled {excused : String → String → String → Prop} {system : SystemModels}
    (recovered : Recovered system excused (catalog.repairedModels system))
    (same : ∀ name, ((catalog.repairedModels system).find? name).isSome =
      (catalog.definition? name).isSome) (now : Nat) :
    Recovered system excused (catalog.reconciled system now).models := by
  -- Reconciliation leaves each model with the outline of its repaired definition.
  refine recovered.of_outline fun name => ?_
  rw [find?_models]
  exact outline_reconciled same now name

/-- A repair recovers a catalog in which some edits of a write are done, but for claims on the
source that are blocked there. -/
theorem recovered_propagated (sound : plan.Sound (configuration.context catalog) old)
    (symmetric : Symmetric configuration.system catalog.models)
    (stored : catalog.find? plan.definition.name = old) {done : List TargetEdit}
    (listed : done.Sublist plan.edits) (before now : Nat) :
    Recovered configuration.system (Blocked plan.definition.name (old.map Record.definition))
      ((catalog.propagated plan.definition.name before done).reconciled configuration.system
        now).models := by
  -- The catalog and the context know the same version of the source.
  have known : (configuration.context catalog).known.find? plan.definition.name =
      old.map Record.definition := by
    rw [Configuration.find?_context, definition?, stored]
  obtain ⟨recovered, same⟩ := sound.recovered_torn symmetric known
    (notMem_targets sound listed) (.untouched
      (catalog.propagated plan.definition.name before done).members.length)
  rw [← models_propagated sound listed before] at recovered same
  refine recovered_reconciled recovered (fun name => ?_) now
  rw [← find?_models]
  exact same name

/-- A repair recovers a catalog with a symmetric graph. -/
theorem recovered_of_symmetric {excused : String → String → String → Prop}
    {system : SystemModels} (symmetric : Symmetric system catalog.models) (now : Nat) :
    Recovered system excused (catalog.reconciled system now).models := by
  -- A symmetric graph is mendable, and pruning leaves it as it is.
  have repaired := repaired_of_mendable
    (symmetric.mendable.pruneAll_eq (.untouched catalog.members.length)) symmetric.mendable
  refine recovered_reconciled (symmetric.recovered repaired) (fun name => ?_) now
  rw [← find?_models]
  exact repaired.same name

end Catalog

end ModelCatalog
