import ModelCatalog.Proofs.Mending
import ModelCatalog.Proofs.SelfRepair

/-! Repair: what it makes of a graph fit to be mended, and that a symmetric graph stays so. -/

namespace ModelCatalog

open WritePlan RepairPlan

variable {system : SystemModels}

/-! ## Pruning -/

namespace RepairPlan

variable {scanned : Models}

/-- A relation leads somewhere when, if it leads to another model of the catalog, that is there. -/
theorem leadsSomewhere_iff {name : String} {field : Field} {relation : Relation}
    (related : field.relation? = some relation) :
    leadsSomewhere system scanned name field = true ↔
      (leadsOut system name relation → ∃ target, scanned.find? relation.target = some target) := by
  simp only [leadsSomewhere, related, leadsOut, Bool.or_eq_true, beq_iff_eq, Roster.contains_eq,
    Option.isSome_iff_exists]
  -- Two of the three ways to lead somewhere are excluded for a relation that leads out.
  constructor
  · rintro ((own | outside) | there) ⟨differ, inCatalog⟩
    · exact absurd own differ
    · exact absurd (inCatalog.symm.trans outside) Bool.false_ne_true
    · exact there
  · intro there
    by_cases own : relation.target = name
    · exact Or.inl (Or.inl own)
    · cases outside : system.contains relation.target with
      | true => exact Or.inl (Or.inr rfl)
      | false => exact Or.inr (there ⟨own, outside⟩)

/-- A field leads somewhere when the model is there that it may relate to. -/
theorem leadsSomewhere_of_stored {name : String} {field : Field}
    (stored : ∀ relation, field.relation? = some relation → leadsOut system name relation →
      ∃ target, scanned.find? relation.target = some target) :
    leadsSomewhere system scanned name field = true := by
  -- A field without a relation is always kept.
  cases related : field.relation? with
  | none => simp [leadsSomewhere, related]
  | some relation => exact (leadsSomewhere_iff related).mpr (stored relation related)

/-- What is found after pruning are the pruned models. -/
theorem find?_pruneAll (scanned : Models) (report : RepairReport) (name : String) :
    (pruneAll system scanned report).models.find? name =
      (scanned.find? name).map (prune system scanned) :=
  -- Pruning keeps the name of a model.
  Roster.find?_map (prune system scanned) (fun _ => rfl) scanned name

/-- Models are not pruned when all their relations lead somewhere. -/
theorem pruneAll_eq_self
    (leads : ∀ name model, scanned.find? name = some model → ∀ field ∈ model.fields,
      leadsSomewhere system scanned name field = true) (report : RepairReport) :
    pruneAll system scanned report = ⟨scanned, report⟩ := by
  -- When every field is kept the models are the same, and nothing is counted as lost.
  have whole : ∀ model ∈ scanned.members, prune system scanned model = model := by
    intro model listed
    -- A relation that leads somewhere is one that pruning keeps.
    have kept : model.fields.filter (leadsSomewhere system scanned model.name) = model.fields :=
      List.filter_eq_self.mpr (leads model.name model (Roster.mem_iff_find?.mp listed))
    rw [prune, kept]
  have none_lost : (scanned.members.map fun model =>
      model.fields.length - (prune system scanned model).fields.length).foldl (· + ·) 0 = 0 := by
    rw [← List.sum_eq_foldl_nat, List.sum_eq_zero_iff_forall_eq_nat]
    intro count counted
    obtain ⟨model, listed, rfl⟩ := List.mem_map.mp counted
    rw [whole model listed, Nat.sub_self]
  -- The models are told apart by what is found under a name.
  have same : (pruneAll system scanned report).models = scanned := by
    refine Roster.eq_of_find? fun name => ?_
    rw [find?_pruneAll]
    cases found : scanned.find? name with
    | none => rfl
    | some model => rw [Option.map_some, whole model (Roster.mem_of_find? found)]
  unfold pruneAll at same ⊢
  simp only [none_lost, Nat.add_zero] at same ⊢
  rw [same]

end RepairPlan

/-- A graph fit to be mended is not pruned. -/
theorem Mendable.pruneAll_eq {scanned : Models} (mendable : Mendable system scanned)
    (report : RepairReport) : (pruneAll system scanned report).models = scanned := by
  -- Nothing is lost where every relation leads to a model that is there.
  refine congrArg Progress.models
    (pruneAll_eq_self (fun name model found field present => ?_) report)
  exact leadsSomewhere_of_stored (mendable.stored name model found field present)

/-! ## Resolution -/

namespace Models.RepairedFrom

variable {before after : Models}

/-- The relations to others are those from before. -/
theorem mem_of_targets (repaired : Models.RepairedFrom system before after) {name target : String}
    (apart : name ≠ target) {model : Model} (found : after.find? name = some model) :
    ∃ earlier, before.find? name = some earlier ∧ ∀ field : Field, field.targets target = true →
      (field ∈ model.fields ↔ field ∈ earlier.fields) := by
  obtain ⟨earlier, inBefore, step⟩ := repaired.exists_before found
  -- A repair of a model only changes its relations to itself.
  refine ⟨earlier, inBefore, fun field targets => step.mem_iff ?_⟩
  have own : earlier.name = name := Roster.name_of_find? inBefore
  exact Field.not_targets_of_ne targets (own ▸ Ne.symm apart)

/-- A relation to another model is one from before. -/
theorem hasRelation_iff (repaired : Models.RepairedFrom system before after)
    {holder target name : String} (apart : holder ≠ target) :
    after.HasRelation holder target name ↔ before.HasRelation holder target name := by
  -- The model is found before and after, and has the same relations to the target.
  constructor
  · rintro ⟨model, found, field, present, targets, named⟩
    obtain ⟨earlier, inBefore, same⟩ := repaired.mem_of_targets apart found
    exact ⟨earlier, inBefore, field, (same field targets).mp present, targets, named⟩
  · rintro ⟨earlier, inBefore, field, present, targets, named⟩
    obtain ⟨model, found, -⟩ := repaired.found holder earlier inBefore
    obtain ⟨again, inBeforeAgain, same⟩ := repaired.mem_of_targets apart found
    rw [inBefore, Option.some.injEq] at inBeforeAgain
    subst inBeforeAgain
    exact ⟨model, found, field, (same field targets).mpr present, targets, named⟩

/-- A claim on another model is one from before. -/
theorem hasClaim_of_hasClaim (repaired : Models.RepairedFrom system before after)
    {holder target name : String} (apart : holder ≠ target)
    (claim : after.HasClaim holder target name) : before.HasClaim holder target name := by
  -- A repaired model has the relations to others that it had before.
  obtain ⟨model, found, field, present, targets, named⟩ := claim
  obtain ⟨earlier, inBefore, same⟩ := repaired.mem_of_targets apart found
  exact ⟨earlier, inBefore, field, (same field targets).mp present, targets, named⟩

/-- A claim that was never to be met could not be met before. -/
theorem denies_of_denies (repaired : Models.RepairedFrom system before after)
    {source target name : String} (apart : source ≠ target)
    (denied : after.Denies source target name) : before.Denies source target name := by
  -- The claim and the field that bars it were there before, and what was unmet stays unmet.
  refine ⟨repaired.hasClaim_of_hasClaim apart denied.claimed,
    fun met => denied.unmet ((repaired.hasRelation_iff (Ne.symm apart)).mpr met), ?_⟩
  rcases denied.taken with ⟨model, found, field, present, named, elsewhere⟩ | ⟨other, differ, away,
    claim⟩
  · obtain ⟨earlier, inBefore, step⟩ := repaired.exists_before found
    obtain ⟨first, inEarlier, sameName, sameTargets⟩ := step.exists_of_mem present
    exact Or.inl ⟨earlier, inBefore, first, inEarlier, sameName.trans named,
      (sameTargets source).trans elsewhere⟩
  · exact Or.inr ⟨other, differ, away, repaired.hasClaim_of_hasClaim away claim⟩

/-- Repairing self-relations leaves a graph fit to be mended. -/
theorem mendable (repaired : Models.RepairedFrom system before after)
    (mendable : Mendable system before) : Mendable system after := by
  -- Relations to others are those of the model before.
  have earlier : ∀ name model, after.find? name = some model → ∃ first,
      before.find? name = some first ∧ model.name = name ∧ ∀ field ∈ model.fields, ∀ relation,
        field.relation? = some relation → leadsOut system name relation →
          field ∈ first.fields := by
    intro name model found
    obtain ⟨first, inBefore, -⟩ := repaired.exists_before found
    refine ⟨first, inBefore, Roster.name_of_find? found, ?_⟩
    intro field present relation related out
    obtain ⟨again, inBeforeAgain, same⟩ := repaired.mem_of_targets (Ne.symm out.1) found
    rw [inBefore, Option.some.injEq] at inBeforeAgain
    subst inBeforeAgain
    exact (same field (Field.targets_iff.mpr ⟨relation, related, rfl⟩)).mp present
  refine ⟨?_, repaired.tidy, ?_, ?_⟩
  · -- Each name of the catalog was that of a model before.
    intro name model found
    obtain ⟨first, inBefore, -⟩ := earlier name model found
    exact mendable.inCatalog name first inBefore
  · -- Two relations out of a model were two relations out of the first one.
    intro name model found one onePresent other otherPresent relation again related relatedAgain
      out sameTarget sameInverse
    obtain ⟨first, inBefore, own, within⟩ := earlier name model found
    rw [own] at out
    have firstOwn : first.name = name := Roster.name_of_find? inBefore
    have otherOut : leadsOut system name again := ⟨sameTarget ▸ out.1, sameTarget ▸ out.2⟩
    exact mendable.unambiguous name first inBefore one (within one onePresent relation related out)
      other (within other otherPresent again relatedAgain otherOut) relation again related
      relatedAgain (firstOwn ▸ out) sameTarget sameInverse
  · -- The target of a relation was stored, and repairing self-relations loses no model.
    intro name model found field present relation related out
    obtain ⟨first, inBefore, -, within⟩ := earlier name model found
    obtain ⟨target, targetFound⟩ := mendable.stored name first inBefore field
      (within field present relation related out) relation related out
    obtain ⟨next, inAfter, -⟩ := repaired.found _ target targetFound
    exact ⟨next, inAfter⟩

end Models.RepairedFrom

/-! ## Whole repairs -/

/-- What a repair makes of a graph: it is fit to be mended, its models are those there were, and
every relation to another model has a mate there, or claims a name that was never to be had. -/
structure Repaired (system : SystemModels) (start final : Models) : Prop where
  mendable : Mendable system final
  same : ∀ name, (final.find? name).isSome = (start.find? name).isSome
  settled : ∀ name model, final.find? name = some model → ∀ field ∈ model.fields,
    ∀ relation, field.relation? = some relation → leadsOut system name relation →
      (∃ target, final.find? relation.target = some target ∧ target.HasMate name field) ∨
        start.Denies name relation.target (field.counterpartName name)

/-- A repair repairs what pruning leaves, once that is fit to be mended. -/
theorem RepairPlan.repaired_of_mendable {scanned pruned : Models} {report : RepairReport}
    (isPruned : (pruneAll system scanned report).models = pruned)
    (mendable : Mendable system pruned) :
    Repaired system pruned (repair system scanned report).models := by
  have resolved := @repairedFrom_resolve system scanned.names (pruneAll system scanned report)
    (isPruned ▸ mendable.tidy)
  rw [isPruned] at resolved
  generalize reached : scanned.names.foldl (resolveOne system) (pruneAll system scanned report) =
    middle at resolved
  -- The names that have their turn are those of the models, before and after the resolution.
  have listed : ∀ name, name ∈ scanned.names ↔ (middle.models.find? name).isSome = true := by
    intro name
    have kept : (middle.models.find? name).isSome = (pruned.find? name).isSome := by
      cases found : pruned.find? name with
      | none => rw [resolved.missing name found]
      -- Resolution files models under names that are there, and pruning keeps the names.
      | some model =>
        obtain ⟨next, inMiddle, -⟩ := resolved.found name model found
        rw [inMiddle]
        rfl
    rw [kept, ← isPruned, find?_pruneAll, Option.isSome_map, ← Roster.contains_eq, Roster.names,
      List.mem_map, Roster.contains, List.any_eq_true]
    simp
  -- Every model has its turn once, and behind its turn its relations are settled.
  have mending := (Mending.refl (resolved.mendable mendable)).run scanned.names
    (Roster.names_nodup scanned) (by simp) fun name member => (listed name).mp member
  have whole : (repair system scanned report).models =
      (scanned.names.foldl (mendOne system) middle).models := by
    rw [repair, reached]
  rw [whole]
  -- What mending gives is stated of the models in the middle, and these are repaired from the
  -- pruned ones.
  refine ⟨mending.mendable, fun name => ?_, ?_⟩
  · rw [mending.same]
    cases found : pruned.find? name with
    | none => rw [resolved.missing name found]
    | some model =>
      obtain ⟨next, inMiddle, -⟩ := resolved.found name model found
      rw [inMiddle]
      rfl
  · intro name model found field present relation related out
    have had : name ∈ scanned.names.reverse ++ [] := by
      rw [List.append_nil, List.mem_reverse, listed, ← mending.same, found]
      rfl
    rcases mending.settled name had model found field present relation related out with
      mated | denied
    · exact Or.inl mated
    · exact Or.inr (resolved.denies_of_denies (Ne.symm out.1) denied)

/-! ## Symmetric graphs -/

/-- A symmetric graph is fit to be mended. -/
theorem Symmetric.mendable {known : Models} (symmetric : Symmetric system known) :
    Mendable system known := by
  refine ⟨symmetric.inCatalog, symmetric.tidy, ?_, ?_⟩
  · -- Two relations that share a target and an inverse name have mates there.
    intro name model found one onePresent other otherPresent relation again related relatedAgain
      out sameTarget sameInverse
    have own : model.name = name := Roster.name_of_find? found
    subst own
    obtain ⟨target, targetFound, mate, matePresent, mates⟩ :=
      symmetric.mated _ model found one onePresent relation related out
    obtain ⟨targetAgain, targetFoundAgain, twin, twinPresent, twinMates⟩ := symmetric.mated _ model
      found other otherPresent again relatedAgain ⟨sameTarget ▸ out.1, sameTarget ▸ out.2⟩
    rw [sameTarget, targetFound, Option.some.injEq] at targetFoundAgain
    subst targetFoundAgain
    -- The mates bear the one inverse name, so they are one field, and its inverse name is one.
    have named : twin.name = mate.name := by
      rw [← mates.counterpartName model.name, ← twinMates.counterpartName model.name,
        Field.counterpartName_eq related, Field.counterpartName_eq relatedAgain, sameInverse]
    have same := Model.eq_of_name_eq (symmetric.tidy _ target targetFound).distinct twinPresent
      matePresent named
    subst same
    refine Model.eq_of_name_eq (symmetric.tidy _ model found).distinct otherPresent onePresent ?_
    rw [← mates.symm.counterpartName model.name, ← twinMates.symm.counterpartName model.name]
  · intro name model found field present relation related out
    obtain ⟨target, targetFound, -⟩ :=
      symmetric.mated name model found field present relation related out
    exact ⟨target, targetFound⟩

/-- In a symmetric graph every claim on another model of the catalog is met. -/
theorem Symmetric.hasRelation_of_hasClaim {known : Models} (symmetric : Symmetric system known)
    {source target name : String} (apart : target ≠ source)
    (inCatalog : system.contains target = false) (claim : known.HasClaim source target name) :
    known.HasRelation target source name := by
  obtain ⟨model, found, field, present, targets, named⟩ := claim
  -- The relation of the claim is mated, and its mate leads back under the name that is claimed.
  obtain ⟨relation, related, leads⟩ := Field.targets_iff.mp targets
  subst leads
  obtain ⟨other, otherFound, mate, matePresent, mates⟩ :=
    symmetric.mated source model found field present relation related ⟨apart, inCatalog⟩
  refine ⟨other, otherFound, mate, matePresent, mates.symm.targets, ?_⟩
  rw [← named, mates.counterpartName]

/-- A repair leaves a symmetric graph symmetric. -/
theorem Symmetric.repair {known : Models} (symmetric : Symmetric system known)
    (report : RepairReport) :
    Symmetric system (RepairPlan.repair system known report).models := by
  -- Nothing is denied in a symmetric graph, where all claims are met.
  have repaired := repaired_of_mendable (symmetric.mendable.pruneAll_eq report) symmetric.mendable
  refine ⟨repaired.mendable.inCatalog, repaired.mendable.tidy, ?_⟩
  intro name model found field present relation related out
  rcases repaired.settled name model found field present relation related out with mated | denied
  · exact mated
  · exact absurd (symmetric.hasRelation_of_hasClaim out.1 out.2 denied.claimed) denied.unmet

end ModelCatalog
