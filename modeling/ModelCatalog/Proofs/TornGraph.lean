import ModelCatalog.Proofs.GraphSteps
import ModelCatalog.Proofs.Repair

/-! Torn graphs: what a write leaves behind that stops between two of its targets, and what a repair
makes of it. -/

namespace ModelCatalog

open WritePlan RepairPlan

namespace WritePlan.Sound

variable {context : Context} {old : Option Record} {plan : WritePlan} {touched : List String}

/-- The known models when some targets are revised and the source is not written. -/
def torn (sound : plan.Sound context old) (touched : List String) : Models :=
  context.known.map (fun target => if target.name ∈ touched then sound.after target else target)
    fun target => by
      split
      · exact name_revised _ _ _ target
      · rfl

/-- In a torn graph some models are revised. -/
theorem find?_torn (sound : plan.Sound context old) (name : String) :
    (sound.torn touched).find? name = (context.known.find? name).map fun target =>
      if name ∈ touched then sound.after target else target := by
  -- Each model is revised by its own name, which is the one it is found under.
  rw [torn, Roster.find?_map]
  cases found : context.known.find? name with
  | none => rfl
  | some target =>
    have own : target.name = name := Roster.name_of_find? found
    rw [Option.map_some, Option.map_some, own]

/-- A model of a torn graph is revised or as it was. -/
theorem of_find?_torn (sound : plan.Sound context old) {name : String} {model : Model}
    (found : (sound.torn touched).find? name = some model) :
    ∃ before, context.known.find? name = some before ∧ before.name = name ∧
      (name ∈ touched ∧ model = sound.after before ∨ name ∉ touched ∧ model = before) := by
  -- Whether the name is touched tells the two apart.
  rw [find?_torn] at found
  obtain ⟨before, known, made⟩ := Option.map_eq_some_iff.mp found
  refine ⟨before, known, Roster.name_of_find? known, ?_⟩
  split at made
  · exact Or.inl ⟨‹_›, made.symm⟩
  · exact Or.inr ⟨‹_›, made.symm⟩

/-- Fields that lead elsewhere than to the source are those from before. -/
theorem mem_torn_iff (sound : plan.Sound context old) {name : String} {model before : Model}
    (found : (sound.torn touched).find? name = some model)
    (known : context.known.find? name = some before) {field : Field}
    (elsewhere : field.targets plan.definition.name = false) :
    field ∈ model.fields ↔ field ∈ before.fields := by
  -- A revised model differs from the one before in fields to the source only.
  obtain ⟨again, knownAgain, -, ⟨-, rfl⟩ | ⟨-, rfl⟩⟩ := sound.of_find?_torn found
  · rw [known, Option.some.injEq] at knownAgain
    subst knownAgain
    exact sound.mem_after_of_not_targets elsewhere
  · rw [known, Option.some.injEq] at knownAgain
    rw [knownAgain]

/-- Relations to other models than the source are those from before. -/
theorem hasRelation_torn_iff (sound : plan.Sound context old) {holder target name : String}
    (differ : target ≠ plan.definition.name) :
    (sound.torn touched).HasRelation holder target name ↔
      context.known.HasRelation holder target name := by
  -- A model of either graph is there in the other, with the same such fields.
  constructor
  · rintro ⟨model, found, field, present, targets, named⟩
    obtain ⟨before, known, -⟩ := sound.of_find?_torn found
    exact ⟨before, known, field,
      (sound.mem_torn_iff found known (Field.not_targets_of_ne targets differ)).mp present, targets,
      named⟩
  · rintro ⟨before, known, field, present, targets, named⟩
    have found := @find?_torn context old plan touched sound holder
    rw [known, Option.map_some] at found
    exact ⟨_, found, field,
      (sound.mem_torn_iff found known (Field.not_targets_of_ne targets differ)).mpr present,
      targets, named⟩

/-- Claims on other models than the source are those from before. -/
theorem hasClaim_of_torn (sound : plan.Sound context old) {holder target name : String}
    (differ : target ≠ plan.definition.name)
    (claim : (sound.torn touched).HasClaim holder target name) :
    context.known.HasClaim holder target name := by
  -- A field that leads elsewhere than to the source was there before the edits.
  obtain ⟨model, found, field, present, targets, named⟩ := claim
  obtain ⟨before, known, -⟩ := sound.of_find?_torn found
  exact ⟨before, known, field,
    (sound.mem_torn_iff found known (Field.not_targets_of_ne targets differ)).mp present, targets,
    named⟩

/-- A claim on the source is one from before, or it is that of a mate of the new version. -/
theorem claim_on_source (sound : plan.Sound context old)
    (symmetric : Symmetric context.system context.known)
    (stored : context.known.find? plan.definition.name = old.map Record.definition)
    (inCatalog : context.system.contains plan.definition.name = false) {holder name : String}
    (apart : holder ≠ plan.definition.name)
    (claim : (sound.torn touched).HasClaim holder plan.definition.name name) :
    context.known.HasClaim holder plan.definition.name name ∨
      ∃ field ∈ plan.definition.fields, field.name = name ∧ field.targets holder = true := by
  -- On a revised target all that leads to the source was put there by the write.
  obtain ⟨model, found, mate, present, targets, named⟩ := claim
  obtain ⟨before, known, rfl, ⟨-, rfl⟩ | ⟨-, rfl⟩⟩ := sound.of_find?_torn found
  · obtain ⟨field, inSource, -, -, -, -, mates⟩ := sound.exists_mate_of_mem_after symmetric stored
      inCatalog known apart present targets
    refine Or.inr ⟨field, inSource, ?_, mates.targets⟩
    rw [← named, mates.symm.counterpartName]
  · exact Or.inl ⟨_, known, mate, present, targets, named⟩

/-- Between other models than the source no claim is denied in a torn graph. -/
theorem not_denied_of_ne (sound : plan.Sound context old)
    (symmetric : Symmetric context.system context.known) {source target name : String}
    (differ : target ≠ plan.definition.name) (apart : target ≠ source)
    (inCatalog : context.system.contains target = false) :
    ¬(sound.torn touched).Denies source target name := by
  -- The claim was met before, by a relation that is still there unless it led to the source.
  intro denied
  have met := symmetric.hasRelation_of_hasClaim apart inCatalog
    (sound.hasClaim_of_torn differ denied.claimed)
  by_cases own : source = plan.definition.name
  · -- A relation back to the source was there before, so nothing else has its name.
    subst own
    obtain ⟨before, known, field, present, targets, named⟩ := met
    have distinct := (symmetric.tidy _ before known).distinct
    rcases denied.taken with ⟨model, found, taker, inModel, sameName, elsewhere⟩ | ⟨other, away,
      notTarget, claim⟩
    · have earlier := (sound.mem_torn_iff found known elsewhere).mp inModel
      have same := Model.eq_of_name_eq distinct earlier present (sameName.trans named.symm)
      rw [same, targets] at elsewhere
      cases elsewhere
    · obtain ⟨again, knownAgain, rival, rivalPresent, rivalTargets, rivalNamed⟩ :=
        symmetric.hasRelation_of_hasClaim (Ne.symm notTarget) inCatalog
          (sound.hasClaim_of_torn differ claim)
      rw [known, Option.some.injEq] at knownAgain
      subst knownAgain
      have same := Model.eq_of_name_eq distinct rivalPresent present (rivalNamed.trans named.symm)
      have elsewhere := Field.not_targets_of_ne rivalTargets away
      rw [same, targets] at elsewhere
      cases elsewhere
  · exact denied.unmet ((sound.hasRelation_torn_iff own).mpr met)

/-- In a torn graph a claim is denied only on the source, where the version that stays has a field
of the name that leads elsewhere. -/
theorem of_denied (sound : plan.Sound context old)
    (symmetric : Symmetric context.system context.known) {kept : Model}
    (stored : context.known.find? plan.definition.name = some kept)
    (isOld : old.map Record.definition = some kept)
    (unwritten : plan.definition.name ∉ touched) {source target name : String}
    (apart : target ≠ source) (inCatalog : context.system.contains target = false)
    (denied : (sound.torn touched).Denies source target name) :
    target = plan.definition.name ∧
      ∃ bar ∈ kept.fields, bar.name = name ∧ bar.targets source = false := by
  -- Only on the source can the two sides disagree, since it alone was not written.
  by_cases differ : target = plan.definition.name
  · subst differ
    refine ⟨rfl, ?_⟩
    have sourceDiffers : source ≠ plan.definition.name := Ne.symm apart
    have found : (sound.torn touched).find? plan.definition.name = some kept := by
      rw [find?_torn, stored, Option.map_some, if_neg unwritten]
    -- The version that stays is the old one of the plan.
    have old_eq := stored.trans isOld.symm
    rcases sound.claim_on_source symmetric old_eq inCatalog sourceDiffers denied.claimed with
      claim | ⟨field, inNew, named, targets⟩
    · -- A claim from before was met, and the source is as it was.
      have met := symmetric.hasRelation_of_hasClaim apart inCatalog claim
      exact absurd ((sound.hasRelation_torn_iff sourceDiffers).mpr met) denied.unmet
    · rcases denied.taken with ⟨model, foundAgain, bar, present, sameName, elsewhere⟩ |
        ⟨other, away, otherDiffers, claim⟩
      · rw [found, Option.some.injEq] at foundAgain
        subst foundAgain
        exact ⟨bar, present, sameName, elsewhere⟩
      · rcases sound.claim_on_source symmetric old_eq inCatalog otherDiffers claim with
          before | ⟨rival, rivalInNew, rivalNamed, rivalTargets⟩
        · -- The name is that of a relation to a third model in the version that stays.
          obtain ⟨again, storedAgain, bar, present, leads, sameName⟩ :=
            symmetric.hasRelation_of_hasClaim (Ne.symm otherDiffers) inCatalog before
          rw [stored, Option.some.injEq] at storedAgain
          subst storedAgain
          exact ⟨bar, present, sameName, Field.not_targets_of_ne leads away⟩
        · -- No two relations of the new version have one name.
          have same := Model.eq_of_name_eq sound.admitted.distinct rivalInNew inNew
            (rivalNamed.trans named.symm)
          have elsewhere := Field.not_targets_of_ne rivalTargets away
          rw [same, targets] at elsewhere
          cases elsewhere
  · exact absurd denied (sound.not_denied_of_ne symmetric differ apart inCatalog)

/-- The models of a torn graph are tidy. -/
theorem tidy_torn (sound : plan.Sound context old)
    (symmetric : Symmetric context.system context.known)
    (unwritten : plan.definition.name ∉ touched) {name : String} {model : Model}
    (found : (sound.torn touched).find? name = some model) : model.Tidy context.system := by
  -- The source itself is not revised, so a revised model is another one.
  obtain ⟨before, known, rfl, ⟨isTouched, rfl⟩ | ⟨-, rfl⟩⟩ := sound.of_find?_torn found
  · refine sound.tidy_after known ?_ (symmetric.tidy _ before known)
    exact fun same => unwritten (same ▸ isTouched)
  · exact symmetric.tidy _ _ known

/-- The fields of a revised target that lead to the source are mates of relations of the new
version, and each is the mate of one that it inverts to, so no two invert to the same field. -/
theorem unambiguous_revised (sound : plan.Sound context old)
    (symmetric : Symmetric context.system context.known)
    (stored : context.known.find? plan.definition.name = old.map Record.definition)
    (inCatalog : context.system.contains plan.definition.name = false) {before : Model}
    (known : context.known.find? before.name = some before)
    (differ : before.name ≠ plan.definition.name)
    (distinct : ((sound.after before).fields.map Field.name).Nodup) {one other : Field}
    (onePresent : one ∈ (sound.after before).fields)
    (otherPresent : other ∈ (sound.after before).fields) {relation again : Relation}
    (related : one.relation? = some relation) (relatedAgain : other.relation? = some again)
    (back : relation.target = plan.definition.name) (sameTarget : again.target = relation.target)
    (sameInverse : again.inverseName = relation.inverseName) : other = one := by
  -- Both fields are mates of relations of the new version, and of one of them.
  have mateOf : ∀ field ∈ (sound.after before).fields, ∀ held, field.relation? = some held →
      held.target = plan.definition.name → ∃ origin ∈ plan.definition.fields,
        origin.Mates plan.definition.name before.name field := by
    intro field present held heldRelation leads
    obtain ⟨origin, inNew, -, -, -, -, mates⟩ := sound.exists_mate_of_mem_after symmetric stored
      inCatalog known differ present (Field.targets_iff.mpr ⟨held, heldRelation, leads⟩)
    exact ⟨origin, inNew, mates⟩
  obtain ⟨origin, inNew, mates⟩ := mateOf one onePresent relation related back
  obtain ⟨twin, twinInNew, twinMates⟩ := mateOf other otherPresent again relatedAgain
    (sameTarget.trans back)
  -- The inverse name of a mate is the name of its origin, so the two origins have one name.
  have named : twin.name = origin.name := by
    rw [← mates.symm.counterpartName before.name, ← twinMates.symm.counterpartName before.name,
      Field.counterpartName_eq related, Field.counterpartName_eq relatedAgain, sameInverse]
  have same := Model.eq_of_name_eq sound.admitted.distinct twinInNew inNew named
  subst same
  refine Model.eq_of_name_eq distinct otherPresent onePresent ?_
  rw [← mates.counterpartName before.name, ← twinMates.counterpartName before.name]

/-- The models of a torn graph are unambiguous. -/
theorem unambiguous_torn (sound : plan.Sound context old)
    (symmetric : Symmetric context.system context.known)
    (stored : context.known.find? plan.definition.name = old.map Record.definition)
    (inCatalog : context.system.contains plan.definition.name = false)
    (unwritten : plan.definition.name ∉ touched) {name : String} {model : Model}
    (found : (sound.torn touched).find? name = some model) : model.Unambiguous context.system := by
  intro one onePresent other otherPresent relation again related relatedAgain out sameTarget
    sameInverse
  have distinct := (sound.tidy_torn symmetric unwritten found).distinct
  -- Which relations are ambiguous is decided on the target that they lead to: the source, or
  -- another model.
  obtain ⟨before, known, rfl, cases⟩ := sound.of_find?_torn found
  by_cases back : relation.target = plan.definition.name
  · rcases cases with ⟨isTouched, rfl⟩ | ⟨-, rfl⟩
    · have differ : before.name ≠ plan.definition.name := fun same => unwritten (same ▸ isTouched)
      exact sound.unambiguous_revised symmetric stored inCatalog known differ distinct onePresent
        otherPresent related relatedAgain back sameTarget sameInverse
    · exact symmetric.mendable.unambiguous _ _ known one onePresent other otherPresent relation
        again related relatedAgain out sameTarget sameInverse
  · -- Relations between others than the source are as they were.
    have earlier : ∀ field ∈ model.fields, ∀ held, field.relation? = some held →
        held.target = relation.target → field ∈ before.fields := by
      intro field present held heldRelation leads
      exact (sound.mem_torn_iff found known
        ((Field.not_targets_iff heldRelation).mpr (leads ▸ back))).mp present
    have own : model.name = before.name := Roster.name_of_find? found
    rw [own] at out
    exact symmetric.mendable.unambiguous _ before known one
      (earlier one onePresent relation related rfl) other
      (earlier other otherPresent again relatedAgain sameTarget) relation again related
      relatedAgain out sameTarget sameInverse

/-- A torn graph that holds the source is fit to be mended. -/
theorem mendable_torn (sound : plan.Sound context old)
    (symmetric : Symmetric context.system context.known)
    (stored : context.known.find? plan.definition.name = old.map Record.definition) {kept : Model}
    (isStored : context.known.find? plan.definition.name = some kept)
    (unwritten : plan.definition.name ∉ touched) :
    Mendable context.system (sound.torn touched) := by
  have inCatalog := symmetric.inCatalog _ kept isStored
  refine ⟨?_, fun _ _ => sound.tidy_torn symmetric unwritten,
    fun _ _ => sound.unambiguous_torn symmetric stored inCatalog unwritten, ?_⟩
  · -- A torn graph has the models from before, under their names.
    intro name model found
    obtain ⟨before, known, -⟩ := sound.of_find?_torn found
    exact symmetric.inCatalog name before known
  · -- The source is there, and what leads elsewhere led there before.
    intro name model found field present relation related out
    obtain ⟨before, known, rfl, -⟩ := sound.of_find?_torn found
    have there : ∃ target, context.known.find? relation.target = some target := by
      by_cases back : relation.target = plan.definition.name
      · exact ⟨kept, back ▸ isStored⟩
      · have elsewhere : field.targets plan.definition.name = false :=
          (Field.not_targets_iff related).mpr back
        exact symmetric.mendable.stored _ before known field
          ((sound.mem_torn_iff found known elsewhere).mp present) relation related out
    obtain ⟨target, targetKnown⟩ := there
    rw [find?_torn, targetKnown]
    exact ⟨_, rfl⟩

/-! ## Torn graphs that lack the source -/

/-- Where the source is not there, no known model relates to it. -/
theorem not_targets_of_missing (symmetric : Symmetric context.system context.known)
    (missing : context.known.find? plan.definition.name = none)
    (inCatalog : context.system.contains plan.definition.name = false) {name : String}
    {before : Model} (known : context.known.find? name = some before) {field : Field}
    (present : field ∈ before.fields) : field.targets plan.definition.name = false := by
  have differ : plan.definition.name ≠ name := by
    rintro rfl
    rw [missing] at known
    cases known
  -- A relation to the source would have a mate on it, and there is no source.
  rw [Bool.eq_false_iff]
  intro targets
  obtain ⟨relation, related, leads⟩ := Field.targets_iff.mp targets
  obtain ⟨source, found⟩ := symmetric.mendable.stored name before known field present relation
    related ⟨leads ▸ differ, leads ▸ inCatalog⟩
  rw [leads, missing] at found
  cases found

/-- Where the source is not there, what a model with its relations from before leads to is missing
from a torn graph only when it is the source. -/
theorem leadsSomewhere_torn (sound : plan.Sound context old)
    (symmetric : Symmetric context.system context.known)
    (missing : context.known.find? plan.definition.name = none)
    (inCatalog : context.system.contains plan.definition.name = false) {name : String}
    {before revised : Model} (known : context.known.find? name = some before)
    (others : revised.fields.filter (fun field => !field.targets plan.definition.name) =
      before.fields.filter fun field => !field.targets plan.definition.name) {field : Field}
    (present : field ∈ revised.fields) :
    leadsSomewhere context.system (sound.torn touched) name field =
      !field.targets plan.definition.name := by
  -- All that was there before is there still, and the source was not.
  have differ : plan.definition.name ≠ name := by
    rintro rfl
    rw [missing] at known
    cases known
  -- A field without a relation is not to be pruned, and leads to no source.
  cases related : field.relation? with
  | none =>
    have elsewhere := @Field.not_targets_of_none field plan.definition.name related
    simp [leadsSomewhere, related, elsewhere]
  | some relation =>
    rw [Field.targets_eq related]
    simp only [leadsSomewhere, related, Roster.contains_eq, find?_torn, Option.isSome_map]
    -- The source is not known; every other target of a relation from before is.
    by_cases back : relation.target = plan.definition.name
    · simp [back, missing, inCatalog, differ]
    · have inBefore : field ∈ before.fields := by
        have kept : field ∈ revised.fields.filter
            fun field => !field.targets plan.definition.name :=
          List.mem_filter.mpr ⟨present, by simp [(Field.not_targets_iff related).mpr back]⟩
        rw [others] at kept
        exact (List.mem_filter.mp kept).1
      -- The relation leads to another model of the catalog, to its own model or to a system model.
      by_cases out : leadsOut context.system name relation
      · obtain ⟨target, found⟩ := symmetric.mendable.stored name before known field inBefore
          relation related out
        simp [found, back]
      · by_cases inside : relation.target = name
        · simp [inside, Ne.symm differ]
        · have isSystem : context.system.contains relation.target = true := by
            by_contra outside
            exact out ⟨inside, by simpa using outside⟩
          simp [isSystem, back]

/-- Where the source is not there, pruning a torn graph brings back the one from before. -/
theorem pruneAll_torn (sound : plan.Sound context old)
    (symmetric : Symmetric context.system context.known)
    (missing : context.known.find? plan.definition.name = none)
    (inCatalog : context.system.contains plan.definition.name = false) (report : RepairReport) :
    (pruneAll context.system (sound.torn touched) report).models = context.known := by
  refine Roster.eq_of_find? fun name => ?_
  -- Pruning goes model by model, so the models are compared under one name.
  rw [find?_pruneAll, find?_torn, Option.map_map]
  cases known : context.known.find? name with
  | none => rfl
  | some before =>
    -- Revising a target only adds and takes away what leads to the source.
    have own : before.name = name := Roster.name_of_find? known
    let revised := if name ∈ touched then sound.after before else before
    have revisedName : revised.name = name := by
      show (if name ∈ touched then sound.after before else before).name = name
      split
      · exact (name_revised _ _ _ _).trans own
      · exact own
    have others : revised.fields.filter (fun field => !field.targets plan.definition.name) =
        before.fields.filter fun field => !field.targets plan.definition.name := by
      show (if name ∈ touched then sound.after before else before).fields.filter _ = _
      split
      · exact TargetEdit.filter_apply (sound.orderly before.name).faces before
      · rfl
    -- What leads to the source goes, and what leads to a model that is there stays.
    have fields : revised.fields.filter
        (leadsSomewhere context.system (sound.torn touched) revised.name) = before.fields := by
      rw [List.filter_congr fun field present => revisedName.symm ▸
        sound.leadsSomewhere_torn symmetric missing inCatalog known others present, others]
      exact List.filter_eq_self.mpr fun field present => by
        simp [not_targets_of_missing symmetric missing inCatalog known present]
    show some (prune context.system (sound.torn touched) revised) = some before
    rw [prune, fields]
    cases before
    simp_all

/-- Where the source is a system model, a torn graph is as symmetric as the one before. -/
theorem symmetric_torn (sound : plan.Sound context old)
    (symmetric : Symmetric context.system context.known)
    (outside : context.system.contains plan.definition.name = true)
    (unwritten : plan.definition.name ∉ touched) :
    Symmetric context.system (sound.torn touched) := by
  -- The models are those from before, of which some are revised.
  refine ⟨?_, fun _ _ => sound.tidy_torn symmetric unwritten, ?_⟩
  · intro name model found
    obtain ⟨before, known, -⟩ := sound.of_find?_torn found
    exact symmetric.inCatalog name before known
  · intro name model found field present relation related out
    obtain ⟨before, known, rfl, -⟩ := sound.of_find?_torn found
    -- A relation to another model of the catalog does not lead to the source, nor does its mate.
    have away : ∀ target, context.system.contains target = false →
        target ≠ plan.definition.name := by
      rintro target inCatalog rfl
      rw [outside] at inCatalog
      cases inCatalog
    have elsewhere : field.targets plan.definition.name = false :=
      (Field.not_targets_iff related).mpr (away _ out.2)
    obtain ⟨target, targetKnown, mate, matePresent, mates⟩ := symmetric.mated _ before known field
      ((sound.mem_torn_iff found known elsewhere).mp present) relation related out
    have targetFound := @find?_torn context old plan touched sound relation.target
    rw [targetKnown, Option.map_some] at targetFound
    have mateElsewhere := Field.not_targets_of_ne mates.symm.targets
      (away _ (symmetric.inCatalog _ before known))
    refine ⟨_, targetFound, mate,
      (sound.mem_torn_iff targetFound targetKnown mateElsewhere).mpr matePresent, ?_⟩
    have sameName : (if relation.target ∈ touched then sound.after target else target).name =
        target.name := by
      split
      · exact name_revised _ _ _ _
      · rfl
    rw [sameName]
    exact mates

end WritePlan.Sound

end ModelCatalog
