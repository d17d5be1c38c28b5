import ModelCatalog.Proofs.RelationGraph
import ModelCatalog.Proofs.WriteRun

/-! Writes to the relation graph: what the edits of a write make of its targets. -/

namespace ModelCatalog

namespace WritePlan

variable {context : Context} {source : Model} {old : Option Record} {target : Model}

/-- The relations that a write gives up are none of those of the new version. -/
theorem isSame_of_removed {system : SystemModels} {field : Field}
    (gone : field ∈ (changes system old source).removed) :
    ∀ again ∈ source.fields, RelationChange.isSame field again = false := by
  intro again present
  have apart := (List.mem_filter.mp gone).2
  -- What is given up is compared with the relations of the new version, and plain fields are no
  -- such.
  cases related : again.relation? with
  | none =>
    unfold RelationChange.isSame
    rw [related]
    cases field.relation? <;> rfl
  | some relation =>
    have listed : again ∈ RelationChange.relationFields source :=
      List.mem_map.mpr ⟨(again, relation), Model.mem_relations.mpr ⟨present, related⟩, rfl⟩
    simp only [Bool.not_eq_true', List.any_eq_false] at apart
    simpa using apart again listed

/-- A relation of the old version is given up unless the new one has it under its name. -/
theorem mem_removed {system : SystemModels} {record : Record} {field : Field}
    {relation : Relation} (present : field ∈ record.definition.fields)
    (related : field.relation? = some relation)
    (apart : ∀ again ∈ source.fields, RelationChange.isSame field again = false) :
    field ∈ (changes system (some record) source).removed := by
  -- The field is one of the old relations, and no relation of the new version is the same.
  refine List.mem_filter.mpr ⟨?_, ?_⟩
  · exact List.mem_map.mpr ⟨(field, relation), Model.mem_relations.mpr ⟨present, related⟩, rfl⟩
  · simp only [Bool.not_eq_true', List.any_eq_false]
    intro again listed
    obtain ⟨pair, isRelation, rfl⟩ := List.mem_map.mp listed
    simpa using apart _ (Model.mem_relations.mp isRelation).1

/-- What a plan has made sure of. -/
structure Sound (context : Context) (old : Option Record) (plan : WritePlan) : Prop where
  named : plan.model = plan.definition.name
  admitted : plan.definition.Admitted context.system context.known
  tidy : plan.definition.Tidy context.system
  claims : (Resolution.claims context.system plan.definition).Pairwise fun one other =>
    ¬(one.target = other.target ∧ one.name = other.name)
  edits : plan.edits.map TargetEdit.plain =
    drafts context plan.definition (changes context.system old plan.definition).removed
  complete : ∀ draft ∈ drafts context plan.definition
      (changes context.system old plan.definition).removed,
    ∀ before, context.known.find? draft.target = some before →
      ∃ edit, draft.complete (context.withModel plan.definition) plan.definition before =
        .ok edit

/-- A plan that was made is sound. -/
theorem sound_of_planWrite {model : Model} {plan : WritePlan}
    (planned : context.planWrite old model = .ok plan) : plan.Sound context old := by
  -- A plan comes from stages that all succeeded, and each gives one of the facts.
  obtain ⟨resolved, drops, synthesis, columns, edits, valid, done, resolvedValid, -, -, -,
    propagated, rfl⟩ := planWrite_eq_ok.mp planned
  have admitted := Model.admitted_of_validate resolvedValid
  have pairing := Context.pairing_of_resolve (Model.admitted_of_validate valid).distinct done
  refine ⟨rfl, admitted, ⟨admitted.distinct, Context.resolved_of_resolve done, ?_⟩,
    Context.claims_of_resolve done, plain_of_propagation propagated,
    fun draft drafted before known => complete_of_propagation propagated drafted known⟩
  -- Resolution has paired every relation of the model to itself.
  intro field present targets
  rw [pairing.name] at targets ⊢
  obtain ⟨mate, matePresent, back, named, -⟩ := pairing.closed field present targets (by simp)
  exact ⟨mate, matePresent, back, named⟩

/-- What a write makes of a target. -/
def revised (context : Context) (source : Model) (removed : List Field) (target : Model) : Model :=
  ((draft context source removed target.name).apply source.name target).1

/-- A revised target keeps its name. -/
@[simp] theorem name_revised (context : Context) (source : Model) (removed : List Field)
    (target : Model) : (revised context source removed target).name = target.name :=
  -- An edit puts fields in and takes fields out, and no more.
  TargetEdit.name_apply _ _ _

namespace Sound

variable {plan : WritePlan}

/-- The draft of a sound plan for one target. -/
abbrev draftFor (_sound : plan.Sound context old) (name : String) : TargetEdit :=
  draft context plan.definition (changes context.system old plan.definition).removed name

/-- Every draft is in order. -/
theorem orderly (sound : plan.Sound context old) (name : String) :
    (sound.draftFor name).Orderly plan.definition.name :=
  -- The fields bear names of their own, and no two of them claim one name of a target.
  orderly_draft sound.admitted.distinct sound.claims
    (fun _ gone => isSame_of_removed gone) name

/-- What a sound plan makes of a target. -/
abbrev after (_sound : plan.Sound context old) (target : Model) : Model :=
  revised context plan.definition (changes context.system old plan.definition).removed target

/-- A relation of the new version has a mate in its revised target. -/
theorem hasMate_after (sound : plan.Sound context old) {field : Field} {relation : Relation}
    (present : field ∈ plan.definition.fields) (related : field.relation? = some relation)
    (out : leadsOut context.system plan.definition.name relation)
    (leads : relation.target = target.name) :
    (sound.after target).HasMate plan.definition.name field := by
  -- The relation is drafted as an insertion, and the edit leaves what it inserts in place.
  have listed : insertionOf plan.definition.name field relation ∈
      (sound.draftFor target.name).insertions :=
    mem_insertions_draft.mpr (mem_insertions.mpr ⟨field, present, relation, related, out, leads,
      rfl⟩)
  -- What the edit has inserted is in place and up to date.
  obtain ⟨mate, matePresent, current⟩ :=
    ((sound.orderly target.name).settledIn_apply target |>.placed _ listed).exists_mem
  refine ⟨mate, matePresent, ?_⟩
  rw [name_revised, ← leads]
  exact Field.mates_of_current related (sound.tidy.resolved field present relation related) out.2
    current

/-- A field of a revised target that relates to the source is the mate of a relation of the new
version, or it is from before and was neither taken away nor paired. -/
theorem of_mem_after (sound : plan.Sound context old) {mate : Field}
    (present : mate ∈ (sound.after target).fields) :
    (∃ field ∈ plan.definition.fields, ∃ relation, field.relation? = some relation ∧
        leadsOut context.system plan.definition.name relation ∧ relation.target = target.name ∧
        field.Mates plan.definition.name target.name mate ∧
        (insertionOf plan.definition.name field relation).counterpart.mergeInto mate = mate) ∨
      mate ∈ target.fields ∧
        (∀ removal ∈ (sound.draftFor target.name).removals,
          mate.isRemovedWith plan.definition.name removal.field removal.name = false) ∧
        ∀ insertion ∈ (sound.draftFor target.name).insertions,
          mate.pairsWith plan.definition.name insertion.field insertion.counterpart.name =
            false := by
  -- An edit puts counterparts in and takes fields away; everything else was there before.
  rcases TargetEdit.mem_apply present with ⟨insertion, listed, current⟩ | before
  · obtain ⟨field, inSource, relation, related, out, leads, rfl⟩ :=
      mem_insertions.mp (mem_insertions_draft.mp listed)
    have mates := Field.mates_of_current related
      (sound.tidy.resolved field inSource relation related) out.2 current
    rw [leads] at mates
    exact Or.inl ⟨field, inSource, relation, related, out, leads, mates, current⟩
  · -- What was there before was neither removed nor replaced.
    exact Or.inr before

/-- A field that leads elsewhere than to the source is in a revised target when it was in the
target. -/
theorem mem_after_of_not_targets (sound : plan.Sound context old) {field : Field}
    (elsewhere : field.targets plan.definition.name = false) :
    field ∈ (sound.after target).fields ↔ field ∈ target.fields :=
  -- What an edit touches leads to the source.
  TargetEdit.mem_apply_of_not_targets (sound.orderly target.name).faces elsewhere

/-- A field from before that is kept in a revised target inverts to no relation of the old version:
where the new version has that relation its counterpart pairs with the field, and where it does not
the field is taken away. -/
theorem invertsTo_of_kept (sound : plan.Sound context old) {record : Record}
    (isOld : old = some record) (known : context.known.contains target.name = true)
    {earlier : Field} (earlierPresent : earlier ∈ record.definition.fields) {relation : Relation}
    (related : earlier.relation? = some relation)
    (out : leadsOut context.system plan.definition.name relation)
    (leads : relation.target = target.name) {mate : Field}
    (unremoved : ∀ removal ∈ (sound.draftFor target.name).removals,
      mate.isRemovedWith plan.definition.name removal.field removal.name = false)
    (unpaired : ∀ insertion ∈ (sound.draftFor target.name).insertions,
      mate.pairsWith plan.definition.name insertion.field insertion.counterpart.name = false) :
    mate.invertsTo plan.definition.name earlier.name = false := by
  rw [Bool.eq_false_iff]
  intro inverts
  -- Either case runs into the draft: a kept relation puts its counterpart over the field, and a
  -- relation that is given up takes the field with it.
  by_cases kept : ∃ again ∈ plan.definition.fields,
      RelationChange.isSame earlier again = true
  · obtain ⟨again, againPresent, same⟩ := kept
    -- The relation that is kept has its counterpart inserted, and the field would pair with it.
    cases againRelated : again.relation? with
    | none => simp [RelationChange.isSame, againRelated, related] at same
    | some other =>
      simp only [RelationChange.isSame, related, againRelated, Bool.and_eq_true,
        beq_iff_eq] at same
      have listed : insertionOf plan.definition.name again other ∈
          (sound.draftFor target.name).insertions :=
        mem_insertions_draft.mpr (mem_insertions.mpr ⟨again, againPresent, other,
          againRelated, ⟨same.2 ▸ out.1, same.2 ▸ out.2⟩, same.2.symm.trans leads, rfl⟩)
      have apartHere := unpaired _ listed
      have pairs : mate.pairsWith plan.definition.name again.name
          (insertionOf plan.definition.name again other).counterpart.name = true :=
        Field.pairsWith_of_invertsTo (same.1 ▸ inverts) _
      exact Bool.false_ne_true (apartHere.symm.trans pairs)
  · -- The relation is given up, so its counterpart is drafted for removal.
    have gone : earlier ∈ (changes context.system old plan.definition).removed := by
      rw [isOld]
      refine mem_removed earlierPresent related fun again againPresent => ?_
      rw [Bool.eq_false_iff]
      exact fun same => kept ⟨again, againPresent, same⟩
    have listed : (⟨earlier.name, earlier.counterpartName plan.definition.name⟩ : Removal) ∈
        (sound.draftFor target.name).removals :=
      mem_removals_draft.mpr (mem_removals.mpr
        ⟨earlier, gone, relation, related, out, leads ▸ known, leads, rfl⟩)
    have unremovedHere := unremoved _ listed
    rw [Field.isRemovedWith_of_invertsTo inverts] at unremovedHere
    cases unremovedHere

/-- In a symmetric graph that holds the old version, no field from before survives a write: those
that relate to the source in a revised target are the mates of the relations of the new version. -/
theorem exists_mate_of_mem_after (sound : plan.Sound context old)
    (symmetric : Symmetric context.system context.known)
    (stored : context.known.find? plan.definition.name = old.map Record.definition)
    (inCatalog : context.system.contains plan.definition.name = false)
    (found : context.known.find? target.name = some target)
    (apart : target.name ≠ plan.definition.name) {mate : Field}
    (present : mate ∈ (sound.after target).fields)
    (back : mate.targets plan.definition.name = true) :
    ∃ field ∈ plan.definition.fields, ∃ relation, field.relation? = some relation ∧
      leadsOut context.system plan.definition.name relation ∧ relation.target = target.name ∧
      field.Mates plan.definition.name target.name mate := by
  rcases sound.of_mem_after present with
    ⟨field, inSource, relation, related, out, leads, mates, -⟩ | ⟨before, unremoved, unpaired⟩
  · -- A field that was put in is the mate of what it was put in for.
    exact ⟨field, inSource, relation, related, out, leads, mates⟩
  · exfalso
    -- A field from before had a mate in the old version.
    obtain ⟨backRelation, backRelated, returns⟩ := Field.targets_iff.mp back
    obtain ⟨oldModel, oldFound, earlier, earlierPresent, mates⟩ :=
      symmetric.mated target.name target found mate before backRelation backRelated
        ⟨returns ▸ Ne.symm apart, returns ▸ inCatalog⟩
    rw [returns, stored] at oldFound
    obtain ⟨record, isOld, rfl⟩ := Option.map_eq_some_iff.mp oldFound
    have sameName : record.definition.name = plan.definition.name :=
      Roster.name_of_find? (stored.trans (by rw [isOld]; rfl))
    rw [sameName] at mates
    -- The mate of the old version leads back to the target, which is known.
    obtain ⟨earlierRelation, earlierRelated, leads⟩ := Field.targets_iff.mp mates.symm.targets
    have known : context.known.contains target.name = true := by
      rw [Roster.contains_eq, found]
      rfl
    have apartHere := sound.invertsTo_of_kept isOld known earlierPresent earlierRelated
      ⟨leads ▸ apart, leads ▸ symmetric.inCatalog _ _ found⟩ leads unremoved unpaired
    rw [mates.invertsTo] at apartHere
    cases apartHere

/-- A write leaves a model alone that is none of its targets. -/
theorem after_eq_self (sound : plan.Sound context old)
    (apart : target.name ∉ plan.edits.map TargetEdit.target) : sound.after target = target := by
  have unlisted : target.name ∉ (targets context plan.definition
      (changes context.system old plan.definition).removed).members := by
    -- The targets of the edits are those of the drafts.
    intro listed
    refine apart ?_
    have same := congrArg (List.map TargetEdit.target) sound.edits
    rw [List.map_map] at same
    have targets : plan.edits.map TargetEdit.target = (drafts context plan.definition
        (changes context.system old plan.definition).removed).map TargetEdit.target := same
    rw [targets, drafts_eq, List.map_map]
    exact List.mem_map.mpr ⟨target.name, listed, rfl⟩
  rw [mem_targets, not_or] at unlisted
  -- There is nothing in the draft for it.
  have removals : (sound.draftFor target.name).removals = [] :=
    List.eq_nil_iff_forall_not_mem.mpr fun removal listed =>
      unlisted.1 ⟨removal, mem_removals_draft.mp listed⟩
  have insertions : (sound.draftFor target.name).insertions = [] :=
    List.eq_nil_iff_forall_not_mem.mpr fun insertion listed =>
      unlisted.2 ⟨insertion, mem_insertions_draft.mp listed⟩
  -- An edit without insertions and removals does nothing.
  unfold after revised TargetEdit.apply
  rw [removals, insertions]
  rfl

/-- The edits of a sound plan are drafts, but for the statements. -/
theorem plain_mem_drafts (sound : plan.Sound context old) {edit : TargetEdit}
    (listed : edit ∈ plan.edits) : edit.plain ∈ drafts context plan.definition
      (changes context.system old plan.definition).removed := by
  -- A sound plan has the drafts for its edits, once the statements are left out.
  rw [← sound.edits]
  exact List.mem_map_of_mem listed

/-- An edit of a sound plan is the draft for its target, but for the statements. -/
theorem plain_eq (sound : plan.Sound context old) {edit : TargetEdit} (listed : edit ∈ plan.edits) :
    edit.plain = sound.draftFor edit.target ∧ edit.target ≠ plan.definition.name ∧
      context.system.contains edit.target = false :=
  -- Whatever is drafted for a target is the draft for it.
  of_mem_drafts (sound.plain_mem_drafts listed)

/-- The targets of a sound plan are different. -/
theorem nodup_targets (sound : plan.Sound context old) :
    (plan.edits.map TargetEdit.target).Nodup := by
  -- No two drafts have one target, and the edits have the targets of the drafts.
  have distinct := nodup_targets_drafts context plan.definition
    (changes context.system old plan.definition).removed
  rw [← sound.edits, List.map_map] at distinct
  exact distinct

/-- The source of a sound plan is none of its targets. -/
theorem notMem_targets (sound : plan.Sound context old) :
    plan.definition.name ∉ plan.edits.map TargetEdit.target := by
  -- The draft of an edit is for a target other than the source.
  intro isTarget
  obtain ⟨edit, listed, same⟩ := List.mem_map.mp isTarget
  exact (sound.plain_eq listed).2.1 same

/-- Every edit of a sound plan is in order. -/
theorem orderly_edit (sound : plan.Sound context old) {edit : TargetEdit}
    (listed : edit ∈ plan.edits) : edit.Orderly plan.definition.name := by
  -- A draft is in order, and the statements of an edit play no part in that.
  have orderly := sound.orderly edit.target
  rw [← (sound.plain_eq listed).1] at orderly
  exact ⟨orderly.faces, orderly.apart, orderly.disjoint⟩

/-- An edit of a sound plan makes of its target what the plan does. -/
theorem apply_edit (sound : plan.Sound context old) {edit : TargetEdit} (listed : edit ∈ plan.edits)
    {target : Model} (named : target.name = edit.target) :
    (edit.apply plan.definition.name target).1 = sound.after target := by
  -- Statements do not matter to what is applied, and the rest is the draft for the target.
  rw [← TargetEdit.apply_plain, (sound.plain_eq listed).1, after, revised, named]

/-- Every target of a sound plan is known. -/
theorem isSome_target (sound : plan.Sound context old) {edit : TargetEdit}
    (listed : edit ∈ plan.edits) : (context.known.find? edit.target).isSome = true := by
  -- The targets of the drafts are collected from what is to be removed and to be inserted.
  have drafted := sound.plain_mem_drafts listed
  rw [drafts_eq] at drafted
  obtain ⟨name, isTarget, same⟩ := List.mem_map.mp drafted
  have named : name = edit.target := congrArg TargetEdit.target same
  subst named
  rw [← Roster.contains_eq]
  -- Removals are drafted for known models only.
  rcases mem_targets.mp isTarget with ⟨removal, member⟩ | ⟨insertion, member⟩
  · -- This is bound up with a removal, whose target was looked up.
    obtain ⟨_, -, relation, -, -, known, leads, -⟩ := mem_removals.mp member
    rw [← leads, known]
  · -- A relation of the new version leads to a model that was found when it was checked.
    obtain ⟨field, present, relation, related, out, leads, -⟩ := mem_insertions.mp member
    rcases (sound.admitted.relations field present relation related).present with
      own | system | known
    · exact absurd own out.1
    · rw [out.2] at system
      cases system
    · rw [← leads, known]

/-- The edit of a target was checked to fit. -/
theorem fits_after (sound : plan.Sound context old)
    (found : context.known.find? target.name = some target)
    (listed : target.name ∈ plan.edits.map TargetEdit.target) :
    TargetEdit.checkFit plan.definition.name (sound.after target) = .ok () := by
  -- The edit was completed against the known target, which included the check.
  obtain ⟨edit, inPlan, named⟩ := List.mem_map.mp listed
  have known : context.known.find? edit.plain.target = some target := named ▸ found
  obtain ⟨done, completed⟩ :=
    sound.complete edit.plain (sound.plain_mem_drafts inPlan) target known
  have fits := (TargetEdit.complete_eq_ok.mp completed).2.1
  rwa [TargetEdit.apply_plain, sound.apply_edit inPlan named.symm] at fits

/-- A revised target is as tidy as the target was. -/
theorem tidy_after (sound : plan.Sound context old)
    (found : context.known.find? target.name = some target)
    (apart : target.name ≠ plan.definition.name) (tidy : target.Tidy context.system) :
    (sound.after target).Tidy context.system := by
  by_cases listed : target.name ∈ plan.edits.map TargetEdit.target
  · refine ⟨?_, ?_, ?_⟩
    · -- The edited target was checked to have different names.
      exact (TargetEdit.checkFit_eq_ok.mp (sound.fits_after found listed)).2.1
    · intro field present
      rcases sound.of_mem_after present with
        ⟨source, inSource, relation, related, -, -, -, current⟩ | ⟨before, -⟩
      · -- What was put in is as full as the relation that it inverts.
        rw [← current]
        exact (sound.tidy.resolved source inSource relation related).mergeInto _ _ _ _
      · exact tidy.resolved field before
    · intro field present own
      rw [name_revised] at own ⊢
      -- Self-relations of the target lead elsewhere than to the source.
      have elsewhere : ∀ one : Field, one.targets target.name = true →
          one.targets plan.definition.name = false :=
        fun one targets => Field.not_targets_of_ne targets apart
      obtain ⟨mate, matePresent, back, named⟩ := tidy.closed field
        ((sound.mem_after_of_not_targets (elsewhere field own)).mp present) own
      exact ⟨mate, (sound.mem_after_of_not_targets (elsewhere mate back)).mpr matePresent, back,
        named⟩
  · -- A model that is no target stays as it is, and tidy.
    rw [sound.after_eq_self listed]
    exact tidy

/-- A revised target has finite defaults when the target had. -/
theorem finite_after (sound : plan.Sound context old) (finite : target.Finite) :
    (sound.after target).Finite := by
  intro field present
  -- Counterparts that an edit puts in come without a default.
  rcases TargetEdit.mem_apply present with ⟨insertion, listed, current⟩ | ⟨before, -⟩
  · refine Field.finite_of_plain ?_
    rw [← current, Field.default_mergeInto]
    exact ((sound.orderly target.name).faces insertion listed).plain
  · exact finite field before

end Sound

end WritePlan

namespace Catalog

variable {configuration : Configuration} {catalog : Catalog} {old : Option Record}
  {plan : WritePlan} {now : Nat}

/-- After some edits of a sound plan a model is revised when it is among their targets. -/
theorem definition?_propagated (sound : plan.Sound (configuration.context catalog) old)
    {done : List TargetEdit} (listed : done.Sublist plan.edits) {name : String} {before : Model}
    (stored : catalog.definition? name = some before) :
    (catalog.propagated plan.definition.name now done).definition? name =
      some (if name ∈ done.map TargetEdit.target then sound.after before else before) := by
  have distinct := sound.nodup_targets.sublist (listed.map TargetEdit.target)
  -- A target is edited once, at its own turn, and the others never.
  split
  · rename_i isTarget
    obtain ⟨edit, inDone, rfl⟩ := List.mem_map.mp isTarget
    have inPlan := listed.subset inDone
    rw [definition?, find?_propagated distinct inDone, ← definition?,
      definition?_edited (sound.orderly_edit inPlan) stored,
      sound.apply_edit inPlan (name_of_definition? stored)]
  · -- A model that is none of the targets keeps what it has.
    rename_i apart
    rw [definition?, find?_propagated_of_notMem apart, ← definition?, stored]

/-- Edits of a sound plan store nothing under a name that has no record. -/
theorem definition?_propagated_of_missing (sound : plan.Sound (configuration.context catalog) old)
    {done : List TargetEdit} (listed : done.Sublist plan.edits) {name : String}
    (missing : catalog.definition? name = none) :
    (catalog.propagated plan.definition.name now done).definition? name = none := by
  -- Every target of the plan is known, so that nothing is created on the way.
  have apart : name ∉ done.map TargetEdit.target := by
    intro isTarget
    obtain ⟨edit, inDone, rfl⟩ := List.mem_map.mp isTarget
    have known := sound.isSome_target (listed.subset inDone)
    rw [Configuration.context, find?_models, missing] at known
    cases known
  rw [definition?, find?_propagated_of_notMem apart, ← definition?, missing]

/-- After a write every other model is revised. -/
theorem definition?_applied (sound : plan.Sound (configuration.context catalog) old)
    {name : String} (apart : name ≠ plan.definition.name) :
    (catalog.applied plan now).definition? name =
      (catalog.definition? name).map sound.after := by
  -- The own record comes last and under another name, so the other records are as propagated.
  rw [applied, definition?, find?_renewed_of_ne _ _ apart, ← definition?, sound.named]
  cases stored : catalog.definition? name with
  | none => exact definition?_propagated_of_missing sound (List.Sublist.refl _) stored
  | some before =>
    rw [definition?_propagated sound (List.Sublist.refl _) stored, Option.map_some]
    -- Listed targets are edited, and the others have nothing to be revised.
    split
    · rfl
    · rename_i unlisted
      rw [sound.after_eq_self]
      rwa [name_of_definition? stored]

/-- The edits of a sound plan leave the record of its own model alone. -/
theorem find?_propagated_self (sound : plan.Sound context old) (catalog : Catalog) (now : Nat) :
    (catalog.propagated plan.model now plan.edits).find? plan.definition.name =
      catalog.find? plan.definition.name := find?_propagated_of_notMem sound.notMem_targets

/-- After a write the model itself has the outline of the new version. -/
theorem definition?_applied_self (sound : plan.Sound (configuration.context catalog) old)
    (now : Nat) : ∃ own, (catalog.applied plan now).definition? plan.definition.name = some own ∧
      (own = plan.definition ∨ own.sameAs plan.definition = true ∧
        catalog.definition? plan.definition.name = some own) := by
  have kept := find?_propagated_self sound catalog now
  -- The own definition is left as it is when it equals the new one.
  unfold applied renewed
  split
  · rename_i same
    obtain ⟨before, stored, equal⟩ := (Option.any_eq_true _ _).mp same
    refine ⟨before, stored, Or.inr ⟨equal, ?_⟩⟩
    rw [← stored, definition?, definition?, kept]
  · -- Otherwise the new definition is written.
    refine ⟨plan.definition, ?_, Or.inl rfl⟩
    rw [definition?_written, if_pos rfl]

end Catalog

end ModelCatalog
