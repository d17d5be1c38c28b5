import ModelCatalog.Proofs.Refill
import ModelCatalog.Proofs.Replanning
import ModelCatalog.Proofs.TornGraph

/-! Planning on torn graphs: a write that stopped between two of its targets is planned again as it
was at first. -/

namespace ModelCatalog

open Resolution

namespace WritePlan.Sound

variable {context : Context} {old : Option Record} {declared : Model} {plan : WritePlan}
  {touched : List String}

/-- The context of the system models and a torn graph. -/
def tornContext (sound : plan.Sound context old) (touched : List String) : Context :=
  ⟨context.system, sound.torn touched⟩

/-- A torn graph has the models that were known. -/
theorem contains_torn (sound : plan.Sound context old) (name : String) :
    (sound.torn touched).contains name = context.known.contains name := by
  -- Tearing a graph changes what is found under the names, and no names.
  rw [Roster.contains_eq, Roster.contains_eq, find?_torn, Option.isSome_map]

/-- A relation to another model of the catalog is filled in as it was when its target is revised. -/
theorem fillRelation_revised (sound : plan.Sound context old)
    (distinct : (declared.fields.map Field.name).Nodup)
    (done : context.resolve (old.map Record.definition) declared = .ok plan.definition)
    (later : Context) (system : later.system = context.system) {field : Field}
    (present : field ∈ (snapshot (old.map Record.definition) declared).fields)
    {relation : Relation} (related : field.relation? = some relation)
    (out : leadsOut context.system plan.definition.name relation) {before : Model}
    (named : before.name = relation.target)
    (found : later.known.find? relation.target = some (sound.after before)) :
    fillRelation later (old.map Record.definition)
        (snapshot (old.map Record.definition) declared) field.name relation =
      fillRelation context (old.map Record.definition)
        (snapshot (old.map Record.definition) declared) field.name relation := by
  have own : (snapshot (old.map Record.definition) declared).name = plan.definition.name := by
    rw [name_snapshot, Context.name_of_resolve distinct done]
  have filledRelation := @relation?_fillField context (old.map Record.definition)
    (snapshot (old.map Record.definition) declared) field
  rw [related, Option.map_some] at filledRelation
  -- The field is one of the new version, since pairing leaves it as it was filled in.
  have inNew : fillField context (old.map Record.definition)
      (snapshot (old.map Record.definition) declared) field ∈ plan.definition.fields := by
    refine (Context.mem_of_resolve distinct done ?_).mpr (List.mem_map_of_mem present)
    rw [targets_fillField, ← Context.name_of_resolve distinct done]
    exact (Field.not_targets_iff related).mpr out.1
  have listed : insertionOf plan.definition.name _ _ ∈ (sound.draftFor before.name).insertions :=
    mem_insertions_draft.mpr (mem_insertions.mpr ⟨_, inNew, _, filledRelation,
      ⟨by rw [target_fillRelation]; exact out.1, by rw [target_fillRelation]; exact out.2⟩,
      by rw [target_fillRelation, named], rfl⟩)
  -- Its counterpart was drafted for the target, so the revision has put it in place.
  have placed : Insertion.PlacedIn plan.definition.name (sound.after before) _ :=
    ((sound.orderly before.name).settledIn_apply before).placed _ listed
  rw [← own] at out placed
  exact fillRelation_of_placed system out (name_fillField _) filledRelation found placed

/-- In a torn graph every relation is filled in as it was. -/
theorem filled_torn (sound : plan.Sound context old)
    (distinct : (declared.fields.map Field.name).Nodup)
    (done : context.resolve (old.map Record.definition) declared = .ok plan.definition)
    (within : touched ⊆ plan.edits.map TargetEdit.target) :
    filled (sound.tornContext touched) (old.map Record.definition) declared =
      filled context (old.map Record.definition) declared := by
  have own : (snapshot (old.map Record.definition) declared).name = plan.definition.name := by
    rw [name_snapshot, Context.name_of_resolve distinct done]
  refine filled_congr fun field present relation related => ?_
  have torn := @find?_torn context old plan touched sound relation.target
  -- A relation to the model itself is filled in from the snapshot, which is the same.
  by_cases inside : relation.target = plan.definition.name
  · refine fillRelation_congr rfl ?_
    rw [targetOf, targetOf, if_pos (inside.trans own.symm), if_pos (inside.trans own.symm)]
  · -- A target is as it was, or the counterpart of the relation is in place there.
    by_cases isTouched : relation.target ∈ touched
    · obtain ⟨edit, listed, isTarget⟩ := List.mem_map.mp (within isTouched)
      have outside := (sound.plain_eq listed).2.2
      rw [isTarget] at outside
      have isKnown := sound.isSome_target listed
      rw [isTarget] at isKnown
      obtain ⟨before, known⟩ := Option.isSome_iff_exists.mp isKnown
      rw [known, Option.map_some, if_pos isTouched] at torn
      exact sound.fillRelation_revised distinct done (sound.tornContext touched) rfl present
        related ⟨inside, outside⟩ (Roster.name_of_find? known) torn
    · refine fillRelation_congr rfl ?_
      simp only [if_neg isTouched, Option.map_id'] at torn
      rw [targetOf, targetOf, tornContext, torn]

/-- In a torn graph the definition is resolved as it was. -/
theorem resolve_torn (sound : plan.Sound context old)
    (distinct : (declared.fields.map Field.name).Nodup)
    (done : context.resolve (old.map Record.definition) declared = .ok plan.definition)
    (within : touched ⊆ plan.edits.map TargetEdit.target) :
    (sound.tornContext touched).resolve (old.map Record.definition) declared =
      .ok plan.definition := by
  -- Pairing and claims come after filling in, and they do not look at other models.
  have parts := Context.resolve_eq_ok.mp done
  rw [Context.resolve_eq_ok, sound.filled_torn distinct done within]
  exact parts

/-- In a torn graph every draft for a known target is complete: a revised target has nothing left to
do, and any other is as it was. -/
theorem exists_complete_torn (sound : plan.Sound context old)
    (finite : ∀ name model, context.known.find? name = some model → model.Finite)
    {later : Context} {draft : TargetEdit}
    (drafted : draft ∈ drafts context plan.definition
      (changes context.system old plan.definition).removed) {target : Model}
    (found : (sound.torn touched).find? draft.target = some target) :
    ∃ done, draft.complete later plan.definition target = .ok done := by
  -- A revised target has its counterparts in place already, and any other is the one that is known.
  obtain ⟨before, known, named, ⟨-, rfl⟩ | ⟨-, rfl⟩⟩ := sound.of_find?_torn found
  · obtain ⟨done, completed⟩ := sound.complete draft drafted before known
    have own : draft = sound.draftFor before.name := by
      rw [named]
      exact (of_mem_drafts drafted).1
    have fits := (TargetEdit.complete_eq_ok.mp completed).2.1
    rw [own] at fits
    have settled := (sound.orderly before.name).settledIn_apply before
    rw [own]
    exact TargetEdit.complete_of_settled later (sound.orderly before.name) settled
      (Field.sameList_self (sound.finite_after (finite _ before known))) fits
  · obtain ⟨done, completed⟩ := sound.complete draft drafted target known
    exact TargetEdit.exists_complete_congr later completed

end WritePlan.Sound

/-- A write is planned on a torn graph as it was planned at first, but for statements. -/
theorem WritePlan.exists_planWrite_torn {context : Context} {old : Option Record}
    {declared : Model} {plan : WritePlan} (planned : context.planWrite old declared = .ok plan)
    (sound : plan.Sound context old)
    (finite : ∀ name model, context.known.find? name = some model → model.Finite)
    {touched : List String} (within : touched ⊆ plan.edits.map TargetEdit.target) :
    ∃ again, (sound.tornContext touched).planWrite old declared = .ok again ∧
      again.definition = plan.definition ∧
      again.edits.map TargetEdit.plain = plan.edits.map TargetEdit.plain := by
  -- The plan is made again from its parts, with the drafts it had, since the same models are known.
  obtain ⟨resolved, drops, _, columns, _, valid, done, resolvedValid, dropped, -, added, -, rfl⟩ :=
    planWrite_eq_ok.mp planned
  have distinct := (Model.admitted_of_validate valid).distinct
  have same : drafts (sound.tornContext touched) resolved
        (changes context.system old resolved).removed =
      drafts context resolved (changes context.system old resolved).removed :=
    drafts_congr rfl fun _ _ relation _ _ => sound.contains_torn relation.target
  -- Resolving goes as it did, so what is planned from the resolved version can be made again.
  obtain ⟨again, replanned, isResolved⟩ := exists_planWrite (sound.tornContext touched) old
    planned rfl (fun name _ => sound.contains_torn name)
    (sound.resolve_torn distinct done within) rfl rfl
    (Model.admitted_of_validate resolvedValid).finite ⟨drops, dropped⟩
    (exists_ownColumns_congr _ added) (exists_propagation fun draft drafted target found =>
      sound.exists_complete_torn finite (same ▸ drafted) found)
  refine ⟨again, replanned, isResolved, ?_⟩
  -- The edits are determined by the drafts, and those are the same.
  have edits := (sound_of_planWrite replanned).edits
  rw [isResolved] at edits
  exact edits.trans (same.trans sound.edits.symm)

end ModelCatalog
