import ModelCatalog.Proofs.Intact
import ModelCatalog.Proofs.PlanLocality
import ModelCatalog.Proofs.Redefinition
import ModelCatalog.Proofs.RelationInvariant

/-! The footprint of a write: the record of the model itself and those of the models it relates to
or has related to go on to the next version when their definitions change, and no other record does
anything. -/

namespace ModelCatalog

/-! ## Versions -/

/-- A record stands where a write has found another one or none. -/
inductive Record.Succeeds (later : Record) : Option Record → Prop where
  /-- Where there was none it is a first version. -/
  | first (version : later.version = 1) : later.Succeeds none
  /-- A definition that does not change leaves the record as it was. -/
  | kept : later.Succeeds (some later)
  /-- Another definition makes the next version. -/
  | next {earlier : Record}
    (changed : earlier.definition.sameAs later.definition = false)
    (version : later.version = earlier.version + 1)
    (createdAt : later.createdAt = earlier.createdAt)
    (updatedAt : earlier.updatedAt ≤ later.updatedAt) : later.Succeeds (some earlier)

/-- What is stored over a record of another definition succeeds it. -/
theorem Record.succeeds_successor {current : Option Record} {definition : Model}
    (differs : ∀ earlier ∈ current, earlier.definition.sameAs definition = false) (now : Nat) :
    (Store.successor current definition now).Succeeds current := by
  -- A first version succeeds nothing, and a later one differs from the one before.
  cases current with
  | none => exact .first rfl
  | some earlier => exact .next (differs earlier rfl) rfl rfl (Nat.le_max_right _ _)

/-! ## Catalogs -/

namespace Catalog

variable {catalog : Catalog} {now : Nat}

/-- An edit leaves a successor of the record of its target, which differs from it only in fields
that lead to the source. -/
theorem succeeds_edited {source : String} {edit : TargetEdit} {earlier : Record}
    (orderly : edit.Orderly source) (stored : catalog.find? edit.target = some earlier)
    (comparable : earlier.definition.Comparable) :
    ∃ later, (catalog.edited source now edit).find? edit.target = some later ∧
      later.Succeeds (some earlier) ∧
      later.definition.stripReferences source = earlier.definition.stripReferences source := by
  -- The edit reports whether it has changed the definition, and only then is the record written.
  have held : catalog.definition? edit.target = some earlier.definition :=
    definition?_of_find? stored
  have own : (edit.apply source earlier.definition).1.name = edit.target := by
    rw [TargetEdit.name_apply]
    exact name_of_definition? held
  rw [edited, amended_of_stored held]
  cases changed : (edit.apply source earlier.definition).2 with
  | false => exact ⟨earlier, by simpa using stored, .kept, rfl⟩
  | true =>
    rw [if_pos rfl, find?_written, if_pos own, own, stored]
    refine ⟨_, rfl, Record.succeeds_successor (fun _ same => ?_) now, ?_⟩
    · -- What reports a change compares unequal to what it was made from.
      cases same
      exact orderly.sameAs_eq_false comparable changed
    · rw [definition_successor]
      exact orderly.stripReferences_apply earlier.definition

/-- Storing a definition leaves a successor of the record of its name. -/
theorem succeeds_renewed {definition : Model} {later : Record}
    (left : (catalog.renewed definition now).find? definition.name = some later) :
    later.Succeeds (catalog.find? definition.name) := by
  -- The record is written unless it holds a definition that compares equal.
  unfold renewed definition? at left
  split at left
  · -- The definition is stored already, and the record stays.
    rw [left]
    exact .kept
  · rename_i renews
    rw [find?_written, if_pos rfl, Option.some.injEq] at left
    rw [← left]
    refine Record.succeeds_successor (fun earlier stored => ?_) now
    rw [Option.mem_def.mp stored] at renews
    simpa using renews

end Catalog

namespace WritePlan.Sound

variable {context : Context} {configuration : Configuration} {catalog : Catalog}
  {old : Option Record} {plan : WritePlan}

/-- The edits of a plan lead to models to which the new version relates, or the old one. -/
theorem references_target (sound : plan.Sound context old)
    (own : ∀ former ∈ old, former.definition.name = plan.definition.name) {edit : TargetEdit}
    (listed : edit ∈ plan.edits) :
    plan.definition.references edit.target = true ∨
      ∃ former ∈ old, former.definition.references edit.target = true := by
  -- Here a model relates to whatever one of its fields leads to.
  have within : ∀ model : Model, model.RelatesWithin (model.references · = true) :=
    fun model field present relation related => Or.inr (List.any_eq_true.mpr
      ⟨field, present, Field.targets_iff.mpr ⟨relation, related, rfl⟩⟩)
  let names (name : String) : Prop := plan.definition.references name = true ∨
    ∃ former ∈ old, former.definition.references name = true
  have new : plan.definition.RelatesWithin names := (within _).mono fun _ => Or.inl
  have before : ∀ former, old = some former →
      former.definition.name = plan.definition.name ∧ former.definition.RelatesWithin names :=
    fun former isOld => ⟨own former isOld,
      (within _).mono fun _ refers => Or.inr ⟨former, isOld, refers⟩⟩
  exact sound.target_within new before listed

/-- A plan leaves a successor of the record of every other model, which differs from it only in
fields that lead to the model of the plan. -/
theorem succeeds_applied (sound : plan.Sound (configuration.context catalog) old)
    {other : String} (differ : other ≠ plan.definition.name) {earlier : Record}
    (stored : catalog.find? other = some earlier) (comparable : earlier.definition.Comparable)
    (now : Nat) : ∃ later, (catalog.applied plan now).find? other = some later ∧
      later.Succeeds (some earlier) ∧ later.definition.stripReferences plan.definition.name =
        earlier.definition.stripReferences plan.definition.name := by
  -- The record of another model is written by the edit that is for it, if there is one, and not at
  -- all otherwise.
  rw [Catalog.applied, Catalog.find?_renewed_of_ne _ _ differ, sound.named]
  by_cases isTarget : other ∈ plan.edits.map TargetEdit.target
  · obtain ⟨edit, listed, rfl⟩ := List.mem_map.mp isTarget
    rw [Catalog.find?_propagated sound.nodup_targets listed]
    exact Catalog.succeeds_edited (sound.orderly_edit listed) stored comparable
  · rw [Catalog.find?_propagated_of_notMem isTarget]
    exact ⟨earlier, stored, .kept, rfl⟩

/-- A plan leaves alone the record of any other model that is a system model, or to which neither
version relates. -/
theorem find?_applied_of_unrelated (sound : plan.Sound (configuration.context catalog) old)
    (own : ∀ former ∈ old, former.definition.name = plan.definition.name) {other : String}
    (differ : other ≠ plan.definition.name)
    (unrelated : configuration.system.contains other = true ∨
      plan.definition.references other = false ∧
        ∀ former ∈ old, former.definition.references other = false) (now : Nat) :
    (catalog.applied plan now).find? other = catalog.find? other := by
  rw [Catalog.applied, Catalog.find?_renewed_of_ne _ _ differ]
  refine Catalog.find?_propagated_of_notMem fun isTarget => ?_
  -- The only records that are written besides its own are the targets of edits.
  obtain ⟨edit, listed, rfl⟩ := List.mem_map.mp isTarget
  rcases unrelated with isSystem | ⟨new, former⟩
  · -- Nothing is propagated to system models.
    have outside : configuration.system.contains edit.target = false := (sound.plain_eq listed).2.2
    rw [isSystem] at outside
    cases outside
  · -- A target is one to which the new version relates or the old one.
    rcases sound.references_target own listed with refers | ⟨record, isOld, refers⟩
    · rw [new] at refers
      cases refers
    · rw [former record isOld] at refers
      cases refers

end WritePlan.Sound

namespace Registry

variable {executor : Executor} {configuration : Configuration} {database after : Database}
  {name : String} {fields : List Field} {record : Record}

/-- A write that succeeds leaves a successor of the record of the model, and successors of those of
other models, which differ from these only in the fields that lead to the model. The record of any
other stays that is a system model, or to which neither the new definition of the model relates nor
the old one. -/
theorem write_footprint
    (comparable : ∀ stored, .intact stored ∈ database.store.members →
      stored.definition.Comparable)
    (wrote : (registryWith executor configuration).define name fields database =
        (.ok record, after) ∨
      (registryWith executor configuration).update name fields database = (.ok record, after)) :
    ∃ old, database.store.get name = .ok old ∧ after.store.get name = .ok (some record) ∧
      record.Succeeds old ∧
      ∀ other, other ≠ name → ∃ before later, database.store.get other = .ok before ∧
        after.store.get other = .ok later ∧ later.isSome = before.isSome ∧
        (∀ earlier ∈ before, ∀ next ∈ later, next.Succeeds (some earlier) ∧
          next.definition.stripReferences name = earlier.definition.stripReferences name) ∧
        (configuration.system.contains other = true ∨
          record.definition.references other = false ∧
            (∀ former ∈ old, former.definition.references other = false) → later = before) := by
  -- Defining and updating are one kind of write.
  obtain ⟨mustExist, wrote⟩ : ∃ mustExist, (registryWith executor configuration).write name fields
      mustExist database = (.ok record, after) := by
    rcases wrote with defined | updated
    · exact ⟨false, defined⟩
    · exact ⟨true, updated⟩
  -- A call that succeeds has read every record, so what is stored is a catalog.
  obtain ⟨catalog, holds⟩ := exists_catalog_of_write wrote
  obtain ⟨-, plan, planned, left, stored⟩ := of_successful_write holds wrote
  -- The plan that was carried out is what the records are compared through.
  obtain ⟨rfl, sound⟩ := WritePlan.sound_of_declared planned
  have eachComparable : ∀ other earlier, catalog.find? other = some earlier →
      earlier.definition.Comparable := by
    intro other earlier found
    refine comparable earlier ?_
    rw [holds]
    exact List.mem_map_of_mem (Roster.mem_of_find? found)
  have named : ∀ former ∈ catalog.find? plan.definition.name,
      former.definition.name = plan.definition.name := fun former found =>
    Roster.name_of_find? found
  rw [holds, left]
  simp only [Catalog.get_store, Except.ok.injEq]
  refine ⟨_, rfl, stored, ?_, fun other differ => ⟨_, _, rfl, rfl, ?_, ?_, ?_⟩⟩
  · -- The edits are for other models, so the own record is found as it was before the call.
    have kept := Catalog.find?_propagated_self sound catalog database.now
    rw [← kept]
    exact Catalog.succeeds_renewed stored
  · rw [← Catalog.isSome_definition?, ← Catalog.isSome_definition?,
      Catalog.definition?_applied sound differ, Option.isSome_map]
  · intro earlier found next left
    obtain ⟨later, isLater, succeeds⟩ :=
      sound.succeeds_applied differ found (eachComparable other earlier found) database.now
    rw [isLater] at left
    cases left
    exact succeeds
  · rintro unrelated
    refine sound.find?_applied_of_unrelated named differ (unrelated.imp_right fun apart => ?_) _
    -- The stored definition has the outline of the planned one, and so relates to the same models.
    rw [← Model.references_eq_of_outline_eq (Catalog.outline_of_applied sound stored).2]
    exact apart

/-- Authors are defined of the posts that are stored: theirs is a first version, that of the posts
has a successor, and the tags of the posts stay as they are. -/
theorem write_footprint_author :
    (∀ stored, .intact stored ∈ Reachable.posted.store.members →
      stored.definition.Comparable) ∧
    ∃ record after, (registryWith .idle .standard).define "Author"
        [.ofRelation "posts" (.to .oneToMany "Post")] Reachable.posted = (.ok record, after) ∧
      record.version = 1 ∧
      after.store.get "Tag" = Reachable.posted.store.get "Tag" ∧
      ∃ earlier next, Reachable.posted.store.get "Post" = .ok (some earlier) ∧
        after.store.get "Post" = .ok (some next) ∧ next.Succeeds (some earlier) := by
  -- The defaults in the state are of the kinds that equal themselves.
  have comparable : ∀ stored, .intact stored ∈ Reachable.posted.store.members →
      stored.definition.Comparable := by
    intro stored held field present
    refine (Field.finite_of_plain ?_).comparable
    rw [Reachable.members_posted] at held
    rcases List.mem_pair.mp held with same | same <;>
    · obtain rfl := Entry.intact.inj same
      rw [List.mem_singleton.mp present]
      rfl
  -- What the call gives is worked out once, and the theorem tells the rest.
  have summary : ((registryWith .idle .standard).define "Author"
      [.ofRelation "posts" (.to .oneToMany "Post")] Reachable.posted).1.map
      (fun record => record.definition.references "Tag") = .ok false := by
    rw [Reachable.posted_eq]
    decide +kernel
  obtain ⟨record, succeeded, apart⟩ := Outcome.map_eq_ok.mp summary
  have defined := Step.eq_of_fst succeeded
  obtain ⟨old, wasOld, -, succeeds, others⟩ := write_footprint comparable (Or.inl defined)
  have isNew : Reachable.posted.store.get "Author" = .ok none := by
    rw [Reachable.posted_eq]
    rfl
  rw [isNew] at wasOld
  -- No author was stored, so the record is a first version.
  obtain rfl := Except.ok.inj wasOld
  obtain ⟨version⟩ := succeeds
  -- Authors do not relate to tags, whose record stays.
  obtain ⟨tag, laterTag, hadTag, hasTag, -, -, stays⟩ := others "Tag" (by decide)
  obtain rfl := stays (Or.inr ⟨apart, by simp⟩)
  obtain ⟨post, laterPost, hadPost, hasPost, remains, succeedsPost, -⟩ :=
    others "Post" (by decide)
  have postStored : Reachable.posted.store.get "Post" =
      .ok (some (.first ⟨"Post", [.ofRelation "tags" Reachable.tagging]⟩ 0)) := by
    rw [Reachable.posted_eq]
    rfl
  rw [postStored] at hadPost
  obtain rfl := Except.ok.inj hadPost
  obtain ⟨next, rfl⟩ := Option.isSome_iff_exists.mp (remains.trans rfl)
  exact ⟨comparable, record, _, defined, version, hasTag.trans hadTag.symm, _, next, postStored,
    hasPost, (succeedsPost _ rfl next rfl).1⟩

end Registry

end ModelCatalog
