import ModelCatalog.Proofs.GraphWrite
import ModelCatalog.Proofs.Refill

/-! Locality of planning: of all the models that are known, a write is planned from those that its
new version and its old one relate to. -/

namespace ModelCatalog

open Resolution WritePlan

/-- Two contexts have the same system models and know the same under some names. -/
structure Context.AgreesOn (names : String → Prop) (context other : Context) : Prop where
  system : context.system = other.system
  known : ∀ name, names name → context.known.find? name = other.known.find? name

/-- A model relates to itself and to models of some names, and to no others. -/
def Model.RelatesWithin (names : String → Prop) (model : Model) : Prop :=
  ∀ field ∈ model.fields, ∀ relation, field.relation? = some relation →
    relation.target = model.name ∨ names relation.target

namespace Model.RelatesWithin

variable {names others : String → Prop} {context : Context} {old : Option Model}
  {model resolved : Model}

/-- What relates to some names relates to more. -/
theorem mono (within : model.RelatesWithin names) (more : ∀ name, names name → others name) :
    model.RelatesWithin others :=
  -- Where a relation leads stays one of the names.
  fun field present relation related => (within field present relation related).imp_right (more _)

/-- The snapshot relates to nothing to which the definition does not. -/
theorem snapshot (within : model.RelatesWithin names) (old : Option Model) :
    (snapshot old model).RelatesWithin names := by
  -- The snapshot has no fields but those of the definition.
  intro field present relation related
  rw [name_snapshot]
  exact within field ((fields_snapshot old model).subset present) relation related

/-- What a definition is resolved to relates to nothing else than the definition, apart from
itself. -/
theorem resolve (within : model.RelatesWithin names)
    (distinct : (model.fields.map Field.name).Nodup)
    (done : context.resolve old model = .ok resolved) : resolved.RelatesWithin names := by
  intro field present relation related
  rw [Context.name_of_resolve distinct done]
  by_cases own : relation.target = model.name
  · exact Or.inl own
  · -- Pairing leaves alone what leads elsewhere, and filling in keeps its target.
    have elsewhere := (Field.not_targets_iff related).mpr own
    obtain ⟨before, inSnapshot, rfl⟩ :=
      List.mem_map.mp ((Context.mem_of_resolve distinct done elsewhere).mp present)
    rw [relation?_fillField] at related
    obtain ⟨given, givenBy, rfl⟩ := Option.map_eq_some_iff.mp related
    rw [target_fillRelation] at own ⊢
    have leads := within.snapshot old before inSnapshot given givenBy
    rwa [name_snapshot] at leads

end Model.RelatesWithin

namespace WritePlan

variable {names : String → Prop} {context : Context} {old : Option Record}
  {declared source resolved : Model} {removed : List Field} {edit : TargetEdit}

/-- The relations that are gone lead to nothing to which the old version did not relate. -/
theorem target_of_mem_removed {system : SystemModels}
    (oldWithin : ∀ record, old = some record → record.definition.name = source.name ∧
      record.definition.RelatesWithin names) {field : Field}
    (gone : field ∈ (changes system old source).removed) {relation : Relation}
    (related : field.relation? = some relation) :
    relation.target = source.name ∨ names relation.target := by
  -- Without an old version nothing can be gone.
  cases old with
  | none => cases gone
  | some record =>
    obtain ⟨named, within⟩ := oldWithin record rfl
    obtain ⟨pair, isRelation, rfl⟩ := List.mem_map.mp (List.mem_filter.mp gone).1
    rw [← named]
    exact within _ (Model.mem_relations.mp isRelation).1 relation related

/-- A target of an edit is one of a relation of the new version, or of one that is gone. -/
theorem target_of_mem_drafts (within : source.RelatesWithin names)
    (gone : ∀ field ∈ removed, ∀ relation, field.relation? = some relation →
      relation.target = source.name ∨ names relation.target)
    (listed : edit ∈ drafts context source removed) : names edit.target := by
  rw [drafts_eq] at listed
  obtain ⟨target, isTarget, rfl⟩ := List.mem_map.mp listed
  -- A target has something removed or inserted, each for a relation that leads to it.
  rcases mem_targets.mp isTarget with ⟨removal, member⟩ | ⟨insertion, member⟩
  · obtain ⟨field, isGone, relation, related, out, -, rfl, -⟩ := mem_removals.mp member
    exact (gone field isGone relation related).resolve_left out.1
  · obtain ⟨field, present, relation, related, out, rfl, -⟩ := mem_insertions.mp member
    exact (within field present relation related).resolve_left out.1

end WritePlan

namespace Context.AgreesOn

variable {names : String → Prop} {context other : Context} {model source before after : Model}
  {field : Field} {edit : TargetEdit}

/-- Under the names on which contexts agree they know the same models. -/
theorem contains (agrees : context.AgreesOn names other) {name : String} (reads : names name) :
    context.known.contains name = other.known.contains name := by
  -- To contain a name is to find a model under it.
  rw [Roster.contains_eq, Roster.contains_eq, agrees.known name reads]

/-- With one more model, contexts agree on its name as well. -/
theorem withModel (agrees : context.AgreesOn names other) (model : Model) :
    (context.withModel model).AgreesOn (fun name => name = model.name ∨ names name)
      (other.withModel model) where
  system := agrees.system
  known := by
    intro name reads
    have own : Named.name model = model.name := rfl
    rw [Context.withModel, Context.withModel, Roster.find?_insert, Roster.find?_insert, own]
    -- What is not the new model was known before.
    by_cases here : model.name = name
    · rw [if_pos here, if_pos here]
    · rw [if_neg here, if_neg here]
      exact agrees.known name (reads.resolve_left (Ne.symm here))

/-! ## Checks and resolution -/

/-- A definition is checked by looking up what it relates to. -/
theorem validate (agrees : context.AgreesOn names other) (within : model.RelatesWithin names) :
    model.validate context.system context.known = model.validate other.system other.known := by
  -- The claims of earlier fields are handed on, so each field is compared for any claims.
  have fields : ∀ claims, ∀ field ∈ model.fields,
      Validation.checkField context.system context.known model.name claims field =
        Validation.checkField other.system other.known model.name claims field := by
    intro claims field present
    unfold Validation.checkField
    refine Outcome.bind_congr_of_ok fun head _ => ?_
    cases kind : field.kind with
    | relation relation =>
      -- Only the target of the relation is looked for.
      have related : field.relation? = some relation := Field.relation?_eq_some.mpr kind
      simp only
      rw [agrees.system, Validation.checkRelation_congr fun apart =>
        agrees.contains ((within field present relation related).resolve_left apart)]
    | _ => rfl
  unfold Model.validate
  refine Outcome.bind_congr_of_ok fun _ _ => ?_
  rw [Outcome.foldlM_congr fields]

/-- A definition is resolved by looking up what it relates to. -/
theorem resolve (agrees : context.AgreesOn names other) (within : model.RelatesWithin names)
    (old : Option Model) : context.resolve old model = other.resolve old model := by
  have same : filled context old model = filled other old model := by
    refine filled_congr fun field present relation related => ?_
    have leads := within.snapshot old field present relation related
    refine fillRelation_congr agrees.system ?_
    -- The target is the snapshot itself, or it is looked up.
    unfold targetOf
    split
    · rfl
    · rename_i apart
      exact agrees.known _ (leads.resolve_left apart)
  rw [resolve_eq, resolve_eq, same, agrees.system]

/-! ## Compilation -/

/-- The type of a key is found by looking up its model. -/
theorem keyType (agrees : context.AgreesOn names other) {target : String}
    (reads : target = model.name ∨ names target) :
    context.keyType model target = other.keyType model target := by
  -- The model itself is not looked up.
  have definition : (if target = model.name then some model else context.known.find? target) =
      if target = model.name then some model else other.known.find? target := by
    split
    · rfl
    · rename_i apart
      exact agrees.known target (reads.resolve_left apart)
  rw [Context.keyType, Context.keyType, agrees.system, definition]

/-- A column is compiled by looking up the target of its relation. -/
theorem column (agrees : context.AgreesOn names other)
    (reads : ∀ relation, field.relation? = some relation →
      relation.target = model.name ∨ names relation.target) :
    context.column model field = other.column model field := by
  -- Only a foreign key has a type that is looked up.
  unfold Context.column
  refine Outcome.bind_congr_of_ok fun _ _ => ?_
  cases kind : field.kind with
  | relation relation =>
    have leads := reads relation (Field.relation?_eq_some.mpr kind)
    simp only [Context.foreignKeyColumn, agrees.keyType leads]
  | _ => rfl

/-- A join table is compiled by looking up the target of its relation. -/
theorem joinTable (agrees : context.AgreesOn names other)
    (reads : ∀ relation, field.relation? = some relation →
      relation.target = model.name ∨ names relation.target) :
    context.joinTable model field = other.joinTable model field := by
  -- The two columns have the key types of the model and of the target.
  unfold Context.joinTable
  cases kind : field.kind with
  | relation relation =>
    have leads := reads relation (Field.relation?_eq_some.mpr kind)
    have owner : context.keyType model model.name = other.keyType model model.name :=
      agrees.keyType (Or.inl rfl)
    simp only [agrees.keyType leads, owner]
  | _ => rfl

/-- A definition is compiled by looking up what it relates to. -/
theorem synthesize (agrees : context.AgreesOn names other) (within : model.RelatesWithin names) :
    context.synthesize model = other.synthesize model := by
  -- A definition is checked as a whole and then compiled field by field.
  unfold Context.synthesize
  rw [agrees.validate within,
    Outcome.mapM_congr fun field present => agrees.column (within field present),
    Outcome.mapM_congr fun field present => agrees.joinTable (within field present)]

/-- The new columns of a definition are compiled by looking up what it relates to. -/
theorem ownColumns (agrees : context.AgreesOn names other) (within : model.RelatesWithin names)
    (old : Option Model) :
    WritePlan.ownColumns context old model = WritePlan.ownColumns other old model := by
  -- A new model has no columns to catch up on.
  cases old with
  | none => rfl
  | some old =>
    refine congrArg (· >>= fun statements => Except.ok (statements.filterMap id))
      (Outcome.mapM_congr fun field listed => ?_)
    rw [agrees.column (within field (List.mem_filter.mp listed).1)]

/-! ## Edits -/

/-- The column of a counterpart is compiled by looking up the source. -/
theorem columnFor (agrees : context.AgreesOn names other) {name : String} (reads : names name) :
    TargetEdit.columnFor context name before after =
      TargetEdit.columnFor other name before after := by
  funext insertion
  unfold TargetEdit.columnFor
  cases found : after.counterpartIndex? name insertion.field insertion.counterpart.name with
  | none => rfl
  | some index =>
    -- A counterpart leads back to the source, and so its column refers to the table of the source.
    obtain ⟨field, there, pairs⟩ := Model.exists_of_counterpartIndex? found
    have leads : ∀ relation, field.relation? = some relation →
        relation.target = after.name ∨ names relation.target := by
      intro relation related
      have targets := (Field.pairsWith_iff.mp pairs).1
      rw [Field.targets_eq related, beq_iff_eq] at targets
      exact Or.inr (targets ▸ reads)
    simp only [Option.bind_eq_bind, Option.bind_some, there, agrees.column leads]

/-- An edit is checked and compiled by looking up the source. -/
theorem complete (agrees : context.AgreesOn names other) (reads : names source.name) :
    edit.complete context source before = edit.complete other source before := by
  -- Nothing but the column that the source is referred to with is taken from the context.
  simp only [TargetEdit.complete, agrees.columnFor reads]

/-- The edits of a write are planned by looking up what the new version relates to, and what the
relations lead to that are gone. -/
theorem propagation (agrees : context.AgreesOn names other) {removed : List Field}
    (within : source.RelatesWithin names)
    (gone : ∀ field ∈ removed, ∀ relation, field.relation? = some relation →
      relation.target = source.name ∨ names relation.target) :
    WritePlan.propagation context (context.withModel source) source removed =
      WritePlan.propagation other (other.withModel source) source removed := by
  -- The drafts are the same, and so are the targets that they are completed for.
  have drafts : drafts context source removed = drafts other source removed :=
    drafts_congr agrees.system fun field listed relation related out =>
      agrees.contains ((gone field listed relation related).resolve_left out.1)
  unfold WritePlan.propagation
  rw [← drafts]
  refine Outcome.mapM_congr fun edit listed => ?_
  rw [agrees.known _ (target_of_mem_drafts within gone listed)]
  cases other.known.find? edit.target with
  | none => rfl
  | some before => exact (agrees.withModel source).complete (Or.inl rfl)

/-- A write is planned by looking up what the new version relates to and what the old one relates
to. -/
theorem planWrite (agrees : context.AgreesOn names other) {declared : Model}
    {old : Option Record} (within : declared.RelatesWithin names)
    (oldWithin : ∀ record, old = some record → record.definition.name = declared.name ∧
      record.definition.RelatesWithin names) :
    context.planWrite old declared = other.planWrite old declared := by
  rw [planWrite_eq, planWrite_eq, agrees.validate within, agrees.resolve within]
  refine Outcome.bind_congr_of_ok fun _ valid => ?_
  have distinct := (Model.admitted_of_validate valid).distinct
  refine Outcome.bind_congr_of_ok fun resolved done => ?_
  rw [← Context.name_of_resolve distinct done] at oldWithin
  have resolvedWithin := within.resolve distinct done
  -- What comes after the checks is compiled where the resolved definition is known as well.
  have inside := resolvedWithin.mono fun name reads =>
    (Or.inr reads : name = resolved.name ∨ names name)
  have withResolved := agrees.withModel resolved
  rw [agrees.validate resolvedWithin, withResolved.synthesize inside,
    withResolved.ownColumns inside, agrees.propagation resolvedWithin fun field gone relation
      related => target_of_mem_removed oldWithin gone related, agrees.system]

end Context.AgreesOn

namespace WritePlan

variable {names : String → Prop} {context : Context} {old : Option Record} {declared : Model}
  {plan : WritePlan}

/-- A planned version relates to nothing to which the definition does not that was given. -/
theorem relatesWithin_of_planWrite (planned : context.planWrite old declared = .ok plan)
    (within : declared.RelatesWithin names) : plan.definition.RelatesWithin names := by
  -- Resolution adds no relation to another model.
  obtain ⟨distinct, done⟩ := resolve_of_planWrite planned
  exact within.resolve distinct done

/-- A plan edits nothing but what its new version relates to or the old one. -/
theorem Sound.target_within (sound : plan.Sound context old)
    (within : plan.definition.RelatesWithin names)
    (oldWithin : ∀ record, old = some record → record.definition.name = plan.definition.name ∧
      record.definition.RelatesWithin names)
    {edit : TargetEdit} (listed : edit ∈ plan.edits) : names edit.target := by
  -- But for its statements the edit is a draft.
  have target : names edit.plain.target := target_of_mem_drafts within
    (fun field gone relation related => target_of_mem_removed oldWithin gone related)
    (sound.plain_mem_drafts listed)
  exact target

/-- A plan edits nothing but what the definition relates to that was given, or the old version. -/
theorem target_of_mem_edits (planned : context.planWrite old declared = .ok plan)
    (within : declared.RelatesWithin names)
    (oldWithin : ∀ record, old = some record → record.definition.name = declared.name ∧
      record.definition.RelatesWithin names)
    {edit : TargetEdit} (listed : edit ∈ plan.edits) : names edit.target := by
  -- The edits lead where the resolved definition leads, or the old version led.
  obtain ⟨distinct, done⟩ := resolve_of_planWrite planned
  rw [← Context.name_of_resolve distinct done] at oldWithin
  exact (sound_of_planWrite planned).target_within (within.resolve distinct done) oldWithin listed

end WritePlan

end ModelCatalog
