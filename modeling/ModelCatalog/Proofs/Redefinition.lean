import ModelCatalog.Proofs.PlannedStatements
import ModelCatalog.Proofs.Replanning
import ModelCatalog.Proofs.Reresolution
import ModelCatalog.Proofs.Retry

/-! Redefinition: what becomes of a model that is defined once more as it was defined before. -/

namespace ModelCatalog

open Resolution

/-! ## Versions of one outline -/

namespace WritePlan

variable {context later : Context} {old : Option Record} {declared again : Model}
  {plan : WritePlan} {record : Record}

/-- The insertions of models of one name and outline are the same. -/
theorem insertions_congr_of_outline {source twin : Model} (system : later.system = context.system)
    (name : twin.name = source.name) (same : twin.outline = source.outline) :
    insertions later twin = insertions context source := by
  -- The counterpart of a field is made of its outline alone, and so are the insertions.
  unfold insertions
  rw [system, name]
  refine Model.filterMap_congr_of_outline (fun one other alike => ?_) same
  have named : one.name = other.name := congrArg Prod.fst alike
  have related := Field.relation?_eq_of_outline_eq alike
  simp only [Field.counterpart?_eq, Field.counterpartName, related, named]

/-- No relation is given up for a version of the same outline. -/
theorem removed_of_outline_eq (system : SystemModels)
    (same : record.definition.outline = again.outline) :
    (changes system (some record) again).removed = [] := by
  -- A relation of the record has a twin of the same name and target in the other version.
  rw [List.eq_nil_iff_forall_not_mem]
  intro field gone
  obtain ⟨listed, -⟩ := List.mem_filter.mp gone
  obtain ⟨⟨before, relation⟩, pair, isBefore⟩ := List.mem_map.mp listed
  obtain ⟨_, inRecord, held⟩ := List.mem_filterMap.mp pair
  obtain ⟨_, related, equal⟩ := Option.map_eq_some_iff.mp held
  -- What was given up would have to differ from that twin, by name or by target.
  cases equal
  obtain ⟨twin, inAgain, alike⟩ := Model.exists_of_outline_eq same inRecord
  have apart := isSame_of_removed gone twin inAgain
  have twinRelation := (Field.relation?_eq_of_outline_eq alike).trans related
  have named : twin.name = before.name := congrArg Prod.fst alike
  rw [← isBefore] at apart
  simp [RelationChange.isSame, related, twinRelation, named] at apart

/-- No join table is given up for a version of the same name and outline. -/
theorem obsoleteTables_of_outline_eq (system : SystemModels)
    (name : record.definition.name = again.name)
    (same : record.definition.outline = again.outline) :
    (changes system (some record) again).obsoleteTables = [] := by
  refine List.eq_nil_iff_forall_not_mem.mpr fun table listed => ?_
  -- The table is one of the record, and so it is one of the other version.
  obtain ⟨unused, _, isOld, field, present, joins, -⟩ := mem_obsoleteTables listed
  cases isOld
  refine unused ?_
  rw [← Model.joinTableNames_eq_of_outline_eq name same]
  exact Model.mem_joinTableNames.mpr ⟨field, present, joins⟩

/-- A version of the same outline adds no columns. -/
theorem ownColumns_of_outline_eq (context : Context)
    (same : record.definition.outline = again.outline) :
    ownColumns context (some record.definition) again = .ok [] := by
  -- Every column of the version is one of the record, so none of its fields has a new one.
  have old : again.fieldsWithNewColumns record.definition = [] := by
    refine List.filter_eq_nil_iff.mpr fun field present => ?_
    cases named : field.columnName? with
    | none => simp
    | some column =>
      have listed := Model.mem_columnNames present named
      rw [← Model.columnNames_eq_of_outline_eq same] at listed
      simpa using listed
  show newColumns context record.definition again = .ok []
  rw [newColumns, old]
  rfl

namespace Sound

/-- After a write, a draft for a version of the same outline finds its counterparts in place, in
a target that fits. -/
theorem settled_of_outline_eq (sound : plan.Sound context old)
    (system : later.system = context.system)
    (revised : ∀ name, name ≠ plan.definition.name →
      later.known.find? name = (context.known.find? name).map sound.after)
    (name : again.name = plan.definition.name) (same : again.outline = plan.definition.outline)
    {draft : TargetEdit} (drafted : draft ∈ drafts later again []) {target : Model}
    (found : later.known.find? draft.target = some target) :
    draft.Orderly again.name ∧ draft.SettledIn again.name target ∧
      TargetEdit.checkFit again.name target = .ok () := by
  obtain ⟨isDraft, apart, -⟩ := of_mem_drafts drafted
  -- Both drafts are about the same insertions, since these depend on the outline only.
  have puts := @insertions_congr_of_outline context later _ _ system name same
  rw [revised _ (name ▸ apart)] at found
  obtain ⟨before, known, rfl⟩ := Option.map_eq_some_iff.mp found
  have named : before.name = draft.target := Roster.name_of_find? known
  -- Nothing was given up, so the draft removes nothing.
  have removals : draft.removals = [] := by
    rw [isDraft]
    rfl
  have insertions : draft.insertions = (sound.draftFor draft.target).insertions := by
    rw [isDraft]
    show (WritePlan.insertions later again).filterMap _ = _
    rw [puts]
    rfl
  -- The draft has an insertion, and so there was a draft for its target before.
  have first : sound.draftFor draft.target ∈ drafts context plan.definition
      (changes context.system old plan.definition).removed := by
    rw [drafts_eq] at drafted ⊢
    obtain ⟨_, isTarget, isOf⟩ := List.mem_map.mp drafted
    refine List.mem_map_of_mem (mem_targets.mpr (Or.inr ?_))
    rcases mem_targets.mp isTarget with ⟨removal, listed⟩ | ⟨insertion, listed⟩
    · cases listed
    · rw [puts] at listed
      exact ⟨insertion, by rw [← isOf]; exact listed⟩
  -- That draft was completed and applied, so that its target holds what the insertions ask for and
  -- fits.
  obtain ⟨edit, completed⟩ := sound.complete _ first before known
  have orderly := sound.orderly draft.target
  have settled := orderly.settledIn_apply before
  have isAfter : ((sound.draftFor draft.target).apply plan.definition.name before).1 =
      sound.after before := by
    rw [← named]
    rfl
  have fits := (TargetEdit.complete_eq_ok.mp completed).2.1
  rw [isAfter] at settled fits
  rw [name]
  -- The later draft is in order, settled and fitting because it is the earlier one without
  -- removals.
  refine ⟨⟨?_, ?_, ?_⟩, ⟨?_, ?_⟩, fits⟩
  · rw [insertions]
    exact orderly.faces
  · rw [insertions]
    exact orderly.apart
  · rw [removals]
    exact fun _ gone => absurd gone List.not_mem_nil
  · rw [insertions]
    exact settled.placed
  · rw [removals]
    exact fun _ gone => absurd gone List.not_mem_nil

end Sound

/-- A definition is planned once more over the version that it led to, when it is resolved to one of
the same outline, and then no edit has anything left to do. -/
theorem exists_planWrite_settled (later : Context)
    (planned : context.planWrite old declared = .ok plan) (sound : plan.Sound context old)
    (system : later.system = context.system)
    (revised : ∀ name, name ≠ plan.definition.name →
      later.known.find? name = (context.known.find? name).map sound.after)
    (finite : ∀ name model, context.known.find? name = some model → model.Finite)
    (name : record.definition.name = plan.definition.name)
    (stored : record.definition.outline = plan.definition.outline)
    (done : later.resolve (some record.definition) declared = .ok again)
    (same : again.outline = plan.definition.outline) (againFinite : again.Finite) :
    ∃ second, later.planWrite (some record) declared = .ok second ∧ second.definition = again ∧
      ∀ edit ∈ second.edits, ∀ target, later.known.find? edit.target = some target →
        edit.apply again.name target = (target, false) := by
  -- Resolution leads to the name and the outline of the plan, so the two versions have one outline.
  obtain ⟨distinct, resolved⟩ := resolve_of_planWrite planned
  have own := Context.name_of_resolve distinct resolved
  have againName : again.name = plan.definition.name :=
    (Context.name_of_resolve distinct done).trans own.symm
  have kept : record.definition.outline = again.outline := stored.trans same.symm
  have removed := removed_of_outline_eq later.system kept
  -- The drafts of the second plan are those that the first has settled.
  have fits : ∀ draft ∈ drafts later again [], ∀ target,
      later.known.find? draft.target = some target →
        draft.Orderly again.name ∧ draft.SettledIn again.name target ∧
          TargetEdit.checkFit again.name target = .ok () := fun draft drafted target found =>
    sound.settled_of_outline_eq system revised againName same drafted found
  have comparable : ∀ draft ∈ drafts later again [], ∀ target,
      later.known.find? draft.target = some target →
        Field.sameList target.fields target.fields = true := by
    intro draft drafted target found
    rw [revised _ (againName ▸ (of_mem_drafts drafted).2.1)] at found
    obtain ⟨before, known, rfl⟩ := Option.map_eq_some_iff.mp found
    exact Field.sameList_self (sound.finite_after (finite _ before known))
  -- The same models are known as before, so that relations find their targets again.
  have contained : ∀ name, name ≠ declared.name →
      later.known.contains name = context.known.contains name := by
    intro name differ
    rw [Roster.contains_eq, Roster.contains_eq, revised name (own ▸ differ), Option.isSome_map]
  -- With nothing given up there are no tables to drop, and no edit has a counterpart to take away.
  have drops : (changes later.system (some record) again).obsoleteTables.mapM
      Statement.dropTableOf = .ok [] := by
    rw [obsoleteTables_of_outline_eq later.system (name.trans againName.symm) kept]
    rfl
  have edits : ∃ edits, propagation later (later.withModel again) again
      (changes later.system (some record) again).removed = .ok edits := by
    refine exists_propagation fun draft drafted target found => ?_
    rw [removed] at drafted
    obtain ⟨orderly, settled, fit⟩ := fits draft drafted target found
    exact TargetEdit.complete_of_settled _ orderly settled (comparable draft drafted target found)
      fit
  -- What is left of the plan is what a version of the same outline needs: no drops and no columns.
  obtain ⟨second, replanned, isAgain⟩ := exists_planWrite later (some record) planned system
    contained done againName same againFinite ⟨[], drops⟩ ⟨[], ownColumns_of_outline_eq _ kept⟩
    edits
  refine ⟨second, replanned, isAgain, fun edit listed target found => ?_⟩
  -- An edit of the plan differs from its draft in columns only, which do not matter to what it
  -- does.
  have plain := (sound_of_planWrite replanned).edits
  rw [isAgain, removed] at plain
  have drafted : edit.plain ∈ drafts later again [] := plain ▸ List.mem_map_of_mem listed
  obtain ⟨-, settled, -⟩ := fits _ drafted target found
  exact settled.apply_eq (comparable _ drafted target found)

end WritePlan

/-! ## Catalogs -/

namespace Catalog

variable {configuration : Configuration} {catalog : Catalog} {plan second : WritePlan}
  {name : String} {fields : List Field} {now later : Nat} {record : Record}

/-- After a write the record of the model itself has the outline of the new version. -/
theorem outline_of_applied {old : Option Record}
    (sound : plan.Sound (configuration.context catalog) old)
    (stored : (catalog.applied plan now).find? plan.definition.name = some record) :
    record.definition.name = plan.definition.name ∧
      record.definition.outline = plan.definition.outline := by
  -- The record holds either the new version itself or one that compares equal to it.
  have held : (catalog.applied plan now).definition? plan.definition.name =
      some record.definition :=
    definition?_of_find? stored
  obtain ⟨own, isOwn, new⟩ := definition?_applied_self sound now
  rw [held, Option.some.injEq] at isOwn
  subst isOwn
  rcases new with same | ⟨equal, -⟩
  · rw [same]
    exact ⟨rfl, rfl⟩
  · exact ⟨Model.name_eq_of_sameAs equal, Model.outline_eq_of_sameAs equal⟩

/-- A plan with nothing to do leaves the catalog as it is. -/
theorem applied_of_settled {old : Option Record}
    (sound : second.Sound (configuration.context catalog) old)
    (stored : catalog.find? second.definition.name = some record)
    (same : record.definition.sameAs second.definition = true)
    (settled : ∀ edit ∈ second.edits, ∀ target, catalog.definition? edit.target = some target →
      edit.apply second.definition.name target = (target, false)) :
    catalog.applied second later = catalog := by
  -- The edits are done one after the other, and each of them leaves the catalog as it is.
  have propagated : catalog.propagated second.definition.name later second.edits = catalog := by
    have isStored : ∀ edit ∈ second.edits,
        ∃ target, catalog.definition? edit.target = some target := by
      intro edit listed
      have isKnown := sound.isSome_target listed
      rw [Configuration.find?_context] at isKnown
      exact Option.isSome_iff_exists.mp isKnown
    generalize second.edits = edits at settled isStored
    induction edits with
    | nil => rfl
    | cons first rest ih =>
      obtain ⟨target, found⟩ := isStored first List.mem_cons_self
      have kept : catalog.edited second.definition.name later first = catalog := by
        refine amended_of_unchanged found ?_
        rw [settled first List.mem_cons_self target found]
      show (catalog.edited second.definition.name later first).propagated _ later rest = catalog
      rw [kept]
      exact ih (fun edit listed => settled edit (List.mem_cons_of_mem _ listed))
        fun edit listed => isStored edit (List.mem_cons_of_mem _ listed)
  have held : catalog.definition? second.definition.name = some record.definition :=
    definition?_of_find? stored
  -- The record of the model itself is stored already, so it is not written either.
  rw [applied, sound.named, propagated, renewed, held, Option.any_some, if_pos same]

/-- What a definition led to is resolved again as it is where nothing is known. -/
theorem resolve_applied_iff
    (planned : (configuration.context catalog).planWrite (catalog.find? name)
      (configuration.declared name fields) = .ok plan)
    (stored : (catalog.applied plan now).find? name = some record) {again : Model} :
    (configuration.context (catalog.applied plan now)).resolve (some record.definition)
        (configuration.declared name fields) = .ok again ↔
      Context.resolve ⟨configuration.system, (∅ : Models)⟩ (some record.definition)
        (configuration.declared name fields) = .ok again := by
  -- Resolution over the record reads what is known of other models only to fill in what the record,
  -- which has been resolved, already gives.
  obtain ⟨own, sound⟩ := WritePlan.sound_of_declared planned
  obtain ⟨distinct, resolved⟩ := WritePlan.resolve_of_planWrite planned
  obtain ⟨-, same⟩ := outline_of_applied sound (own ▸ stored)
  exact Context.resolve_congr_of_resolve (configuration.context (catalog.applied plan now))
    ⟨configuration.system, ∅⟩ distinct resolved sound.admitted.distinct same rfl rfl

/-- A definition that settles as what it led to is planned again without anything to do. -/
theorem exists_plan_of_settles (finite : catalog.Finite)
    (planned : (configuration.context catalog).planWrite (catalog.find? name)
      (configuration.declared name fields) = .ok plan)
    (stored : (catalog.applied plan now).find? name = some record)
    (settles : (configuration.declared name fields).SettlesAs configuration.system
      record.definition) :
    ∃ second, (configuration.context (catalog.applied plan now)).planWrite (some record)
        (configuration.declared name fields) = .ok second ∧
      ∀ later, (catalog.applied plan now).applied second later = catalog.applied plan now := by
  obtain ⟨own, sound⟩ := WritePlan.sound_of_declared planned
  subst own
  -- What is resolved again compares equal to the record, and so it has the outline of the plan.
  obtain ⟨again, done, equal⟩ := settles
  obtain ⟨kept, same⟩ := outline_of_applied sound stored
  have held : (catalog.applied plan now).definition? plan.definition.name =
      some record.definition :=
    definition?_of_find? stored
  have againFinite : again.Finite := (finite.applied sound now _ _ held).of_sameAs equal
  -- The models known after the write are the ones from before, edited by the plan.
  have revised : ∀ name, name ≠ plan.definition.name →
      (configuration.context (catalog.applied plan now)).known.find? name =
        ((configuration.context catalog).known.find? name).map sound.after := by
    intro name differ
    rw [Configuration.find?_context, Configuration.find?_context, definition?_applied sound differ]
  have knownFinite : ∀ name model,
      (configuration.context catalog).known.find? name = some model → model.Finite := by
    intro name model found
    rw [Configuration.find?_context] at found
    exact finite name model found
  obtain ⟨second, replanned, isAgain, settled⟩ := WritePlan.exists_planWrite_settled
    (configuration.context (catalog.applied plan now)) planned sound rfl revised knownFinite kept
    same ((resolve_applied_iff planned stored).mpr done)
    ((Model.outline_eq_of_sameAs equal).symm.trans same) againFinite
  subst isAgain
  refine ⟨second, replanned, fun later => ?_⟩
  have againName : second.definition.name = plan.definition.name :=
    (Model.name_eq_of_sameAs equal).symm.trans kept
  -- No edit does anything, and the own record compares equal: the second plan has no effect.
  refine applied_of_settled (WritePlan.sound_of_planWrite replanned) (againName ▸ stored) equal ?_
  intro edit listed target found
  refine settled edit listed target ?_
  rw [Configuration.find?_context]
  exact found

/-- When what a definition led to keeps its version as it is planned again and stored, the
definition settles as that. -/
theorem settles_of_version
    (planned : (configuration.context catalog).planWrite (catalog.find? name)
      (configuration.declared name fields) = .ok plan)
    (stored : (catalog.applied plan now).find? name = some record)
    (replanned : (configuration.context (catalog.applied plan now)).planWrite (some record)
      (configuration.declared name fields) = .ok second)
    {final : Record}
    (restored : ((catalog.applied plan now).applied second later).find? name = some final)
    (same : final.version = record.version) :
    (configuration.declared name fields).SettlesAs configuration.system record.definition := by
  obtain ⟨-, resolved⟩ := WritePlan.resolve_of_planWrite replanned
  have sound := WritePlan.sound_of_planWrite replanned
  have againName : second.definition.name = name :=
    sound.named.symm.trans (WritePlan.fits_of_planWrite (stored ▸ replanned)).2
  subst againName
  refine ⟨second.definition, (resolve_applied_iff planned stored).mp resolved, ?_⟩
  -- Propagation leaves the record of the model itself alone, so it is compared with the new
  -- version.
  have kept : ((catalog.applied plan now).propagated second.model later second.edits).find?
      second.definition.name = some record := by
    rw [find?_propagated_self sound, stored]
  have held : ((catalog.applied plan now).propagated second.model later second.edits).definition?
      second.definition.name = some record.definition :=
    definition?_of_find? kept
  -- Storing another definition would have made another version.
  cases equal : record.definition.sameAs second.definition with
  | true => rfl
  | false =>
    rw [applied, renewed, held, Option.any_some, equal, if_neg (by simp), find?_written,
      if_pos rfl, kept, Option.some.injEq] at restored
    rw [← restored] at same
    exact absurd same (Nat.succ_ne_self _)

/-- A definition that states its relations to itself settles as what it led to. -/
theorem settles_of_statesSelves
    (planned : (configuration.context catalog).planWrite (catalog.find? name)
      (configuration.declared name fields) = .ok plan)
    (stored : (catalog.applied plan now).find? name = some record)
    (states : (configuration.declared name fields).StatesSelves configuration.system) :
    (configuration.declared name fields).SettlesAs configuration.system record.definition := by
  obtain ⟨own, sound⟩ := WritePlan.sound_of_declared planned
  obtain ⟨distinct, resolved⟩ := WritePlan.resolve_of_planWrite planned
  subst own
  -- The record is the one that the write has left.
  have held : (catalog.applied plan now).definition? plan.definition.name =
      some record.definition :=
    definition?_of_find? stored
  -- The record holds the planned version, up to the signs of zeros.
  have equal : record.definition.sameAs plan.definition = true := by
    obtain ⟨own, isOwn, new⟩ := definition?_applied_self sound now
    rw [held, Option.some.injEq] at isOwn
    subst isOwn
    rcases new with same | ⟨same, -⟩
    · rw [same]
      exact Model.sameAs_self sound.admitted.finite
    · exact same
  exact ⟨plan.definition, Context.resolve_of_statesSelves ⟨configuration.system, ∅⟩ distinct
    resolved sound.admitted.distinct (Model.outline_eq_of_sameAs equal) rfl states, equal⟩

end Catalog

/-! ## Calls -/

/-- A write that succeeds has carried out a plan. -/
theorem Registry.of_successful_write {executor : Executor} {configuration : Configuration}
    {database after : Database} {catalog : Catalog} {name : String} {fields : List Field}
    {mustExist : Bool} {record : Record} (holds : database.store = catalog.store)
    (wrote : (registryWith executor configuration).write name fields mustExist database =
      (.ok record, after)) :
    Allowed catalog name mustExist ∧ ∃ plan,
      (configuration.context catalog).planWrite (catalog.find? name)
        (configuration.declared name fields) = .ok plan ∧
      after.store = (catalog.applied plan database.now).store ∧
      (catalog.applied plan database.now).find? name = some record := by
  rcases write_cases executor configuration holds name fields mustExist with
    ⟨error, refused, -⟩ | ⟨allowed, plan, planned⟩
  · rw [refused] at wrote
    cases wrote
  · -- A plan was made, and a run that is refused would not have given a record.
    rcases write_of_planned executor configuration holds allowed planned with
      ⟨made, final, done, -, left, stored⟩ | ⟨error, final, done, rest, stopped, -⟩
    · rw [done] at wrote
      cases wrote
      exact ⟨allowed, plan, planned, left, stored⟩
    · rw [stopped] at wrote
      cases wrote

/-- Defining a model succeeds, and leaves the definition and the version of every stored record as
they are. -/
def Registry.DefineKeeps (registry : Registry Database) (name : String) (fields : List Field)
    (database : Database) : Prop :=
  ∃ record final, registry.define name fields database = (.ok record, final) ∧
    ∀ other, ∃ before after, database.store.get other = .ok before ∧
      final.store.get other = .ok after ∧
      after.map Record.definition = before.map Record.definition ∧
      after.map Record.version = before.map Record.version

namespace Reachable

variable {configuration : Configuration} {subjects : String → Prop} {database after : Database}
  {first second : Executor} {name : String} {fields : List Field} {record : Record}

/-- A definition that succeeded leaves everything as it is when it is repeated exactly when it
settles as what it has led to. So it does when it states its relations to itself, as it does when
it has none, and it does not when there is a relation to itself that it does not declare. -/
theorem define_again_keeps_iff (reached : Reachable configuration subjects database)
    (defined : (registryWith first configuration).define name fields database =
      (.ok record, after)) (accepts : second.Accepts) :
    ((registryWith second configuration).DefineKeeps name fields after ↔
      (configuration.declared name fields).SettlesAs configuration.system record.definition) ∧
    ((configuration.declared name fields).StatesSelves configuration.system →
      (registryWith second configuration).DefineKeeps name fields after) ∧
    ((∃ gone ∈ record.definition.fields, gone.targets name = true ∧
        ∀ field ∈ (configuration.declared name fields).fields, field.name = gone.name →
          field.targets name = false) →
      ¬(registryWith second configuration).DefineKeeps name fields after) := by
  obtain ⟨catalog, holds, finite⟩ := reached.exists_catalog
  -- The first call has carried out a plan, and the record it gives is the one that it has stored.
  obtain ⟨allowed, plan, planned, left, stored⟩ := Registry.of_successful_write holds defined
  have keeps : (registryWith second configuration).DefineKeeps name fields after ↔
      (configuration.declared name fields).SettlesAs configuration.system record.definition := by
    constructor
    · -- The repeat carries out a plan as well, and the version tells that it has not written the
      -- record.
      rintro ⟨again, final, redefined, kept⟩
      obtain ⟨-, plan, replanned, relaid, restored⟩ := Registry.of_successful_write left redefined
      obtain ⟨one, other, found, refound, -, version⟩ := kept name
      rw [left, Catalog.get_store, stored] at found
      rw [relaid, Catalog.get_store, restored] at refound
      cases found
      cases refound
      rw [stored] at replanned
      exact Catalog.settles_of_version planned stored replanned restored (Option.some.inj version)
    · intro settles
      -- Where the definition settles there is a plan without anything to do, which an executor that
      -- refuses nothing carries out.
      obtain ⟨again, replanned, same⟩ :=
        Catalog.exists_plan_of_settles finite planned stored settles
      have allowedAgain : Registry.Allowed (catalog.applied plan database.now) name false :=
        ⟨allowed.identifier, by simp⟩
      rw [← stored] at replanned
      obtain ⟨written, final, wrote, relaid⟩ :=
        Registry.write_of_accepted accepts left allowedAgain replanned
      -- What was stored the second time is what was stored the first time.
      refine ⟨written, final, wrote, fun other => ?_⟩
      refine ⟨(catalog.applied plan database.now).find? other, _, ?_, ?_, rfl, rfl⟩
      · rw [left, Catalog.get_store]
      · rw [relaid, same, Catalog.get_store]
  refine ⟨keeps, fun states => ?_, ?_⟩
  · exact keeps.mpr (Catalog.settles_of_statesSelves planned stored states)
  · -- A relation to itself that is stored and not declared is given up by resolution, so it cannot
    -- come back the same.
    rintro ⟨gone, inRecord, own, undeclared⟩ kept
    obtain ⟨distinct, -⟩ := WritePlan.resolve_of_planWrite planned
    exact Model.not_settlesAs_of_undeclared distinct inRecord own undeclared (keeps.mp kept)

/-- The manager of a person. -/
def manager : Field :=
  .ofRelation "manager" { Relation.to .manyToOne "Person" with inverseName := some "reports" }

/-- The people whose manager a person is. -/
def reports : Field :=
  .ofRelation "reports" { Relation.to .oneToMany "Person" with inverseName := some "manager" }

/-- The first version of people with some fields. -/
def people (fields : List Field) : Record where
  definition := ⟨"Person", fields⟩
  version := 1
  createdAt := 0
  updatedAt := 0

/-- The state in which people have been defined with some fields. -/
def peopled (fields : List Field) : Database :=
  ((registryWith .idle .standard).define "Person" fields (.empty false 0)).2

/-- People that are defined with both sides of the relation may be defined so again. -/
theorem define_again_keeps_manager_reports :
    Reachable .standard (fun _ => True) (.empty false 0) ∧
      (registryWith .idle .standard).define "Person" [manager, reports] (.empty false 0) =
        (.ok (people [manager, reports]), peopled [manager, reports]) ∧
      Executor.idle.Accepts ∧
      (registryWith .idle .standard).DefineKeeps "Person" [manager, reports]
        (peopled [manager, reports]) := by
  have first : ((registryWith .idle .standard).define "Person" [manager, reports]
      (.empty false 0)).1 = .ok (people [manager, reports]) := by
    decide +kernel
  -- Each of the two fields is resolved and has the other for its mate.
  have states : (Configuration.standard.declared "Person" [manager, reports]).StatesSelves
      Configuration.standard.system := by
    intro field present _
    rcases List.mem_cons.mp present with rfl | present
    · refine ⟨?_, _, List.mem_cons_of_mem _ List.mem_cons_self, by decide, by decide⟩
      rintro _ ⟨⟩
      exact ⟨fun _ => rfl, fun uses => by cases uses⟩
    · rw [List.mem_singleton] at present
      subst present
      refine ⟨?_, _, List.mem_cons_self, by decide, by decide⟩
      rintro _ ⟨⟩
      exact ⟨fun _ => rfl, fun uses => by cases uses⟩
  -- The empty state is reached by no call at all.
  have reached : Reachable .standard (fun _ => True) (.empty false 0) := .empty false 0
  exact ⟨reached, Step.eq_of_fst first, Executor.accepts_idle,
    (define_again_keeps_iff reached (Step.eq_of_fst first) Executor.accepts_idle).2.1 states⟩

/-- People that are defined with one side of the relation lose both sides when they are defined so
again, which makes a second version. -/
theorem define_again_drops_manager :
    (registryWith .idle .standard).define "Person" [manager] (.empty false 0) =
        (.ok (people [manager, reports]), peopled [manager]) ∧
      ((registryWith .idle .standard).define "Person" [manager] (peopled [manager])).1 =
        .ok { people [] with version := 2 } ∧
      ¬(registryWith .idle .standard).DefineKeeps "Person" [manager] (peopled [manager]) := by
  have first : ((registryWith .idle .standard).define "Person" [manager] (.empty false 0)).1 =
      .ok (people [manager, reports]) := by
    decide +kernel
  refine ⟨Step.eq_of_fst first, by decide +kernel, ?_⟩
  -- The repeat would have to leave version one, but it leaves version two.
  rintro ⟨record, final, redefined, kept⟩
  obtain ⟨before, after, found, refound, -, version⟩ := kept "Person"
  -- Before the repeat both fields are there, in the first version.
  have isBefore : (peopled [manager]).store.get "Person" =
      .ok (some (people [manager, reports])) := by
    decide +kernel
  have isAfter : ((registryWith .idle .standard).define "Person" [manager]
      (peopled [manager])).2.store.get "Person" = .ok (some { people [] with version := 2 }) := by
    decide +kernel
  -- After it none is there, in the second one.
  rw [redefined, refound] at isAfter
  rw [found] at isBefore
  cases isBefore
  cases isAfter
  cases version

end Reachable

end ModelCatalog
