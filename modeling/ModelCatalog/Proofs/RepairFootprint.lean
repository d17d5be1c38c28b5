import ModelCatalog.Proofs.Completion
import ModelCatalog.Proofs.Idempotence
import ModelCatalog.Proofs.PlainFields
import ModelCatalog.Proofs.RepairedFields

/-! The footprint of a repair: it is about relations within the catalog. Plain fields and relations
to system models stay, what is left leads somewhere, and a model is updated once if it changed. -/

namespace ModelCatalog

open Resolution WritePlan RepairPlan

variable {system : SystemModels}

/-! ## Relations to system models -/

/-- The field relates to a system model. -/
def Field.leadsToSystem (system : SystemModels) (field : Field) : Bool :=
  field.relation?.any fun relation => system.contains relation.target

/-- The relations of a model to system models, in order. -/
def Model.toSystem (system : SystemModels) (model : Model) : List Field :=
  model.fields.filter (Field.leadsToSystem system)

/-- The field is as it was, or the join table was filled in that a many-to-many relation was
missing. -/
inductive Field.JoinedFrom (before : Field) : Field → Prop where
  | same : JoinedFrom before before
  | joined {relation : Relation} (table : String) (related : before.relation? = some relation)
    (uses : relation.kind.usesJoinTable = true) (missing : relation.joinTable = none) :
    JoinedFrom before { before with kind := .relation { relation with joinTable := some table } }

namespace Field

variable {before middle after : Field}

/-- A join table is filled in once at most. -/
theorem JoinedFrom.trans (first : before.JoinedFrom middle) (second : middle.JoinedFrom after) :
    before.JoinedFrom after := by
  cases first with
  | same => exact second
  | joined table related uses missing =>
    cases second with
    | same => exact .joined table related uses missing
    | joined _ again _ stillMissing =>
      -- What was filled in is not missing.
      cases Option.some.inj again
      cases stillMissing

/-- Lists of fields are joined from one another field by field, also over several steps. -/
theorem joinedFrom_trans {one other last : List Field} (first : List.Forall₂ JoinedFrom one other)
    (second : List.Forall₂ JoinedFrom other last) : List.Forall₂ JoinedFrom one last := by
  -- The fields are paired off twice, in the same order.
  induction first generalizing last with
  | nil => exact second
  | cons head tail ih =>
    cases second with
    | cons next rest => exact .cons (head.trans next) (ih rest)

/-- A list of fields is joined from itself. -/
theorem joinedFrom_refl (fields : List Field) : List.Forall₂ JoinedFrom fields fields :=
  -- Each field is the one it was.
  List.forall₂_same.mpr fun _ _ => .same

/-- A relation to a system model targets no model that is none. -/
theorem leadsToSystem_of_targets {field : Field} {target : String}
    (leads : field.targets target = true) (outside : system.contains target = false) :
    field.leadsToSystem system = false := by
  -- The relation leads to one model, and that is no system model.
  obtain ⟨relation, related, rfl⟩ := targets_iff.mp leads
  simp [leadsToSystem, related, outside]

/-- Whether a field relates to a system model is told by its target. -/
theorem leadsToSystem_eq (field : Field) :
    field.leadsToSystem system = (field.relation?.map Relation.target).any system.contains := by
  -- Both say that there is a relation and that its target is a system model.
  rw [Option.any_map]
  rfl

/-- Completion keeps the target of a field. -/
theorem CompletedTo.target_eq {old : Option Model}
    (completed : before.CompletedTo system old after) :
    after.relation?.map Relation.target = before.relation?.map Relation.target := by
  -- What is no relation stays as it is, and a relation that is completed keeps its target.
  cases completed with
  | unrelated => rfl
  | @related _ completed held completes =>
    rw [held, show Field.relation? { before with kind := .relation completed } = some completed
      from rfl, Option.map_some, Option.map_some, completes.same]

/-- Of a relation to a system model nothing is completed but the join table. -/
theorem CompletedTo.joinedFrom {old : Option Model}
    (completed : before.CompletedTo system old after)
    (outside : before.leadsToSystem system = true) : before.JoinedFrom after := by
  cases completed with
  -- Relations to system models have no counterpart, so the inverse name stays as it was.
  | unrelated => exact .same
  | @related declared completed held completes =>
    have isSystem : system.contains declared.target = true := by
      simpa [leadsToSystem, held] using outside
    have sameName := completes.keepsName (Or.inr isSystem)
    by_cases filled : declared.kind.usesJoinTable = true ∧ declared.joinTable = none
    · obtain ⟨table, given⟩ := Option.isSome_iff_exists.mp
        (completes.resolved.joined (by rw [completes.same]; exact filled.1))
      have isCompleted : completed = { declared with joinTable := some table } := by
        rw [completes.same, sameName, given]
      rw [isCompleted]
      exact .joined table held filled.1 filled.2
    · -- Otherwise there was a table already, or there is none to be had.
      have kept : completed.joinTable = declared.joinTable := by
        refine completes.keepsTable ?_
        by_cases uses : declared.kind.usesJoinTable = true
        · exact Or.inl (Option.isSome_iff_ne_none.mpr fun none => filled ⟨uses, none⟩)
        · exact Or.inr (by simpa using uses)
      have isCompleted : completed = declared := by rw [completes.same, sameName, kept]
      rw [isCompleted, ← relation?_eq_some.mp held]
      exact .same

end Field

namespace Model

variable {model : Model}

/-- Relations to system models lead out of a model that is none. -/
theorem toSystem_eq (outside : system.contains model.name = false) :
    model.toSystem system = model.others.filter (Field.leadsToSystem system) := by
  -- Both filters keep fields that relate to a system model, and those do not lead back to the
  -- model.
  rw [toSystem, others, List.filter_filter]
  refine List.filter_congr fun field _ => ?_
  cases own : field.targets model.name with
  | true => simp [Field.leadsToSystem_of_targets own outside]
  | false => simp

/-- Putting the counterpart of a field of the catalog in place keeps the relations to system
models. -/
theorem toSystem_upsertCounterpart (target : Model) {source fieldName : String} {desired : Field}
    (inverts : desired.invertsTo source fieldName = true)
    (outside : system.contains source = false) :
    (target.upsertCounterpart source fieldName desired).target.toSystem system =
      target.toSystem system := by
  refine filter_upsertCounterpart (fun field _ pairs => ?_) ?_
  · exact Field.leadsToSystem_of_targets (Field.pairsWith_iff.mp pairs).1 outside
  · -- Neither the counterpart put in place nor one it takes the place of leads to a system model:
    -- both lead back to the source.
    exact Field.leadsToSystem_of_targets
      (Field.targets_of_invertsTo (invertsTo_upsertCounterpart inverts)) outside

end Model

namespace Context

variable {context : Context} {old : Option Model} {model resolved : Model}

/-- Resolution keeps the relations to system models, up to join tables. -/
theorem toSystem_of_resolve (done : context.resolve old model = .ok resolved)
    (outside : context.system.contains model.name = false) :
    List.Forall₂ Field.JoinedFrom (model.toSystem context.system)
      (resolved.toSystem context.system) := by
  obtain ⟨named, completed⟩ := completedTo_of_resolve done
  rw [Model.toSystem_eq outside, Model.toSystem_eq (named ▸ outside)]
  -- Each pair of fields leads to a system model on both sides or on neither.
  have alike : ∀ ⦃one other : Field⦄, one.CompletedTo context.system old other →
      (one.leadsToSystem context.system = true ↔ other.leadsToSystem context.system = true) := by
    intro one other completes
    rw [Field.leadsToSystem_eq, Field.leadsToSystem_eq, completes.target_eq]
  have leads : ∀ field ∈ model.others.filter (Field.leadsToSystem context.system),
      field.leadsToSystem context.system = true := fun _ listed => (List.mem_filter.mp listed).2
  exact ((List.forall₂_and_left _ _).mpr ⟨leads, List.rel_filter alike completed⟩).imp
    fun _ _ ⟨outside, completes⟩ => completes.joinedFrom outside

/-- A relation of a resolved definition leads to the model itself, or where a declared one leads. -/
theorem target_of_resolve (done : context.resolve old model = .ok resolved) {field : Field}
    (present : field ∈ resolved.fields) {relation : Relation}
    (related : field.relation? = some relation) :
    relation.target = model.name ∨ ∃ declared ∈ model.fields, ∃ given,
      declared.relation? = some given ∧ given.target = relation.target := by
  obtain ⟨named, completed⟩ := completedTo_of_resolve done
  by_cases own : relation.target = model.name
  · exact Or.inl own
  · have elsewhere : field ∈ resolved.others := by
      refine List.mem_filter.mpr ⟨present, ?_⟩
      rw [named, (Field.not_targets_iff related).mpr own, Bool.not_false]
    -- The declared relation has the same place among those that lead out of the model.
    obtain ⟨⟨index, bound⟩, rfl⟩ := List.mem_iff_get.mp elsewhere
    have head := completed.get (completed.length_eq ▸ bound) bound
    have same := head.target_eq
    rw [related, Option.map_some, eq_comm, Option.map_eq_some_iff] at same
    obtain ⟨given, held, same⟩ := same
    exact Or.inr ⟨_, (List.mem_filter.mp (List.get_mem _ _)).1, given, held, same⟩

end Context

/-! ## The repair -/

/-- What is left of models under repair: each stands for one from before whose relations to system
models it has, up to join tables, and all of its relations lead somewhere. -/
structure Models.Footprint (system : SystemModels) (before after : Models) : Prop where
  toSystem : ∀ name model, after.find? name = some model → ∃ earlier,
    before.find? name = some earlier ∧
      List.Forall₂ Field.JoinedFrom (earlier.toSystem system) (model.toSystem system)
  leads : ∀ name model, after.find? name = some model → ∀ field ∈ model.fields,
    leadsSomewhere system before name field = true

namespace Models.Footprint

variable {before models : Models}

/-- A model may be filed in the stead of one whose relations to system models it has, up to join
tables, if its relations lead somewhere. -/
theorem insert (footprint : Models.Footprint system before models) {name : String}
    {model next : Model} (found : models.find? name = some model) (named : next.name = name)
    (joined : List.Forall₂ Field.JoinedFrom (model.toSystem system) (next.toSystem system))
    (leads : ∀ field ∈ next.fields, leadsSomewhere system before name field = true) :
    Models.Footprint system before (models.insert next) := by
  subst named
  refine ⟨fun other held listed => ?_, fun other held listed => ?_⟩
  · -- The model filed last is the new one; the others are as they were filed.
    rcases Roster.of_find?_insert listed with ⟨rfl, rfl⟩ | listed
    · obtain ⟨earlier, inBefore, first⟩ := footprint.toSystem _ model found
      exact ⟨earlier, inBefore, Field.joinedFrom_trans first joined⟩
    · exact footprint.toSystem other held listed
  · rcases Roster.of_find?_insert listed with ⟨rfl, rfl⟩ | listed
    · exact leads
    · exact footprint.leads other held listed

end Models.Footprint

namespace RepairPlan

/-- Pruning takes no relation to a system model, and all that do not lead somewhere. -/
theorem footprint_pruneAll (system : SystemModels) (scanned : Models) (report : RepairReport) :
    Models.Footprint system scanned (pruneAll system scanned report).models := by
  refine ⟨fun name model found => ?_, fun name model found field present => ?_⟩
  · -- A pruned model is the model as read, less the fields that lead nowhere.
    rw [find?_pruneAll] at found
    obtain ⟨earlier, inBefore, rfl⟩ := Option.map_eq_some_iff.mp found
    refine ⟨earlier, inBefore, ?_⟩
    have kept : (prune system scanned earlier).toSystem system = earlier.toSystem system := by
      rw [Model.toSystem, Model.toSystem, prune, List.filter_filter]
      refine List.filter_congr fun field _ => ?_
      -- A field that relates to a system model leads somewhere and is kept.
      cases outside : field.leadsToSystem system with
      | false => rfl
      | true =>
        obtain ⟨relation, related, isSystem⟩ := (Option.any_eq_true _ _).mp outside
        simp [leadsSomewhere, related, isSystem]
    rw [kept]
    exact Field.joinedFrom_refl _
  · rw [find?_pruneAll] at found
    obtain ⟨earlier, inBefore, rfl⟩ := Option.map_eq_some_iff.mp found
    have own : earlier.name = name := Roster.name_of_find? inBefore
    exact own ▸ (List.mem_filter.mp present).2

/-- A repair of models that are no system models has this footprint. -/
theorem footprint_repair {scanned : Models}
    (outside : ∀ name model, scanned.find? name = some model → system.contains name = false)
    (report : RepairReport) :
    Models.Footprint system scanned (repair system scanned report).models := by
  refine models_mendAll_induction (Models.Footprint system scanned)
    (fun models name fieldName field relation target held awaits => ?_) _
    (models_resolveAll_induction (Models.Footprint system scanned)
      (footprint_pruneAll system scanned report)
      (fun models name model resolved held found done => ?_) _)
  · -- The counterpart leads to a model that is there and no system model.
    obtain ⟨source, sourceFound, -⟩ := awaits.source
    obtain ⟨first, inBefore, -⟩ := held.toSystem name source sourceFound
    have named : target.name = relation.target := Roster.name_of_find? awaits.found
    have inverts := (faces_insertionOf name field relation).inverts
    refine held.insert awaits.found named ?_ fun one present => ?_
    · have same := target.toSystem_upsertCounterpart inverts (outside name first inBefore)
      rw [show Model.toSystem system (target.upsertCounterpart name field.name
        (insertionOf name field relation).counterpart).target = _ from same]
      exact Field.joinedFrom_refl _
    · rcases Model.mem_upsertCounterpart.mp present with rfl | ⟨before, -⟩
      · have back := Field.targets_of_invertsTo
          (@Model.invertsTo_upsertCounterpart target _ _ _ inverts)
        obtain ⟨relation, related, leads⟩ := Field.targets_iff.mp back
        exact (leadsSomewhere_iff related).mpr fun _ => ⟨first, leads ▸ inBefore⟩
      · exact held.leads _ target awaits.found one before
  · -- A resolved model has join tables filled in, and leads nowhere else than before.
    have own : model.name = name := Roster.name_of_find? found
    obtain ⟨first, inBefore, -⟩ := held.toSystem name model found
    refine held.insert found ((Context.of_resolve done).1.trans own)
      (Context.toSystem_of_resolve done (own ▸ outside name first inBefore))
      fun one present => leadsSomewhere_of_stored fun relation related out => ?_
    -- A relation that leads out of the model was there before.
    rcases Context.target_of_resolve done present related with
      inside | ⟨declared, listed, given, related, same⟩
    · exact absurd (inside.trans own) out.1
    · have leads := held.leads name model found declared listed
      rw [← same]
      exact (leadsSomewhere_iff related).mp leads (by rw [leadsOut, same]; exact out)

/-! ## The plan -/

variable {records : List Record} {reapplying : Bool} {plan : RepairPlan}

/-- The version under a name is that of the record of the name. -/
theorem versionOf_of_mem (distinct : (records.map Record.name).Nodup) {record : Record}
    (listed : record ∈ records) : versionOf records record.name = some record.version := by
  obtain ⟨version, held⟩ := Option.isSome_iff_exists.mp
    (isSome_versionOf distinct (find?_scanned_of_mem distinct listed))
  obtain ⟨last, found, rfl⟩ := Option.map_eq_some_iff.mp held
  -- The last record of the name is the only one.
  have named : last.name = record.name := by simpa using List.find?_some found
  rw [held, List.inj_on_of_nodup_map distinct
    (List.mem_reverse.mp (List.mem_of_find?_eq_some found)) listed named]

/-- The updates of a plan are the definitions that do not equal what was stored, each with the
version of its record. -/
theorem mem_updates (distinct : (records.map Record.name).Nodup)
    (planned : ofRecords system records reapplying = .ok plan) (now : Nat) {model : Model}
    {version : Nat} :
    (model, version) ∈ plan.updates ↔ ∃ record ∈ records,
      (plan.appliedTo now record).definition = model ∧ record.version = version ∧
        record.definition.sameAs model = false := by
  have updates : plan.updates =
      updated records (scanned records) (repaired system records).models :=
    updates_of_ofRecords planned
  rw [updates, mem_updated]
  constructor
  · -- What changed under repair was read from a record, and there is one of its name.
    rintro ⟨found, changed, held⟩
    obtain ⟨earlier, stored, -⟩ := (defaultsFrom_repair system (scanned records)
      (.untouched records.length)).fewer model.name model found
    obtain ⟨record, listed, rfl, named⟩ := (find?_scanned distinct).mp stored
    rw [← named] at found held
    have version_eq := (versionOf_of_mem distinct listed).symm.trans held
    have written := (definition_appliedTo distinct planned now listed).symm.trans found
    exact ⟨record, listed, Option.some.inj written, Option.some.inj version_eq, changed _ stored⟩
  · -- Conversely the definition that a record is given is found under the name of the record.
    rintro ⟨record, listed, rfl, rfl, changed⟩
    have named : (plan.appliedTo now record).definition.name = record.name :=
      name_appliedTo plan now record
    rw [named]
    refine ⟨definition_appliedTo distinct planned now listed, fun stored was => ?_,
      versionOf_of_mem distinct listed⟩
    rw [find?_scanned_of_mem distinct listed, Option.some.injEq] at was
    exact was ▸ changed

/-- A definition that is free of NaN equals what is left of it only if it is left alone. -/
theorem sameAs_appliedTo (distinct : (records.map Record.name).Nodup)
    (planned : ofRecords system records reapplying = .ok plan) (now : Nat) {record : Record}
    (listed : record ∈ records) (comparable : record.definition.Comparable) :
    record.definition.sameAs (plan.appliedTo now record).definition = false ↔
      (plan.appliedTo now record).definition ≠ record.definition := by
  rw [← Bool.not_eq_true, not_iff_not]
  constructor
  · -- Repair only takes fields and fills in defaults, so what equals the definition before is it.
    intro same
    obtain ⟨earlier, before, fewer⟩ := (defaultsFrom_repair system (scanned records)
      (.untouched records.length)).fewer _ _ (definition_appliedTo distinct planned now listed)
    rw [find?_scanned_of_mem distinct listed, Option.some.injEq] at before
    exact Model.eq_of_sameAs same (before ▸ fewer)
  · intro same
    rw [same]
    exact comparable.sameAs_self

/-- A repair is about relations within the catalog. The plain fields of every model stay, and so do
its relations to system models, but for the join tables that were missing; all of its relations lead
to the model itself, to a system model or to one that is stored. Each model is updated once at
most, with the version it was read at, and it is updated when its definition changed. -/
theorem repair_footprint (distinct : (records.map Record.name).Nodup)
    (outside : ∀ record ∈ records, system.contains record.name = false)
    (planned : ofRecords system records reapplying = .ok plan) (now : Nat) :
    (∀ record ∈ records,
      let after := (plan.appliedTo now record).definition
      after.name = record.name ∧ after.plain = record.definition.plain ∧
        List.Forall₂ Field.JoinedFrom (record.definition.toSystem system)
          (after.toSystem system) ∧
        ∀ field ∈ after.fields, ∀ relation, field.relation? = some relation →
          relation.target = record.name ∨ system.contains relation.target = true ∨
            ∃ other ∈ records, other.name = relation.target) ∧
      (plan.updates.map fun update => update.1.name).Nodup ∧
      (∀ update ∈ plan.updates, ∃ record ∈ records,
        update = ((plan.appliedTo now record).definition, record.version)) ∧
      ((∀ record ∈ records, record.definition.Comparable) → ∀ record ∈ records,
        (((plan.appliedTo now record).definition, record.version) ∈ plan.updates ↔
          (plan.appliedTo now record).definition ≠ record.definition)) := by
  have stored := fun record listed => @find?_scanned_of_mem records distinct record listed
  have footprint : Models.Footprint system (scanned records) (repaired system records).models := by
    refine footprint_repair (fun name model found => ?_) _
    obtain ⟨record, listed, rfl, rfl⟩ := (find?_scanned distinct).mp found
    exact outside record listed
  refine ⟨fun record listed => ?_, ?_, fun update listed => ?_, fun comparable record listed => ?_⟩
  · -- What a record is left with: its name, its plain fields, its relations out of the catalog, and
    -- where the others lead.
    have found := definition_appliedTo distinct planned now listed
    refine ⟨name_appliedTo plan now record, ?_, ?_, fun field present relation related => ?_⟩
    · have plain := keepsPlain_repair system (scanned records) (.untouched records.length)
        record.name
      rw [stored record listed] at plain
      exact Option.some.inj ((congrArg (Option.map Model.plain) found).symm.trans plain)
    · obtain ⟨earlier, before, joined⟩ := footprint.toSystem _ _ found
      rw [stored record listed, Option.some.injEq] at before
      exact before ▸ joined
    · have leads := footprint.leads _ _ found field present
      simp only [leadsSomewhere, related, Bool.or_eq_true, beq_iff_eq, Roster.contains_eq] at leads
      rcases leads with (own | isSystem) | there
      · exact Or.inl own
      · exact Or.inr (Or.inl isSystem)
      · obtain ⟨model, target⟩ := Option.isSome_iff_exists.mp there
        obtain ⟨other, otherListed, rfl, named⟩ := (find?_scanned distinct).mp target
        exact Or.inr (Or.inr ⟨other, otherListed, named⟩)
  · rw [updates_of_ofRecords planned]
    exact nodup_names_updated _ _ _
  · obtain ⟨record, inRecords, same, version, -⟩ :=
      (mem_updates distinct planned now).mp (show (update.1, update.2) ∈ plan.updates from listed)
    exact ⟨record, inRecords, by rw [same, version]⟩
  · rw [mem_updates distinct planned now,
      ← sameAs_appliedTo distinct planned now listed (comparable record listed)]
    -- An update of this record is that of a record with its name.
    constructor
    · rintro ⟨other, inRecords, same, -, changed⟩
      -- What is left of two records under one name is left of one.
      have named : other.name = record.name := by
        rw [← name_appliedTo plan now other, ← name_appliedTo plan now record, Record.name, same,
          Record.name]
      obtain rfl := List.inj_on_of_nodup_map distinct inRecords listed named
      exact changed
    · exact fun changed => ⟨record, listed, rfl, rfl, changed⟩

/-- Posts that users like, whose shelf is missing, and whose tags do not know of them. -/
def likedPosts : List Record :=
  [stored "Post" [
      .ofScalar "title" .text,
      .ofRelation "likers" (.to .manyToMany "User"),
      .ofRelation "shelf" { Relation.to .manyToOne "Shelf" with inverseName := some "posts" },
      .ofRelation "tags"
        { Relation.to .manyToMany "Tag" with
          inverseName := some "posts", joinTable := some "tagged" }],
    stored "Tag" [.ofScalar "label" .text]]

/-- The posts after repair. -/
def keptPosts : Model where
  name := "Post"
  fields := [
    .ofScalar "title" .text,
    .ofRelation "likers"
      { Relation.to .manyToMany "User" with joinTable := some "Post_likers_User" },
    .ofRelation "tags" { Relation.to .manyToMany "Tag" with
      inverseName := some "posts", joinTable := some "tagged" }]

/-- The tags after repair. -/
def keptTags : Model where
  name := "Tag"
  fields := [
    .ofScalar "label" .text,
    .ofRelation "posts" { Relation.to .manyToMany "Post" with
      inverseName := some "tags", joinTable := some "tagged" }]

/-- The posts keep their title and those who like them, in a table that is filled in, and lose their
shelf; the tags keep their label. -/
theorem repair_footprint_likedPosts :
    (likedPosts.map Record.name).Nodup ∧
      (∀ record ∈ likedPosts, SystemModels.standard.contains record.name = false) ∧
      ∃ plan, ofRecords .standard likedPosts false = .ok plan ∧
        plan.updates = [(keptPosts, 1), (keptTags, 1)] ∧
        ∀ record ∈ likedPosts,
          (plan.appliedTo 0 record).definition.plain = record.definition.plain ∧
            List.Forall₂ Field.JoinedFrom (record.definition.toSystem .standard)
              ((plan.appliedTo 0 record).definition.toSystem .standard) := by
  -- The hypotheses are decided, and the updates of the plan are worked out.
  have distinct : (likedPosts.map Record.name).Nodup := by decide
  have outside : ∀ record ∈ likedPosts, SystemModels.standard.contains record.name = false := by
    decide
  have summary : (ofRecords .standard likedPosts false).map RepairPlan.updates =
      .ok [(keptPosts, 1), (keptTags, 1)] := by
    decide +kernel
  obtain ⟨plan, planned, updates⟩ := Outcome.map_eq_ok.mp summary
  have footprint := (repair_footprint distinct outside planned 0).1
  exact ⟨distinct, outside, plan, planned, updates, fun record listed =>
    ⟨(footprint record listed).2.1, (footprint record listed).2.2.1⟩⟩

end RepairPlan

end ModelCatalog
