import ModelCatalog.Proofs.Consistency
import ModelCatalog.Proofs.Contention
import ModelCatalog.Proofs.ReconcileRun

/-! Idempotence: what a repair leaves is at rest when the stored definitions contend for no names,
so that a second repair has nothing to do. -/

namespace ModelCatalog

open Resolution WritePlan RepairPlan

variable {system : SystemModels}

/-! ## The second half of a repair -/

namespace Resolving

variable {scanned models : Models} {done : List String}

/-- Resolved models are fit to be mended. -/
theorem mendable (resolving : Resolving system scanned done models)
    (all : ∀ model ∈ models.members, model.name ∈ done) : Mendable system models := by
  -- What mending asks for holds of resolved models one by one.
  refine ⟨fun name model found => ?_, fun name model found => ?_, fun name model found => ?_,
    fun name model found => ?_⟩ <;>
    (have listed := Roster.mem_of_find? found
     have own : model.name = name := Roster.name_of_find? found
     have fit := resolving.repairable.each model listed)
  · exact own ▸ fit.inCatalog
  · exact ⟨fit.distinct, fit.resolved, (resolving.mated model listed (all model listed)).closed⟩
  · exact resolving.repairable.unambiguous listed (resolving.stored listed)
  · exact own ▸ resolving.stored listed

/-- Where no names are contended for, every claim on a model can be met. -/
theorem not_denies (resolving : Resolving system scanned done models) {source target name : String}
    {model : Model} (found : models.find? target = some model) :
    ¬models.Denies source target name := by
  rintro ⟨⟨holder, holderFound, field, present, targets, claims⟩, -, taken⟩
  have named : model.name = target := Roster.name_of_find? found
  have holderNamed : holder.name = source := Roster.name_of_find? holderFound
  subst named holderNamed
  have listed := Roster.mem_of_find? found
  have holderListed := Roster.mem_of_find? holderFound
  -- The name was taken by a field of the model, or is claimed by another model.
  rcases taken with ⟨again, foundAgain, blocker, blockerPresent, sameName, elsewhere⟩ |
    ⟨other, apart, -, rivalModel, rivalFound, rival, rivalPresent, rivalTargets, rivalClaims⟩
  · -- A claim on the name of a field that leads elsewhere is none of a repairable collection.
    rw [found, Option.some.injEq] at foundAgain
    subst foundAgain
    have free := resolving.repairable.free holder holderListed field present model listed targets
    rw [(Model.bars_iff (resolving.repairable.each model listed).distinct).mpr
      ⟨blocker, blockerPresent, sameName.trans claims.symm, elsewhere⟩] at free
    cases free
  · -- No two claims on one model share a name there.
    have rivalNamed : rivalModel.name = other := Roster.name_of_find? rivalFound
    subst rivalNamed
    exact apart (resolving.repairable.once holder holderListed field present rivalModel
      (Roster.mem_of_find? rivalFound) rival rivalPresent model listed targets rivalTargets
      (rivalClaims.trans claims.symm)).1

/-- When every model had its turn in mending resolved models, they are settled. -/
theorem settled_of_mending (resolving : Resolving system scanned done models)
    (all : ∀ model ∈ models.members, model.name ∈ done) {turns : List String} {final : Models}
    (mending : Mending system models turns final)
    (had : ∀ name, (final.find? name).isSome = true → name ∈ turns)
    (equal : ∀ name model, final.find? name = some model → model.sameAs model = true) :
    Settled system final := by
  refine { inCatalog := mending.mendable.inCatalog, tidy := mending.mendable.tidy,
           mated := fun name model found field present relation related out => ?_,
           selves := fun name model found field present targets => ?_, equal := equal }
  · -- A claim that could not be met would have been denied from the beginning.
    rcases mending.settled name (had name (by rw [found]; rfl)) model found field present relation
      related out with mated | denied
    · exact mated
    · obtain ⟨target, targetFound⟩ :=
        mending.mendable.stored name model found field present relation related out
      obtain ⟨before, beforeFound⟩ := mending.exists_start targetFound
      exact absurd denied (resolving.not_denies beforeFound)
  · -- Mending leaves self-relations, and so they keep their mates.
    have own : model.name = name := Roster.name_of_find? found
    subst own
    obtain ⟨before, beforeFound⟩ := mending.exists_start found
    have listed := Roster.mem_of_find? beforeFound
    have named : before.name = model.name := Roster.name_of_find? beforeFound
    -- The fields that lead to the model itself are those from before.
    have kept : ∀ one : Field, one.targets model.name = true →
        (one ∈ model.fields ↔ one ∈ before.fields) := by
      intro one leads
      refine mending.kept model.name model before found beforeFound one
        fun relation related out => ?_
      obtain ⟨again, relatedAgain, self⟩ := Field.targets_iff.mp leads
      rw [related, Option.some.injEq] at relatedAgain
      exact out.1 (relatedAgain ▸ self)
    obtain ⟨mate, matePresent, mates⟩ := resolving.mated before listed (all before listed) field
      ((kept field targets).mp present) (named ▸ targets)
    rw [named] at mates
    exact ⟨mate, (kept mate mates.symm.targets).mpr matePresent, mates⟩

end Resolving

/-- A counterpart that is put in place says nothing that it has no use for. -/
theorem Models.EachPaired.upsert {models : Models} {name : String} {field : Field}
    {relation : Relation} {target : Model}
    (each : models.EachPaired system fun field _ => field.cleared = field)
    (found : models.find? relation.target = some target) :
    Models.EachPaired system (models.insert (target.upsertCounterpart name field.name
      (insertionOf name field relation).counterpart).target)
      fun field _ => field.cleared = field := by
  intro other model listed one present held related inCatalog foreign
  -- The fields of the target are those from before or the one put in place, which is cleared.
  rcases Roster.of_find?_insert listed with ⟨named, rfl⟩ | listed
  · rcases Model.mem_upsertCounterpart.mp present with rfl | ⟨before, -⟩
    · rw [← Model.mergeInto_upsertCounterpart]
      exact Field.cleared_mergeInto _ _ _ _ _
    · -- A field from before was cleared before.
      have own : Named.name target = other := named
      rw [← own,
        show Named.name target = relation.target from Roster.name_of_find? found] at foreign
      exact each _ target found one before held related inCatalog foreign
  · -- Every other model is as it was.
    exact each other model listed one present held related inCatalog foreign

/-- What a repair leaves of models that are fit for it is at rest. -/
theorem Models.Repairable.atRest_repair {scanned : Models} (repairable : scanned.Repairable system)
    (equal : ∀ model ∈ scanned.members, model.sameAs model = true) (report : RepairReport) :
    AtRest system (repair system scanned report).models := by
  -- Resolving has come to all models, each of which then has its turn in mending.
  have resolving := (Resolving.pruned repairable report).run scanned.names
  have whole : (repair system scanned report).models =
      (scanned.names.foldl (mendOne system)
        (scanned.names.foldl (resolveOne system) (pruneAll system scanned report))).models := rfl
  generalize scanned.names.foldl (resolveOne system) (pruneAll system scanned report) = middle
    at resolving whole
  have defaults := defaultsFrom_repair system scanned report
  -- The names that have their turn are those of the models that are there.
  have turns : ∀ name, name ∈ scanned.names.reverse ++ [] ↔
      (scanned.find? name).isSome = true := by
    intro name
    rw [List.append_nil, List.mem_reverse, ← Roster.contains_eq, Roster.names, List.mem_map,
      Roster.contains, List.any_eq_true]
    simp
  have all : ∀ model ∈ middle.models.members, model.name ∈ scanned.names.reverse ++ [] := by
    intro model listed
    have found : middle.models.find? model.name = some model := Roster.mem_iff_find?.mp listed
    rw [turns, ← resolving.same, found]
    rfl
  have mending := (Mending.refl (resolving.mendable all)).run scanned.names
    (Roster.names_nodup scanned) (by simp) fun name listed => by
      rw [resolving.same, ← turns]
      simpa using listed
  rw [← whole] at mending
  have settled := resolving.settled_of_mending all mending
    (fun name found => by rwa [turns, ← defaults.same])
    (defaults.equal fun name model found => equal model (Roster.mem_of_find? found))
  -- What a repairable model holds is cleared already.
  have cleared : middle.models.EachPaired system fun field _ => field.cleared = field := by
    intro name model found field present relation related inCatalog foreign
    have own : model.name = name := Roster.name_of_find? found
    subst own
    exact (Field.cleared_eq_self_iff related).mpr ((resolving.repairable.each model
      (Roster.mem_of_find? found)).bare field present relation related inCatalog foreign)
  -- Mending puts nothing in place but what is cleared.
  refine settled.atRest_iff.mpr ?_
  rw [whole]
  exact models_mendAll_induction
    (fun models => models.EachPaired system fun field _ => field.cleared = field)
    (fun models name fieldName field relation target held awaits => held.upsert awaits.found) _
    cleared

/-! ## Two repairs in a row -/

namespace RepairPlan

variable {records : List Record} {reapplying : Bool} {plan : RepairPlan}

/-- A record once the updates of a plan have been written. -/
def appliedTo (plan : RepairPlan) (now : Nat) (record : Record) : Record :=
  match plan.updates.find? fun update => update.1.name == record.name with
  | some update => record.next update.1 now
  | none => record

/-- Writing updates keeps the name of a record. -/
@[simp] theorem name_appliedTo (plan : RepairPlan) (now : Nat) (record : Record) :
    (plan.appliedTo now record).name = record.name := by
  unfold appliedTo
  split
  · -- The update is found by the name, and one that is not found is no update.
    rename_i update found
    simpa [Record.name, Record.next] using List.find?_some found
  · rfl

/-- Once the updates of a plan have been written a record holds the repaired definition. -/
theorem definition_appliedTo (distinct : (records.map Record.name).Nodup)
    (planned : ofRecords system records reapplying = .ok plan) (now : Nat) {record : Record}
    (listed : record ∈ records) :
    (repaired system records).models.find? record.name =
      some (plan.appliedTo now record).definition := by
  -- The update of a name, if there is one, is looked up first.
  have updates :
      plan.updates = updated records (scanned records) (repaired system records).models :=
    updates_of_ofRecords planned
  have defaults : Models.DefaultsFrom (scanned records) (repaired system records).models :=
    defaultsFrom_repair system (scanned records) (.untouched records.length)
  have stored : (scanned records).find? record.name = some record.definition :=
    find?_scanned_of_mem distinct listed
  have there := defaults.same record.name
  -- A repair keeps the names, so that the model of the record is still there.
  rw [stored] at there
  obtain ⟨final, last⟩ := Option.isSome_iff_exists.mp there
  -- An update of this name brings the repaired definition.
  have only : ∀ update ∈ updated records (scanned records) (repaired system records).models,
      update.1.name = record.name → update.1 = final := by
    intro update member named
    have found := Roster.mem_iff_find?.mp (mem_of_mem_updated member)
    rw [show Named.name update.1 = record.name from named, last, Option.some.injEq] at found
    exact found.symm
  rw [last, Option.some.injEq]
  unfold appliedTo
  rw [updates]
  cases changed : (updated records (scanned records) (repaired system records).models).find?
      fun update => update.1.name == record.name with
  -- The update was found under the name of the record.
  | some update =>
    have named : update.1.name = record.name := by
      simpa using List.find?_some changed
    dsimp only
    exact (only update (List.mem_of_find?_eq_some changed) named).symm
  | none =>
    dsimp only
    have finalNamed : final.name = record.name := Roster.name_of_find? last
    -- Without an update the two definitions are equal, and then they are one.
    have equal : record.definition.sameAs final = true := by
      by_contra differ
      rw [Bool.not_eq_true] at differ
      obtain ⟨version, member⟩ := (exists_mem_updated distinct stored last).mpr differ
      have absent := List.find?_eq_none.mp changed _ member
      simp [finalNamed] at absent
    obtain ⟨earlier, again, fewer⟩ := defaults.fewer record.name final last
    rw [stored, Option.some.injEq] at again
    subst again
    exact Model.eq_of_sameAs equal fewer

/-- Once the updates of a plan have been written the stored definitions are the repaired ones. -/
theorem scanned_appliedTo (distinct : (records.map Record.name).Nodup)
    (planned : ofRecords system records reapplying = .ok plan) (now : Nat) :
    scanned (records.map (plan.appliedTo now)) = (repaired system records).models := by
  -- Writing keeps the names, so these are distinct after it as well.
  have names : (records.map (plan.appliedTo now)).map Record.name = records.map Record.name := by
    simp [Function.comp_def]
  refine Roster.eq_of_find? fun name => Option.ext fun model => ?_
  rw [find?_scanned (names ▸ distinct)]
  constructor
  · -- What is written is the repaired definition of its record.
    rintro ⟨written, member, rfl, rfl⟩
    obtain ⟨record, listed, rfl⟩ := List.mem_map.mp member
    have named := name_appliedTo plan now record
    rw [Record.name] at named
    rw [named]
    exact definition_appliedTo distinct planned now listed
  · -- A repaired definition belongs to a model that was there, which has a record.
    intro last
    have there :=
      (defaultsFrom_repair system (scanned records) (.untouched records.length)).same name
    rw [show (repair system (scanned records) (.untouched records.length)).models.find? name =
      some model from last] at there
    obtain ⟨before, stored⟩ := Option.isSome_iff_exists.mp there.symm
    obtain ⟨record, listed, rfl, rfl⟩ := (find?_scanned distinct).mp stored
    have written := definition_appliedTo distinct planned now listed
    rw [Record.name, last, Option.some.injEq] at written
    exact ⟨plan.appliedTo now record, List.mem_map_of_mem listed, written.symm,
      Roster.name_of_find? last⟩

/-- After the updates of a repair have been written, a second one has nothing to do exactly when the
first has left the models at rest. So it has where the stored definitions contend for no names, and
each is fit for repair and equals itself. -/
theorem idle_again (distinct : (records.map Record.name).Nodup)
    (planned : ofRecords system records false = .ok plan) (now : Nat) :
    (ofRecords system (records.map (plan.appliedTo now)) false = .ok (idle records.length) ↔
        AtRest system (repaired system records).models) ∧
      ((scanned records).Repairable system →
        (∀ model ∈ (scanned records).members, model.sameAs model = true) →
        ofRecords system (records.map (plan.appliedTo now)) false = .ok (idle records.length)) := by
  have names : (records.map (plan.appliedTo now)).map Record.name = records.map Record.name := by
    simp [Function.comp_def]
  have exactly : ofRecords system (records.map (plan.appliedTo now)) false =
      .ok (idle records.length) ↔ AtRest system (repaired system records).models := by
    -- The second repair is one of the models that the first has left.
    have second := @ofRecords_eq_idle_iff system (records.map (plan.appliedTo now))
      (names ▸ distinct)
    rwa [List.length_map, scanned_appliedTo distinct planned now] at second
  exact ⟨exactly, fun repairable equal => exactly.mpr (repairable.atRest_repair equal _)⟩

/-- A library of which much was lost: the author of a book, the book that a sequel follows and the
shop it was sold in are missing, and its tags refer to it under another name and with another kind
of relation. -/
def library : List Record :=
  [stored "Author" [.ofRelation "books"
      { Relation.to .oneToMany "Book" with inverseName := some "author" }],
    stored "Book" [
      .ofRelation "tags"
        { Relation.to .manyToMany "Tag" with
          inverseName := some "books", joinTable := some "book_tags" },
      .ofRelation "shop" { Relation.to .manyToOne "Shop" with inverseName := some "books" },
      .ofRelation "sequel" { Relation.to .oneToOne "Book" with inverseName := some "prequel" }],
    stored "Tag" [.ofRelation "tagged"
      { Relation.to .manyToOne "Book" with inverseName := some "tags" }]]

/-- The library is repaired at once. -/
theorem idle_again_library :
    (library.map Record.name).Nodup ∧ (scanned library).Repairable .standard ∧
      (∀ model ∈ (scanned library).members, model.sameAs model = true) ∧
      ∃ plan, ofRecords .standard library false = .ok plan ∧
        plan.updates.map (fun update => update.1.name) = ["Book", "Tag"] ∧
        ofRecords .standard (library.map (plan.appliedTo 0)) false = .ok (idle 3) := by
  -- That the library is fit for repair is evaluated.
  have distinct : (library.map Record.name).Nodup := by decide
  have repairable : (scanned library).Repairable .standard := by decide +kernel
  have equal : ∀ model ∈ (scanned library).members, model.sameAs model = true := by decide +kernel
  obtain ⟨plan, planned, updates⟩ := Outcome.map_eq_ok.mp
    (show (ofRecords .standard library false).map
      (fun plan => plan.updates.map fun update => update.1.name) = .ok ["Book", "Tag"] by
        decide +kernel)
  exact ⟨distinct, repairable, equal, plan, planned, updates,
    (idle_again distinct planned 0).2 repairable equal⟩

/-- A staff whose managers and mentors are to be found under one name. -/
def staff : List Record :=
  [stored "Staff" [.ofRelation "manager" (.to .manyToOne "Staff"),
    .ofRelation "mentor" (.to .manyToOne "Staff")]]

/-- The staff as a second repair leaves it, without its managers. -/
def mentored : Model where
  name := "Staff"
  fields := [
    .ofRelation "mentor" { Relation.to .manyToOne "Staff" with inverseName := some "staffs" },
    .ofRelation "staffs" { Relation.to .oneToMany "Staff" with inverseName := some "mentor" }]

/-- The staff as a first repair leaves it. -/
def managed : Model :=
  { mentored with
    fields := .ofRelation "manager"
      { Relation.to .manyToOne "Staff" with inverseName := some "staffs" } :: mentored.fields }

/-- A second repair of the staff rewrites what the first has left. -/
theorem not_idle_again_staff :
    (staff.map Record.name).Nodup ∧
      ∃ plan, ofRecords .standard staff false = .ok plan ∧ plan.updates = [(managed, 1)] ∧
        (ofRecords .standard (staff.map (plan.appliedTo 0)) false).map
            (fun again => (again.updates, again.report)) =
          .ok ([(mentored, 2)], { RepairReport.untouched 1 with modelsUpdated := 1 }) ∧
        ofRecords .standard (staff.map (plan.appliedTo 0)) false ≠ .ok (idle 1) := by
  obtain ⟨plan, planned, updates⟩ := Outcome.map_eq_ok.mp
    (show (ofRecords .standard staff false).map RepairPlan.updates = .ok [(managed, 1)] by
      decide +kernel)
  -- There is the one update to write, with the next version.
  have written : staff.map (plan.appliedTo 0) = [Record.next (stored "Staff" []) managed 0] := by
    simp only [staff, List.map_cons, List.map_nil, appliedTo, updates]
    rfl
  -- The second repair is worked out over what was written.
  have again : (ofRecords .standard (staff.map (plan.appliedTo 0)) false).map
      (fun again => (again.updates, again.report)) =
        .ok ([(mentored, 2)], { RepairReport.untouched 1 with modelsUpdated := 1 }) := by
    rw [written]
    decide +kernel
  refine ⟨by decide, plan, planned, updates, again, fun isIdle => ?_⟩
  -- An idle plan has no updates.
  rw [isIdle] at again
  cases again

end RepairPlan

end ModelCatalog
