import ModelCatalog.Proofs.Intact
import ModelCatalog.Proofs.ServiceInvariants
import ModelCatalog.Proofs.TableUse
import ModelCatalog.Proofs.Undoing

/-! What a deletion takes away: the record of the model, the relations to it and nothing else of the
other records, and the tables that go with either. -/

namespace ModelCatalog

open InProgress

/-! ## Tables -/

/-- The tables that go with a model: its own, and the join tables that are in use by its fields or
by fields that relate to it, each of them once. -/
structure Store.Drops (store : Store) (name : String) (own : Identifier)
    (joins : List Identifier) : Prop where
  named : own.text = name
  distinct : (joins.map Identifier.text).Nodup
  joined : ∀ table, table ∈ joins.map Identifier.text ↔
    ∃ joint ∈ Store.joints store, joint.table = table ∧
      (joint.model = name ∨ joint.field.targets name = true)

/-- The statements of a planned deletion drop the tables that go with the model. -/
theorem DeletePlan.drops_of_deletion {catalog : Catalog} {name : String} {plan : DeletePlan}
    (planned : catalog.deletion name = .ok plan) :
    ∃ own joins, catalog.store.Drops name own joins ∧
      plan.statements = (own :: joins).map Statement.dropTable := by
  -- The plan was made of the record that is stored, so the tables it drops are in use by stored
  -- fields.
  obtain ⟨record, stored, -⟩ := Catalog.fits_of_deletion planned
  have found : catalog.definition? name = some record.definition :=
    Catalog.definition?_of_find? stored
  rw [Catalog.deletion, stored] at planned
  obtain ⟨own, joins, drops, named, areTables⟩ := exists_drops_of_ofRecord planned
  refine ⟨own, joins, ⟨named.trans (Catalog.name_of_definition? found), ?_, fun table => ?_⟩, drops⟩
  · -- The plan drops each join table once, since it has removed the repeats from their list.
    rw [areTables, ← List.map_id (joinTables _ _)]
    exact nodup_map_distinctBy id _
  · rw [areTables, Catalog.mem_joinTables_models found]

/-! ## Statements -/

namespace InProgress

variable {executor : Executor} {sql : List String}

/-- What has been applied on the database of an operation under way. -/
abbrev Applied (sql : List String) (progress : InProgress Database) : Prop :=
  progress.state.recorder.applied = sql

/-- Whatever an operation does with records and the journal applies nothing. -/
theorem keptByRecords_applied : KeptByRecords (Database.backendWith executor) (Applied sql) where
  -- None of these services so much as looks at the statements.
  get := fun _ => .of_keeps fun _ applied => applied
  put := fun definition expect => .of_keeps fun progress applied => by
    -- A write that fails changes nothing, and one that succeeds changes the store alone.
    show (Database.put definition expect progress.state).2.recorder.applied = sql
    unfold Database.put
    split <;> exact applied
  delete := fun name expect => .of_keeps fun progress applied => by
    -- The same goes for a removal.
    show (Database.delete name expect progress.state).2.recorder.applied = sql
    unfold Database.delete
    split <;> exact applied
  flush := .of_keeps fun _ applied => applied
  advance := fun _ => .of_keeps fun _ applied => applied
  save := .of_keeps fun _ applied => applied
  setStatus := fun _ => .of_keeps fun _ applied => applied

/-- A batch that an honest executor accepts has been applied. -/
theorem applied_runBatch (honest : executor.Honest) {progress after : InProgress Database}
    {model : String} {statements : List Statement}
    (ran : runBatch (Database.backendWith executor) model statements progress = (.ok (), after)) :
    after.Applied (progress.state.recorder.applied ++ statements.map Statement.sql) := by
  cases statements with
  | nil =>
    -- No statement is nothing to apply.
    cases ran
    exact (List.append_nil _).symm
  -- An honest executor has applied the whole of a batch that it accepts.
  | cons first rest =>
    have executed : (Database.backendWith executor).executeBatch (first :: rest) progress.state =
        ((executor.run (first :: rest) progress.state.recorder).1,
          { progress.state with
            recorder := (executor.run (first :: rest) progress.state.recorder).2 }) := rfl
    cases outcome : (executor.run (first :: rest) progress.state.recorder).1 with
    | ok passed =>
      rw [outcome] at executed
      rw [runBatch_of_ok model executed] at ran
      cases ran
      exact honest.applied _ _ outcome
    | error failure =>
      -- A batch that was refused has not given a value.
      rw [outcome] at executed
      rw [runBatch_of_error model executed] at ran
      cases ran

end InProgress

namespace Registry

variable {executor : Executor} {configuration : Configuration} {database after : Database}
  {name : String}

/-- A deletion that is carried out on an honest executor has applied the statements of its plan. -/
theorem applied_applyDelete (honest : executor.Honest) {plan : DeletePlan}
    {progress stopped : InProgress Database}
    (ran : (registryWith executor configuration).applyDelete plan progress = (.ok (), stopped)) :
    stopped.Applied (progress.state.recorder.applied ++ plan.statements.map Statement.sql) := by
  -- Only the batch applies statements: the status is set in front of it, and the records are
  -- written behind it.
  unfold applyDelete at ran
  obtain ⟨_, applying, began, runs⟩ := Step.exists_of_bind_eq_ok ran
  obtain ⟨_, built, batch, rest⟩ := Step.exists_of_bind_eq_ok runs
  have unchanged : applying.Applied progress.state.recorder.applied := by
    cases began
    rfl
  have applied := applied_runBatch honest batch
  rw [unchanged] at applied
  -- Behind the batch come records and the journal only.
  have kept := @keptByRecords_applied executor
    (progress.state.recorder.applied ++ plan.statements.map Statement.sql)
  have ending := ((kept.setStatus .propagating).bind fun _ =>
    (@kept_stripAll _ (registryWith executor configuration) _ kept plan.model
      plan.referencing).bind fun _ =>
    (kept.delete plan.model plan.expect).bind fun _ =>
    (kept.advance 1).bind fun _ => kept.flush) built applied
  rw [rest] at ending
  exact ending

/-- A deletion that succeeds on an honest executor has applied the statements of its plan. -/
theorem applied_delete (honest : executor.Honest) {catalog : Catalog}
    (holds : database.store = catalog.store) {plan : DeletePlan}
    (prepared : preparedDelete catalog name = .ok plan)
    (deleted : (registryWith executor configuration).delete name database = (.ok (), after)) :
    after.recorder.applied = database.recorder.applied ++ plan.statements.map Statement.sql := by
  -- The deletion is that of its plan, under the eyes of the journal.
  rw [(shows_database executor configuration holds).delete, prepared] at deleted
  dsimp only [journaled] at deleted
  split at deleted
  · rename_i ran
    cases deleted
    exact applied_applyDelete honest ran
  · cases deleted

/-- A deletion that succeeds has taken the record away. Of the other records it has left those alone
without a relation to the model; the others are next versions, which differ in nothing but these
relations. Submitted were the drops of the table of the model and of the join tables of its
relations and of those to it, and an honest executor has applied these. -/
theorem delete_footprint
    (deleted : (registryWith executor configuration).delete name database = (.ok (), after)) :
    (∃ record, database.store.get name = .ok (some record)) ∧ after.store.get name = .ok none ∧
      (∀ other, other ≠ name → ∃ before left, database.store.get other = .ok before ∧
        after.store.get other = .ok left ∧ left.isSome = before.isSome ∧
        ∀ earlier ∈ before, ∀ later ∈ left,
          (earlier.definition.references name = false → later = earlier) ∧
          (earlier.definition.references name = true →
            later.definition = earlier.definition.stripReferences name ∧
            later.version = earlier.version + 1 ∧ later.createdAt = earlier.createdAt ∧
            earlier.updatedAt ≤ later.updatedAt)) ∧
      ∃ own joins, database.store.Drops name own joins ∧
        (Noted.registry (registryWith executor configuration)).delete name ⟨database, []⟩ =
          (.ok (), ⟨after, (own :: joins).map Statement.dropTable⟩) ∧
        (executor.Honest → after.recorder.applied = database.recorder.applied ++
          ((own :: joins).map Statement.dropTable).map Statement.sql) := by
  -- A call that succeeds has read every record, and it has carried out a plan.
  obtain ⟨catalog, holds⟩ := exists_catalog_of_delete deleted
  have left := of_successful_delete holds deleted
  rcases delete_cases executor configuration holds name with
    ⟨error, refused, -⟩ | ⟨identifier, plan, planned⟩
  · rw [refused] at deleted
    cases deleted
  obtain ⟨record, stored, -⟩ := Catalog.fits_of_deletion planned
  obtain ⟨own, joins, drops, statements⟩ := DeletePlan.drops_of_deletion planned
  have prepared := preparedDelete_eq_ok.mpr ⟨identifier, planned⟩
  -- Records are compared in the catalogs before and after, where each other record is stripped.
  rw [holds, left]
  simp only [Catalog.get_store, Except.ok.injEq, Catalog.find?_deleted, if_true]
  refine ⟨⟨record, stored⟩, trivial, fun other differ => ?_, own, joins, drops, ?_,
    fun honest => statements ▸ applied_delete honest holds prepared deleted⟩
  · -- Stripping leaves a record without relations to the model alone, and makes the next version of
    -- any other.
    refine ⟨_, _, rfl, rfl, ?_, fun earlier found later strips => ?_⟩
    · rw [if_neg differ, Option.isSome_map]
    · rw [if_neg differ, Option.mem_def.mp found, Option.map_some] at strips
      cases strips
      refine ⟨fun apart => ?_, fun refers => ?_⟩
      · rw [Record.stripped, apart]
        rfl
      · rw [Record.stripped, if_pos refers]
        exact ⟨rfl, rfl, rfl, Nat.le_max_right _ _⟩
  · -- With an eye on the statements the deletion runs as it does without, and it submits what it
    -- has planned.
    have submits : (⟨database, []⟩ : Noted Database).state.store = catalog.store := holds
    obtain ⟨notes, ran, -, noting⟩ := Noted.delete_run executor configuration submits name
    rw [deleted] at ran noting
    rw [ran, noting plan () prepared rfl, statements]
    rfl

/-- The posts are deleted whose tags there are: these lose their posts and nothing else, and behind
the table of the posts that is dropped in which they had their tags. -/
theorem delete_footprint_posts :
    ∃ after tag, (registryWith .recording .standard).delete "Post" Reachable.posted =
        (.ok (), after) ∧
      after.store.get "Post" = .ok none ∧ after.store.get "Tag" = .ok (some tag) ∧
      tag.definition = ⟨"Tag", []⟩ ∧ tag.version = 3 ∧
      after.recorder.applied = [(Statement.dropTable ⟨"Post", by decide⟩).sql,
        (Statement.dropTable ⟨"Post_tags_Tag", by decide⟩).sql] := by
  -- That the deletion succeeds is worked out, and the theorem tells the rest.
  obtain ⟨⟨⟩, deleted⟩ := Step.exists_of_isOk
    ((registryWith .recording .standard).delete "Post" Reachable.posted) (by
      rw [Reachable.posted_eq]
      decide +kernel)
  obtain ⟨-, gone, others, own, joins, -, submitted, applied⟩ := delete_footprint deleted
  -- The tags relate to the posts, and so they are stripped.
  have stored : Reachable.posted.store.get "Tag" =
      .ok (some ⟨⟨"Tag", [.ofRelation "posts" Reachable.bearing]⟩, 2, 0, 0⟩) := by
    rw [Reachable.posted_eq]
    rfl
  obtain ⟨before, left, was, remains, both, each⟩ := others "Tag" (by decide)
  rw [stored] at was
  obtain rfl := Except.ok.inj was
  obtain ⟨tag, rfl⟩ := Option.isSome_iff_exists.mp (both.trans rfl)
  obtain ⟨stripped, version, -⟩ := (each _ rfl tag rfl).2 (by decide)
  -- Which tables are dropped is worked out as well, and the executor applies their statements.
  have drops : ((Noted.registry (registryWith .recording .standard)).delete "Post"
      ⟨Reachable.posted, []⟩).2.statements =
      [.dropTable ⟨"Post", by decide⟩, .dropTable ⟨"Post_tags_Tag", by decide⟩] := by
    rw [Reachable.posted_eq]
    decide +kernel
  rw [submitted] at drops
  have none : Reachable.posted.recorder.applied = [] := by
    rw [Reachable.posted_eq]
    rfl
  rw [show (own :: joins).map Statement.dropTable = _ from drops, none] at applied
  exact ⟨_, tag, deleted, gone, remains, stripped, version, applied Executor.honest_recording⟩

end Registry

end ModelCatalog
