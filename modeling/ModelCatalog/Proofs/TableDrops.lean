import ModelCatalog.Proofs.RelationInvariant
import ModelCatalog.Proofs.TableUse

/-! Drops of tables: no call drops a table that is still in use, unless the table stood for more
than one thing before. -/

namespace ModelCatalog

variable {configuration : Configuration} {catalog : Catalog} {now : Nat} {table : Identifier}

/-! ## Writing -/

namespace WritePlan

variable {plan : WritePlan} {declared : Model}

/-- The tables that a write drops are join tables of the old version and none of the new one. A
field that joins by one of them afterwards did so before, and was not the counterpart of the field
of the old version. -/
theorem exists_joint_of_drop
    (planned : (configuration.context catalog).planWrite (catalog.find? plan.definition.name)
      declared = .ok plan)
    (dropped : Statement.dropTable table ∈ plan.submitted) :
    ∃ joint ∈ catalog.store.joints, joint.model = plan.definition.name ∧
      joint.table = table.text ∧ table.text ∉ plan.definition.joinTableNames ∧
      ∀ now, ∀ other ∈ (catalog.applied plan now).store.joints, other.table = table.text →
        other ∈ catalog.store.joints ∧ other.model ≠ joint.model ∧ ¬joint.Counterparts other := by
  -- Among the statements of a plan only those for obsolete tables drop anything.
  have obsolete : table.text ∈ (changes configuration.system
      (catalog.find? plan.definition.name) plan.definition).obsoleteTables := by
    cases submits_of_mem planned dropped with
    | drop _ obsolete => exact obsolete
  obtain ⟨unused, record, isOld, field, present, isTable, relation, related, inCatalog⟩ :=
    mem_obsoleteTables obsolete
  have stored : catalog.definition? plan.definition.name = some record.definition :=
    Catalog.definition?_of_find? isOld
  rw [Catalog.name_of_definition? stored] at isTable
  refine ⟨⟨plan.definition.name, field, table.text⟩,
    Catalog.mem_joints_store.mpr ⟨_, stored, present, isTable⟩, rfl, rfl, unused, ?_⟩
  intro now other joins same
  -- A table that the new version does not use can only be used by other models, as before.
  rcases Catalog.mem_joints_of_applied (sound_of_planWrite planned) joins with
    new | ⟨apart, before, unpaired⟩
  · exact absurd (same ▸ new) unused
  · exact ⟨before, apart, unpaired record isOld field present relation related inCatalog _⟩

/-- A write that drops a table in use drops one that was contested. -/
theorem contested_of_drop
    (planned : (configuration.context catalog).planWrite (catalog.find? plan.definition.name)
      declared = .ok plan)
    (dropped : Statement.dropTable table ∈ plan.submitted)
    (used : (catalog.applied plan now).store.Uses configuration.system table.text) :
    catalog.store.Contested configuration.system table.text := by
  -- The use that the old version made of the table is one side of the contest.
  obtain ⟨joint, joins, own, isTable, -, others⟩ := exists_joint_of_drop planned dropped
  refine ⟨joint, joins, isTable, ?_⟩
  rcases used with isModel | ⟨other, otherJoins, same⟩
  · -- A write stores no other model than its own, which was there to have the join table.
    refine Or.inl (isModel.imp (fun there => ?_) id)
    rw [Catalog.contains_store, Option.isSome_iff_exists] at there ⊢
    obtain ⟨definition, stored⟩ := there
    rcases Catalog.of_definition?_applied (sound_of_planWrite planned) stored with
      ⟨named, -⟩ | ⟨-, before, found, -⟩
    · obtain ⟨before, found, -⟩ := Catalog.mem_joints_store.mp joins
      exact ⟨before, by rw [named, ← own, found]⟩
    · exact ⟨before, found⟩
  · -- What still joins by the table did so before, and was no counterpart of that use.
    obtain ⟨before, apart, unpaired⟩ := others now other otherJoins same
    exact Or.inr ⟨other, before, same, fun equal => apart (congrArg Joint.model equal), unpaired⟩

end WritePlan

/-! ## Deleting -/

namespace DeletePlan

variable {plan : DeletePlan} {name : String}

/-- The tables that a deletion drops are that of the deleted model, and the join tables of fields
that lead from it or to it. -/
theorem exists_joint_of_drop (planned : catalog.deletion name = .ok plan)
    (dropped : Statement.dropTable table ∈ plan.statements) :
    table.text = name ∨ ∃ joint ∈ catalog.store.joints, joint.table = table.text ∧
      (joint.model = name ∨ joint.field.targets name = true) := by
  -- The record that is deleted is the one the plan was made from.
  obtain ⟨record, stored, -⟩ := Catalog.fits_of_deletion planned
  have found : catalog.definition? name = some record.definition :=
    Catalog.definition?_of_find? stored
  rw [Catalog.deletion, stored] at planned
  obtain ⟨gone, same, isGone⟩ := statements_of_ofRecord planned dropped
  cases same
  rw [Catalog.name_of_definition? found] at isGone
  exact isGone.imp id (Catalog.mem_joinTables_models found).mp

/-- A field that is left after a deletion is neither one that led from or to what was deleted nor
the counterpart of one. -/
theorem apart_of_deleted {joint other : Joint}
    (gone : joint.model = name ∨ joint.field.targets name = true)
    (left : other ∈ (catalog.deleted name now).store.joints) :
    other ≠ joint ∧ ¬joint.Counterparts other := by
  -- What is left neither belongs to the deleted model nor leads to it.
  obtain ⟨apart, elsewhere, -⟩ := Catalog.mem_joints_of_deleted left
  constructor
  · rintro rfl
    rcases gone with own | leads
    · exact apart own
    · rw [elsewhere] at leads
      cases leads
  · -- A counterpart would lead back to the deleted model, or belong to it.
    rintro ⟨inverts, back⟩
    rcases gone with rfl | leads
    · rw [Field.targets_of_invertsTo back] at elsewhere
      cases elsewhere
    · obtain ⟨relation, related, isName⟩ := Field.targets_iff.mp leads
      obtain ⟨held, heldBy, isOther, -⟩ := Field.invertsTo_iff.mp inverts
      rw [related, Option.some.injEq] at heldBy
      exact apart (by rw [← isOther, ← heldBy, isName])

/-- A deletion that drops a table in use drops one that was contested, or the table of a system
model that it is about. -/
theorem contested_of_drop (planned : catalog.deletion name = .ok plan)
    (dropped : Statement.dropTable table ∈ plan.statements)
    (used : (catalog.deleted name now).store.Uses configuration.system table.text) :
    catalog.store.Contested configuration.system table.text ∨
      table.text = name ∧ configuration.system.contains table.text = true := by
  -- A deletion stores nothing new.
  have storedBefore : ∀ other, (catalog.deleted name now).store.contains other = true →
      other ≠ name ∧ catalog.store.contains other = true := by
    intro other there
    rw [Catalog.contains_store, Option.isSome_iff_exists] at there ⊢
    obtain ⟨definition, left⟩ := there
    obtain ⟨apart, before, found, -⟩ := Catalog.of_definition?_deleted left
    exact ⟨apart, before, found⟩
  rcases exists_joint_of_drop planned dropped with own | ⟨joint, joins, isTable, gone⟩
  · -- The table of the deleted model is in use as that of a system model or as a join table.
    rcases used with (there | system) | ⟨other, left, same⟩
    · exact absurd own (storedBefore _ there).1
    · exact Or.inr ⟨own, system⟩
    · obtain ⟨record, stored, -⟩ := Catalog.fits_of_deletion planned
      refine Or.inl ⟨other, (Catalog.mem_joints_of_deleted left).2.2, same, Or.inl (Or.inl ?_)⟩
      rw [own, Catalog.contains_store, Catalog.definition?, stored]
      rfl
  · -- The table of a field that goes is contested by whatever still uses it.
    refine Or.inl ⟨joint, joins, isTable, used.imp (Or.imp (fun there => ?_) id) ?_⟩
    · exact (storedBefore _ there).2
    · rintro ⟨other, left, same⟩
      exact ⟨other, (Catalog.mem_joints_of_deleted left).2.2, same, apart_of_deleted gone left⟩

end DeletePlan

/-! ## Calls -/

namespace Reachable

variable {database : Database}

/-- A call that succeeds on a state that was reached drops no table that is in use afterwards,
neither that of a stored or a system model nor the join table of a stored field, unless the table
was contested before the call, or the call deletes a stored definition of a system model. -/
theorem drops_no_used_table (reached : Reachable configuration (fun _ => True) database)
    {executor : Executor} {request : Change} {answer : Option Record} {after : Noted Database}
    (succeeds : request.answer (Noted.registry (registryWith executor configuration))
      ⟨database, []⟩ = (.ok answer, after))
    (dropped : Statement.dropTable table ∈ after.statements)
    (uncontested : ¬database.store.Contested configuration.system table.text)
    (notSystem : ¬(table.text = request.subject ∧
      configuration.system.contains table.text = true)) :
    ¬after.state.store.Uses configuration.system table.text := by
  intro used
  obtain ⟨catalog, holds, -⟩ := reached.exists_catalog
  obtain ⟨preparation, prepared, -, left, noted⟩ := Change.of_answer
    (show (⟨database, []⟩ : Noted Database).state.store = catalog.store from holds) succeeds
  rw [left] at used
  rw [noted, List.nil_append] at dropped
  rw [holds] at uncontested
  -- The call has carried out a plan to write or a plan to delete.
  rcases Change.of_prepared prepared with ⟨plan, fields, rfl, planned⟩ | ⟨plan, rfl, planned⟩
  · obtain ⟨own, -⟩ := WritePlan.sound_of_declared planned
    rw [← own] at planned
    exact uncontested (WritePlan.contested_of_drop planned dropped used)
  · obtain ⟨-, -, model, -⟩ := Catalog.fits_of_deletion planned
    rw [Preparation.result, model] at used
    rcases DeletePlan.contested_of_drop planned dropped used with contested | system
    · exact uncontested contested
    · exact notSystem system

/-- The change that takes the tags of posts away drops the table they were in, which only they and
the posts of tags used. -/
theorem drops_no_used_table_posted :
    Reachable .standard (fun _ => True) posted ∧
      ∃ answer after, (Change.update "Post" []).answer
          (Noted.registry (registryWith .idle .standard)) ⟨posted, []⟩ = (.ok answer, after) ∧
        Statement.dropTable ⟨"Post_tags_Tag", by decide⟩ ∈ after.statements ∧
        ¬after.state.store.Uses Configuration.standard.system "Post_tags_Tag" := by
  -- The call and the statement are worked out; that no one uses the table is what the theorem adds.
  have reached : Reachable .standard (fun _ => True) posted :=
    reached_posted.mono fun _ _ => trivial
  obtain ⟨answer, succeeds⟩ := Step.exists_of_isOk ((Change.update "Post" []).answer
    (Noted.registry (registryWith .idle .standard)) ⟨posted, []⟩) (by decide +kernel)
  have dropped : Statement.dropTable ⟨"Post_tags_Tag", by decide⟩ ∈
      ((Change.update "Post" []).answer (Noted.registry (registryWith .idle .standard))
        ⟨posted, []⟩).2.statements := by
    decide +kernel
  have unused := drops_no_used_table reached succeeds dropped (by decide +kernel)
    (by decide +kernel)
  exact ⟨reached, answer, _, succeeds, dropped, unused⟩

/-! ### Shops -/

/-- A field for many items, which bear this name for the other side. -/
def itemsField (name inverse : String) : Field :=
  .ofRelation name { Relation.to .manyToMany "Item" with inverseName := some inverse }

/-- A state in which a shop keeps new items. -/
def stocked : Database :=
  ((Call.change (.define "Shop" [itemsField "new_items" "shops"])).run
    (registryWith .idle .standard)
    ((Call.change (.define "Item" [])).run (registryWith .idle .standard) (.empty false 0)).2).2

/-- A state in which besides a new shop keeps items. -/
def restocked : Database :=
  ((Call.change (.define "Shop_new" [itemsField "items" "new_shops"])).run
    (registryWith .idle .standard) stocked).2

/-- The state of both shops is one of those reached. -/
theorem reached_restocked : Reachable .standard (fun _ => True) restocked := by
  -- Each of the three definitions goes on from the state that the one before has left.
  have first : Reachable .standard (fun _ => True)
      ((Call.change (.define "Item" [])).run (registryWith .idle .standard) (.empty false 0)).2 :=
    of_success (.empty false 0) .idle (.change (.define "Item" [])) trivial (by decide +kernel)
  have second := of_success first .idle
    (.change (.define "Shop" [itemsField "new_items" "shops"])) trivial (by decide +kernel)
  exact of_success second .idle
    (.change (.define "Shop_new" [itemsField "items" "new_shops"])) trivial (by decide +kernel)

/-- The new items of a shop and the items of a new shop have one join table by default, and the call
that takes the items of the new shop away drops it while the shop still has its new items there. -/
theorem drops_used_table_restocked :
    Reachable .standard (fun _ => True) restocked ∧
      ∃ answer after, (Change.update "Shop_new" []).answer
          (Noted.registry (registryWith .idle .standard)) ⟨restocked, []⟩ = (.ok answer, after) ∧
        Statement.dropTable ⟨"Shop_new_items_Item", by decide⟩ ∈ after.statements ∧
        after.state.store.Uses Configuration.standard.system "Shop_new_items_Item" := by
  -- Here the table is in use at the end, which is worked out like the rest.
  obtain ⟨answer, succeeds⟩ := Step.exists_of_isOk ((Change.update "Shop_new" []).answer
    (Noted.registry (registryWith .idle .standard)) ⟨restocked, []⟩) (by decide +kernel)
  exact ⟨reached_restocked, answer, _, succeeds, by decide +kernel, by decide +kernel⟩

end Reachable

end ModelCatalog
