import ModelCatalog.Proofs.Redefinition
import ModelCatalog.Proofs.RelationInvariant

/-! Undoing: the deletion of a model takes away what its definition brought to the others, and with
it every other relation that leads to a model of that name. -/

namespace ModelCatalog

/-- Two stores can be read under every name, and hold records of the same definition there, or none
both of them. -/
def Store.SameDefinitions (one other : Store) : Prop :=
  ∀ name, ∃ before after, one.get name = .ok before ∧ other.get name = .ok after ∧
    after.map Record.definition = before.map Record.definition

/-- Catalogs hold the same definitions when they are found under the same names. -/
theorem Catalog.sameDefinitions_iff {one other : Catalog} :
    one.store.SameDefinitions other.store ↔
      ∀ name, other.definition? name = one.definition? name := by
  -- Definitions are read off the records that are found.
  simp [Store.SameDefinitions, definition?]

namespace WritePlan.Sound

variable {context : Context} {old : Option Record} {plan : WritePlan} {target : Model}

/-- What a write changes about another model leads to the model written, and goes when that is
deleted. -/
theorem stripReferences_after (sound : plan.Sound context old) :
    (sound.after target).stripReferences plan.definition.name =
      target.stripReferences plan.definition.name :=
  -- What becomes of the model is an edit in order, and such an edit leaves the rest.
  (sound.orderly target.name).stripReferences_apply target

end WritePlan.Sound

namespace Catalog

variable {configuration : Configuration} {catalog : Catalog}

/-- A model that was not stored is deleted again: what is left of every other one is what does not
lead to it. -/
theorem definition?_deleted_applied {plan : WritePlan} {old : Option Record}
    (sound : plan.Sound (configuration.context catalog) old)
    (absent : catalog.definition? plan.definition.name = none) (writeTime now : Nat)
    (name : String) :
    ((catalog.applied plan writeTime).deleted plan.definition.name now).definition? name =
      (catalog.definition? name).map fun model => model.stripReferences plan.definition.name := by
  rw [definition?_deleted]
  -- The name of the model itself is free before and after, and every other model is edited and
  -- stripped again.
  split
  · rename_i same
    rw [same, absent, Option.map_none]
  · rename_i apart
    rw [definition?_applied sound apart, Option.map_map]
    exact congrArg (Option.map · _) (funext fun _ => sound.stripReferences_after)

/-- In a symmetric graph no model refers to one of the catalog that is not stored. -/
theorem references_eq_false_of_absent (symmetric : Symmetric configuration.system catalog.models)
    {name : String} (inCatalog : configuration.system.contains name = false)
    (absent : catalog.definition? name = none) {other : String} {model : Model}
    (stored : catalog.definition? other = some model) : model.references name = false := by
  -- If it did, its relation would have another side, and so the target would be stored.
  by_contra refers
  obtain ⟨field, present, targets⟩ := List.any_eq_true.mp (Bool.not_eq_false _ ▸ refers)
  obtain ⟨relation, related, leads⟩ := Field.targets_iff.mp targets
  have known : catalog.models.find? other = some model := by rw [find?_models, stored]
  -- The relation leads out of its model, and so there is a target with its other side.
  have apart : name ≠ other := by
    rintro rfl
    rw [stored] at absent
    cases absent
  obtain ⟨target, found, -⟩ := symmetric.mated other model known field present relation related
    ⟨leads ▸ apart, leads ▸ inCatalog⟩
  rw [leads, find?_models, absent] at found
  cases found

end Catalog

/-- A deletion that succeeds has taken the model away, and the relations to it. -/
theorem Registry.of_successful_delete {executor : Executor} {configuration : Configuration}
    {database after : Database} {catalog : Catalog} {name : String}
    (holds : database.store = catalog.store)
    (deleted : (registryWith executor configuration).delete name database = (.ok (), after)) :
    after.store = (catalog.deleted name database.now).store := by
  -- A deletion that was refused or has stopped did not succeed.
  rcases delete_cases executor configuration holds name with
    ⟨error, refused, -⟩ | ⟨identifier, plan, planned⟩
  · rw [refused] at deleted
    cases deleted
  · rcases delete_of_planned executor configuration holds identifier planned with
      ⟨final, done, -, left⟩ | ⟨error, final, stopped, -⟩
    · rw [done] at deleted
      cases deleted
      exact left
    · rw [stopped] at deleted
      cases deleted

namespace Reachable

variable {configuration : Configuration} {database between after : Database}
  {first second : Executor} {name : String} {fields : List Field} {record : Record}

/-- Where no call was about a system model, a model that was not stored is defined and deleted
again. Then every other model is left without its relations to that name. So all definitions are as
before exactly when no stored model related to the name, and none did to one that is not a system
model's. -/
theorem define_then_delete_restores_iff
    (reached : Reachable configuration (configuration.system.contains · = false) database)
    (absent : database.store.get name = .ok none)
    (defined : (registryWith first configuration).define name fields database =
      (.ok record, between))
    (deleted : (registryWith second configuration).delete name between = (.ok (), after)) :
    (configuration.system.contains name = false → database.store.SameDefinitions after.store) ∧
      (database.store.SameDefinitions after.store ↔
        ∀ other stored, database.store.get other = .ok (some stored) →
          stored.definition.references name = false) ∧
      ∀ other, ∃ before left, database.store.get other = .ok before ∧
        after.store.get other = .ok left ∧
        left.map Record.definition =
          before.map fun stored => stored.definition.stripReferences name := by
  obtain ⟨catalog, holds, -, symmetric⟩ := reached.exists_symmetric
  obtain ⟨-, plan, planned, left, -⟩ := Registry.of_successful_write holds defined
  obtain ⟨own, sound⟩ := WritePlan.sound_of_declared planned
  have final := Registry.of_successful_delete left deleted
  rw [holds, Catalog.get_store, Except.ok.injEq] at absent
  have missing : catalog.definition? name = none := by
    rw [Catalog.definition?, absent, Option.map_none]
  -- Under every other name the definition is edited by the write and stripped by the deletion, and
  -- only the stripping is left.
  have stripped : ∀ other,
      ((catalog.applied plan database.now).deleted name between.now).definition? other =
        (catalog.definition? other).map fun model => model.stripReferences name := by
    subst own
    exact Catalog.definition?_deleted_applied sound missing _ _
  have restores : database.store.SameDefinitions after.store ↔
      ∀ other model, catalog.definition? other = some model → model.references name = false := by
    -- Stripping changes nothing exactly where no relation leads to the name.
    rw [holds, final, Catalog.sameDefinitions_iff]
    refine forall_congr' fun other => ?_
    rw [stripped]
    cases catalog.definition? other with
    | none => simp
    | some model => simp [Model.stripReferences_eq_self_iff]
  -- A name of the catalog that is not stored is referred to by nobody in a symmetric graph.
  refine ⟨fun inCatalog => restores.mpr fun other model stored =>
    Catalog.references_eq_false_of_absent symmetric inCatalog missing stored,
    restores.trans (forall_congr' fun other => ?_), fun other => ?_⟩
  · rw [holds, Catalog.get_store]
    cases found : catalog.find? other <;> simp [Catalog.definition?, found]
  · refine ⟨_, _, by rw [holds, Catalog.get_store], by rw [final, Catalog.get_store], ?_⟩
    have own := stripped other
    rw [Catalog.definition?, Catalog.definition?, Option.map_map] at own
    exact own

/-- The state in which an author was defined whose posts there are. -/
def authored : Database :=
  ((registryWith .idle .standard).define "Author" [.ofRelation "posts" (.to .oneToMany "Post")]
    posted).2

/-- An author whose posts there are is defined and deleted again: the posts come to know the author,
and afterwards everything is as it was. -/
theorem define_then_delete_restores_author :
    Reachable .standard (Configuration.standard.system.contains · = false) posted ∧
      posted.store.get "Author" = .ok none ∧
      (∃ record, (registryWith .idle .standard).define "Author"
        [.ofRelation "posts" (.to .oneToMany "Post")] posted = (.ok record, authored)) ∧
      (authored.store.get "Post").map (Option.map fun stored =>
        stored.definition.fields.map Field.name) = .ok (some ["tags", "authors"]) ∧
      Configuration.standard.system.contains "Author" = false ∧
      ∃ after, (registryWith .idle .standard).delete "Author" authored = (.ok (), after) ∧
        posted.store.SameDefinitions after.store := by
  -- The two calls are evaluated for their success, and the general statement says what they
  -- restore.
  have absent : posted.store.get "Author" = .ok none := by decide +kernel
  have inCatalog : Configuration.standard.system.contains "Author" = false := by decide +kernel
  obtain ⟨record, defined⟩ := Step.exists_of_isOk ((registryWith .idle .standard).define "Author"
    [.ofRelation "posts" (.to .oneToMany "Post")] posted) (by decide +kernel)
  obtain ⟨⟨⟩, deleted⟩ := Step.exists_of_isOk
    ((registryWith .idle .standard).delete "Author" authored) (by decide +kernel)
  exact ⟨reached_posted, absent, ⟨record, defined⟩, by decide +kernel, inCatalog, _, deleted,
    (define_then_delete_restores_iff reached_posted absent defined deleted).1 inCatalog⟩

/-- A state in which posts relate to the users, who are no model of the catalog. -/
def signed : Database :=
  ((Call.change (.define "Post" [.ofRelation "author" (.to .manyToOne "User")])).run
    (registryWith .idle .standard) (.empty false 0)).2

/-- The state in which the users were defined as well. -/
def enrolled : Database := ((registryWith .idle .standard).define "User" [] signed).2

/-- Users are defined and deleted again, and the posts have lost their author. -/
theorem define_then_delete_strips_signed :
    Reachable .standard (Configuration.standard.system.contains · = false) signed ∧
      signed.store.get "User" = .ok none ∧
      (∃ record, (registryWith .idle .standard).define "User" [] signed = (.ok record, enrolled)) ∧
      ∃ after, (registryWith .idle .standard).delete "User" enrolled = (.ok (), after) ∧
        (signed.store.get "Post").map (Option.map Record.definition) =
          .ok (some ⟨"Post", [.ofRelation "author" (.to .manyToOne "User")]⟩) ∧
        (after.store.get "Post").map (Option.map Record.definition) = .ok (some ⟨"Post", []⟩) ∧
        ¬signed.store.SameDefinitions after.store := by
  -- Posts can be defined from the empty store on, since users are a system model.
  have reached : Reachable .standard (Configuration.standard.system.contains · = false) signed := by
    refine of_success (.empty false 0) .idle
      (.change (.define "Post" [.ofRelation "author" (.to .manyToOne "User")])) ?_
      (by decide +kernel)
    show Configuration.standard.system.contains "Post" = false
    decide +kernel
  obtain ⟨record, defined⟩ := Step.exists_of_isOk
    ((registryWith .idle .standard).define "User" [] signed) (by decide +kernel)
  obtain ⟨⟨⟩, deleted⟩ := Step.exists_of_isOk
    ((registryWith .idle .standard).delete "User" enrolled) (by decide +kernel)
  have before : (signed.store.get "Post").map (Option.map Record.definition) =
      .ok (some ⟨"Post", [.ofRelation "author" (.to .manyToOne "User")]⟩) := by decide +kernel
  have after : (((registryWith .idle .standard).delete "User" enrolled).2.store.get "Post").map
      (Option.map Record.definition) = .ok (some ⟨"Post", []⟩) := by decide +kernel
  refine ⟨reached, by decide +kernel, ⟨record, defined⟩, _, deleted, before, after, fun same => ?_⟩
  -- The posts have no author afterwards.
  obtain ⟨first, last, found, left, equal⟩ := same "Post"
  rw [found] at before
  rw [left] at after
  rw [Except.ok.inj before, Except.ok.inj after] at equal
  cases equal

end Reachable

end ModelCatalog
