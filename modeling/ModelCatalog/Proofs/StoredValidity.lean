import ModelCatalog.Proofs.KeyColumn
import ModelCatalog.Proofs.RelationInvariant
import ModelCatalog.Proofs.Submission
import ModelCatalog.Proofs.Synthesis

/-! Stored definitions: after any changes that succeed, each of them keeps to all rules next to the
others but for the place of its key, which only relations that bear its name can take. -/

namespace ModelCatalog

/-- The states reached from an empty store by changes of some kind, all of which succeed. Executors
may come and go, and what is not stored may change at any time. -/
inductive Lineage (configuration : Configuration) (permits : Change → Prop) : Database → Prop where
  | empty (transactional : Bool) (now : Nat) :
    Lineage configuration permits (.empty transactional now)
  | change {database after : Database} (executor : Executor) (request : Change)
    (lineage : Lineage configuration permits database) (permitted : permits request)
    (ran : request.run (registryWith executor configuration) database = (.ok (), after)) :
    Lineage configuration permits after
  | beside {database after : Database} (lineage : Lineage configuration permits database)
    (same : after.store = database.store) : Lineage configuration permits after

/-- A change spares the key when all fields that it gives do. -/
def Change.SparesKey (request : Change) : Prop := ∀ field ∈ request.given, field.SparesKey

instance (request : Change) : Decidable request.SparesKey :=
  inferInstanceAs (Decidable (∀ field ∈ request.given, field.SparesKey))

/-- The audit fields spare the key. -/
theorem sparesKey_auditFields : ∀ field ∈ auditFields, field.SparesKey := by decide +kernel

/-- What a change declares spares the key when the change does. -/
theorem Change.SparesKey.declared {request : Change} (spares : request.SparesKey)
    (configuration : Configuration) :
    (configuration.declared request.subject request.given).SparesKey := by
  intro field present
  unfold Configuration.declared at present
  split at present
  · -- With audit fields, these take the place of given fields of their names.
    rcases List.mem_append.mp present with own | audit
    · exact spares field (List.mem_filter.mp own).1
    · exact sparesKey_auditFields field audit
  · exact spares field present

/-! ## Steps -/

section

variable {configuration : Configuration} {catalog : Catalog} {request : Change}
  {preparation : Preparation}

/-- What a change has to do leaves all stored definitions formed. -/
theorem Catalog.Formed.result (formed : catalog.Formed configuration.system)
    (prepared : request.prepared configuration catalog = .ok preparation) (now : Nat) :
    (preparation.result catalog now).Formed configuration.system := by
  -- A change that is prepared carries out a plan to write or one to delete.
  rcases Change.planned_of_prepared prepared with ⟨plan, rfl, planned⟩ | ⟨plan, rfl, -⟩
  · exact formed.applied planned now
  · exact formed.deleted plan.model now

/-- What a change has to do that spares the key leaves all keys in place. -/
theorem Catalog.KeepsKey.result (keeps : catalog.KeepsKey) (spares : request.SparesKey)
    (prepared : request.prepared configuration catalog = .ok preparation) (now : Nat) :
    (preparation.result catalog now).KeepsKey := by
  -- A change that is prepared carries out a plan to write or one to delete.
  rcases Change.planned_of_prepared prepared with ⟨plan, rfl, planned⟩ | ⟨plan, rfl, -⟩
  · exact keeps.applied planned (spares.declared configuration) now
  · exact keeps.deleted plan.model now

end

/-! ## States reached -/

namespace Lineage

variable {configuration : Configuration} {permits : Change → Prop} {database : Database}

/-- A change that succeeds goes on with a lineage. -/
theorem of_success (lineage : Lineage configuration permits database) (executor : Executor)
    (request : Change) (permitted : permits request)
    (succeeds : (request.run (registryWith executor configuration) database).1 = .ok ()) :
    Lineage configuration permits
      (request.run (registryWith executor configuration) database).2 :=
  -- The run ends well, and its state is what the lineage goes on with.
  .change executor request lineage permitted (Prod.ext succeeds rfl)

/-- Every state reached stores formed definitions, and where all changes spare the key they have
their keys in place. -/
theorem exists_catalog (lineage : Lineage configuration permits database) :
    ∃ catalog : Catalog, database.store = catalog.store ∧ catalog.Formed configuration.system ∧
      ((∀ request, permits request → request.SparesKey) → catalog.KeepsKey) := by
  -- The induction is on the changes; what goes on beside them does not touch the store.
  induction lineage with
  | empty transactional now =>
    refine ⟨(∅ : Roster Record), rfl, fun name definition found => ?_,
      fun _ name definition found => ?_⟩
    all_goals cases found
  | change executor request _ permitted ran ih =>
    obtain ⟨catalog, holds, formed, keeps⟩ := ih
    obtain ⟨preparation, prepared, left⟩ := Change.of_run holds ran
    exact ⟨_, left, formed.result prepared _,
      fun spare => (keeps spare).result (spare request permitted) prepared _⟩
  | beside _ same ih =>
    obtain ⟨catalog, holds, kept⟩ := ih
    exact ⟨catalog, same.trans holds, kept⟩

/-- In every state reached the stored definitions can be read, and what holds of them holds of what
is read. -/
theorem exists_knownModels (lineage : Lineage configuration permits database)
    (executor : Executor) :
    ∃ known, (registryWith executor configuration).knownModels database = (.ok known, database) ∧
      ∀ definition ∈ known.members, definition.Formed configuration.system known ∧
        ((∀ request, permits request → request.SparesKey) → definition.Keyed) := by
  obtain ⟨catalog, holds, formed, keeps⟩ := lineage.exists_catalog
  refine ⟨catalog.models, (Registry.shows_database executor configuration holds).knownModels,
    fun definition listed => ?_⟩
  -- What is read is the definition under its name in the catalog.
  have stored : catalog.definition? definition.name = some definition := by
    rw [← Catalog.find?_models]
    exact Roster.mem_iff_find?.mp listed
  exact ⟨formed _ definition stored, fun spare => (keeps spare _ definition stored).2⟩

/-- After changes that have all succeeded, every stored definition is accepted next to all of them,
and can be compiled again, exactly when it has its key in place: it keeps to all other rules. Where
no relation that any of the changes gives bears the name of the key, it has its key in place. -/
theorem stored_valid_iff_keyed (lineage : Lineage configuration permits database)
    (executor : Executor) :
    ∃ known, (registryWith executor configuration).knownModels database = (.ok known, database) ∧
      ∀ definition ∈ known.members,
        (definition.validate configuration.system known = .ok () ↔ definition.Keyed) ∧
        ((∃ synthesis, Context.synthesize ⟨configuration.system, known⟩ definition =
          .ok synthesis) ↔ definition.Keyed) ∧
        ((∀ request, permits request → request.SparesKey) → definition.Keyed) := by
  obtain ⟨known, read, kept⟩ := lineage.exists_knownModels executor
  refine ⟨known, read, fun definition listed => ?_⟩
  obtain ⟨formed, keyed⟩ := kept definition listed
  -- The check asks for the key beside what is formed, and compilation asks for the check.
  have valid : definition.validate configuration.system known = .ok () ↔ definition.Keyed :=
    Model.validate_eq_ok.trans (and_iff_right formed)
  exact ⟨valid, Context.exists_synthesize_iff.trans valid, keyed⟩

/-- A state in which comments on posts were defined after posts that bear tags. -/
def discussed : Database :=
  ((Change.define "Comment" [.ofRelation "post" (.to .manyToOne "Post")]).run
    (registryWith .idle .standard) Reachable.posted).2

/-- A state in which the tags were deleted after that. -/
def untagged : Database :=
  ((Change.delete "Tag").run (registryWith .idle .standard) discussed).2

/-- The state without the tags comes of changes that spare the key. -/
theorem untagged_spared : Lineage .standard Change.SparesKey untagged := by
  -- Each change succeeds where it is made, which is evaluated state by state.
  have tagged : Lineage .standard Change.SparesKey Reachable.tagged :=
    of_success (.empty false 0) .idle (.define "Tag" []) (by decide +kernel) (by decide +kernel)
  have posted : Lineage .standard Change.SparesKey Reachable.posted :=
    of_success tagged .idle (.define "Post" [.ofRelation "tags" (.to .manyToMany "Tag")])
      (by decide +kernel) (by decide +kernel)
  have commented : Lineage .standard Change.SparesKey discussed :=
    of_success posted .idle (.define "Comment" [.ofRelation "post" (.to .manyToOne "Post")])
      (by decide +kernel) (by decide +kernel)
  exact of_success commented .idle (.delete "Tag") (by decide +kernel) (by decide +kernel)

/-- Posts have got their comments and lost their tags since they were defined. They are accepted and
can be compiled, and so are the comments on them. -/
theorem stored_valid_iff_keyed_untagged :
    Lineage .standard Change.SparesKey untagged ∧
      ∃ known, (registryWith .idle .standard).knownModels untagged = (.ok known, untagged) ∧
        known.members =
          [⟨"Comment", [.ofRelation "post"
              { Relation.to .manyToOne "Post" with inverseName := some "comments" }]⟩,
            ⟨"Post", [.ofRelation "comments"
              { Relation.to .oneToMany "Comment" with inverseName := some "post" }]⟩] ∧
        ∀ definition ∈ known.members,
          definition.validate Configuration.standard.system known = .ok () ∧
          ∃ synthesis, Context.synthesize ⟨Configuration.standard.system, known⟩ definition =
            .ok synthesis := by
  obtain ⟨known, read, kept⟩ := stored_valid_iff_keyed untagged_spared .idle
  -- What is read is evaluated; that it is accepted comes of how it was reached.
  have members : ((registryWith .idle .standard).knownModels untagged).1.map (·.members) =
      .ok [⟨"Comment", [.ofRelation "post"
          { Relation.to .manyToOne "Post" with inverseName := some "comments" }]⟩,
        ⟨"Post", [.ofRelation "comments"
          { Relation.to .oneToMany "Comment" with inverseName := some "post" }]⟩] := by
    decide +kernel
  rw [read] at members
  refine ⟨untagged_spared, known, read, Except.ok.inj members, fun definition listed => ?_⟩
  obtain ⟨valid, compiled, keyed⟩ := kept definition listed
  have inPlace := keyed fun _ spares => spares
  exact ⟨valid.mpr inPlace, compiled.mpr inPlace⟩

/-- A state in which books of several authors were defined. If their relation should ever have a
column, it is to be that of the key. -/
def authored : Database :=
  ((Change.define "Book" [.ofRelation "authors" { Relation.to .oneToMany "Author" with
      inverseName := some "book", foreignKey := some "id" }]).run (registryWith .idle .standard)
    ((Change.define "Author" []).run (registryWith .idle .standard) (.empty false 0)).2).2

/-- A state in which authors were updated to have several books, so that each is of one author. -/
def collected : Database :=
  ((Change.update "Author" [.ofRelation "book"
      { Relation.to .oneToMany "Book" with inverseName := some "authors" }]).run
    (registryWith .idle .standard) authored).2

/-- An update of authors that succeeds makes the relation of books take the column of the key. What
is stored of books is no longer accepted then, and cannot be compiled. -/
theorem stored_invalid_collected :
    Lineage .standard (fun _ => True) collected ∧
      ∃ known, (registryWith .idle .standard).knownModels collected = (.ok known, collected) ∧
        ∃ definition ∈ known.members,
          definition.validate Configuration.standard.system known =
            .error (.invalidDefinition "Book" (some "id") (.sharedColumn "id")) ∧
          ¬∃ synthesis, Context.synthesize ⟨Configuration.standard.system, known⟩ definition =
            .ok synthesis := by
  -- The two changes before it are made in states reached as well.
  have first : Lineage .standard (fun _ => True)
      ((Change.define "Author" []).run (registryWith .idle .standard) (.empty false 0)).2 :=
    of_success (.empty false 0) .idle (.define "Author" []) trivial (by decide +kernel)
  have second : Lineage .standard (fun _ => True) authored :=
    of_success first .idle _ trivial (by decide +kernel)
  have lineage : Lineage .standard (fun _ => True) collected :=
    of_success second .idle _ trivial (by decide +kernel)
  obtain ⟨known, read, -⟩ := lineage.exists_knownModels .idle
  -- The refusal is evaluated, and what is refused is not compiled.
  have refused : ∃ models ∈ ((registryWith .idle .standard).knownModels collected).1.toOption,
      ∃ definition ∈ models.members, definition.validate Configuration.standard.system models =
        .error (.invalidDefinition "Book" (some "id") (.sharedColumn "id")) := by decide +kernel
  rw [read] at refused
  obtain ⟨models, same, definition, listed, refused⟩ := refused
  obtain rfl : known = models := Option.some.inj same
  refine ⟨lineage, known, read, definition, listed, refused, ?_⟩
  rw [Context.exists_synthesize_iff, refused]
  exact nofun

end Lineage

end ModelCatalog
