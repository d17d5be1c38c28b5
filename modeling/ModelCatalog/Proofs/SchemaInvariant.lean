import ModelCatalog.Proofs.SchemaSteps

/-! The schema invariant: the statements of successful calls keep the schema of the database in step
with the stored definitions. -/

namespace ModelCatalog

/-- Runs of successful calls from an empty store, with all statements they have submitted. No call
is about a system model or about a name that is for join tables, and the stored relations always
leave the tables alone. Executors may come and go, and what is not stored may change at any time. -/
inductive Session (configuration : Configuration) (tables : String → Prop) :
    Noted Database → Prop where
  | empty (transactional : Bool) (now : Nat) :
    Session configuration tables ⟨.empty transactional now, []⟩
  | call {noted after : Noted Database} {answer : Option Record} (executor : Executor)
    (request : Change) (session : Session configuration tables noted)
    (inCatalog : configuration.system.contains request.subject = false)
    (isModel : ¬tables request.subject)
    (succeeds : request.answer (Noted.registry (registryWith executor configuration)) noted =
      (.ok answer, after))
    (regular : after.state.store.Regular tables) : Session configuration tables after
  | beside {noted after : Noted Database} (session : Session configuration tables noted)
    (sameStore : after.state.store = noted.state.store)
    (sameStatements : after.statements = noted.statements) : Session configuration tables after

namespace Session

variable {configuration : Configuration} {tables : String → Prop} {noted : Noted Database}

/-- The schema that the statements of a run leave of an empty database. -/
def schema (noted : Noted Database) : Schema := Schema.replay ∅ noted.statements

/-- What holds after every run: what is stored can all be read and its graph is symmetric, relations
leave the tables alone, the schema is in step, and the statements found what they needed. -/
structure Holds (configuration : Configuration) (tables : String → Prop) (noted : Noted Database)
    (catalog : Catalog) : Prop where
  store : noted.state.store = catalog.store
  symmetric : Symmetric configuration.system catalog.models
  regular : catalog.store.Regular tables
  mirrors : (schema noted).Mirrors tables catalog
  admits : Schema.Admits configuration.system ∅ noted.statements

/-- The empty store has the empty schema. -/
theorem Holds.empty (transactional : Bool) (now : Nat) :
    Holds configuration tables ⟨.empty transactional now, []⟩ (∅ : Roster Record) where
  -- There is no definition, no table and no statement to look at.
  store := rfl
  symmetric := Symmetric.empty
  regular := {
    keyed := fun _ listed => by cases listed
    named := fun _ joins => by cases joins
    shared := fun _ joins => by cases joins }
  mirrors := {
    only := fun _ there => by cases there
    apart := fun _ stored => by cases stored
    modelled := fun _ _ stored => by cases stored
    joined := fun _ joins => by cases joins }
  admits := fun _ _ _ split => by simp at split

/-- A call that succeeds keeps what holds after every run. -/
theorem Holds.call {catalog : Catalog} (holds : Holds configuration tables noted catalog)
    {executor : Executor} {request : Change} {answer : Option Record} {after : Noted Database}
    (inCatalog : configuration.system.contains request.subject = false)
    (isModel : ¬tables request.subject)
    (succeeds : request.answer (Noted.registry (registryWith executor configuration)) noted =
      (.ok answer, after))
    (regular : after.state.store.Regular tables) :
    ∃ next, Holds configuration tables after next := by
  -- What the call has submitted is what it prepared, and so is what it leaves stored.
  obtain ⟨preparation, prepared, -, left, submitted⟩ := Change.of_answer holds.store succeeds
  have replayed : schema after = (schema noted).replay preparation.submitted := by
    rw [schema, submitted, Schema.replay_append, schema]
  have admitted : (schema noted).Admits configuration.system preparation.submitted →
      Schema.Admits configuration.system ∅ after.statements := by
    rw [submitted]
    exact holds.admits.append
  rw [left] at regular
  -- A call writes a definition or deletes one; the graph, the schema and the statements each have a
  -- step lemma for either.
  rcases Change.of_prepared prepared with ⟨plan, fields, rfl, planned⟩ | ⟨plan, rfl, planned⟩
  · obtain ⟨own, sound⟩ := WritePlan.sound_of_declared planned
    rw [← own] at planned inCatalog isModel
    exact ⟨_, left, Catalog.symmetric_applied sound holds.symmetric rfl inCatalog _, regular,
      replayed ▸ holds.mirrors.applied holds.regular planned isModel regular,
      admitted (holds.mirrors.admits_write holds.regular planned isModel)⟩
  · obtain ⟨-, -, own, -⟩ := Catalog.fits_of_deletion planned
    rw [Preparation.result, own] at left regular
    exact ⟨_, left, Catalog.symmetric_deleted holds.symmetric _ _, regular,
      replayed ▸ holds.mirrors.deleted holds.symmetric holds.regular planned isModel,
      admitted (Schema.admits_delete planned)⟩

/-- What holds after every run holds after this one. -/
theorem exists_holds (session : Session configuration tables noted) :
    ∃ catalog, Holds configuration tables noted catalog := by
  -- The induction is on the run; besides calls nothing touches the store or the statements.
  induction session with
  | empty transactional now => exact ⟨_, .empty transactional now⟩
  | call executor request _ inCatalog isModel succeeds regular ih =>
    obtain ⟨catalog, holds⟩ := ih
    exact holds.call inCatalog isModel succeeds regular
  | beside _ sameStore sameStatements ih =>
    obtain ⟨catalog, holds⟩ := ih
    refine ⟨catalog, sameStore.trans holds.store, holds.symmetric, holds.regular, ?_, ?_⟩
    · rw [schema, sameStatements]
      exact holds.mirrors
    · rw [sameStatements]
      exact holds.admits

/-- After every run each stored model has its table with every column of its definition, the join
table of each stored field is there, and every statement that was submitted found the tables it
needed when its turn came. -/
theorem schema_in_step (session : Session configuration tables noted) :
    (∀ definition ∈ noted.state.store.definitions, ∃ table,
      (schema noted).find? definition.name = some table ∧
      ∀ column ∈ definition.columnNames, table.columns.contains column = true) ∧
    (∀ joint ∈ noted.state.store.joints, (schema noted).contains joint.table = true) ∧
    Schema.Admits configuration.system ∅ noted.statements := by
  obtain ⟨catalog, holds⟩ := session.exists_holds
  rw [holds.store]
  refine ⟨fun definition listed => ?_, holds.mirrors.joined, holds.admits⟩
  obtain ⟨there, has⟩ := holds.mirrors.modelled _ _ (Catalog.mem_definitions_store.mp listed)
  rw [Roster.contains_eq, Option.isSome_iff_exists] at there
  obtain ⟨table, found⟩ := there
  refine ⟨table, found, fun column isColumn => ?_⟩
  -- The table that has the column is the one found.
  obtain ⟨again, foundAgain, held⟩ := has column isColumn
  rw [found, Option.some.injEq] at foundAgain
  exact foundAgain ▸ held

/-- A change in which a model of posts is defined, which bear tags and are marked by others. -/
def marks : Change :=
  .define "Post" [.ofRelation "tags" (.to .manyToMany "Tag"),
    .ofRelation "marks" { Relation.to .oneToMany "Tag" with inverseName := some "marked" }]

/-- A session in which a model of tags was defined. -/
def tagging : Noted Database :=
  ((Change.define "Tag" []).answer (Noted.registry (registryWith .idle .standard))
    ⟨.empty false 0, []⟩).2

/-- A session in which the model of posts was defined after that. -/
def marking : Noted Database :=
  (marks.answer (Noted.registry (registryWith .idle .standard)) tagging).2

/-- Posts and tags have one join table, and nothing else is called like it. -/
theorem session_marking : Session .standard (· = "Post_tags_Tag") marking := by
  -- The two calls answer, and neither is about the join table.
  obtain ⟨_, tagged⟩ : ∃ answer, (Change.define "Tag" []).answer
      (Noted.registry (registryWith .idle .standard)) ⟨.empty false 0, []⟩ =
        (.ok answer, tagging) := Step.exists_of_isOk _ (by decide +kernel)
  obtain ⟨_, marked⟩ : ∃ answer, marks.answer
      (Noted.registry (registryWith .idle .standard)) tagging = (.ok answer, marking) :=
    Step.exists_of_isOk _ (by decide +kernel)
  have first : Session .standard (· = "Post_tags_Tag") tagging := by
    refine .call .idle _ (.empty false 0) ?_ ?_ tagged ⟨?_, ?_, ?_⟩ <;> decide +kernel
  refine .call .idle _ first ?_ ?_ marked ⟨?_, ?_, ?_⟩ <;> decide +kernel

/-- Posts and tags keep the schema in step, with a column of the tags that was added for the marks
of posts. -/
theorem schema_in_step_marking :
    Session .standard (· = "Post_tags_Tag") marking ∧
      (∀ definition ∈ marking.state.store.definitions, ∃ table,
        (schema marking).find? definition.name = some table ∧
        ∀ column ∈ definition.columnNames, table.columns.contains column = true) ∧
      (∀ joint ∈ marking.state.store.joints, (schema marking).contains joint.table = true) ∧
      Schema.Admits Configuration.standard.system ∅ marking.statements ∧
      marking.state.store.definitions.map Model.columnNames = [["id"], ["id", "marked_id"]] := by
  -- The session has the side conditions, and the columns are worked out.
  obtain ⟨modelled, joined, admits⟩ := schema_in_step session_marking
  exact ⟨session_marking, modelled, joined, admits, by decide +kernel⟩

end Session

end ModelCatalog
