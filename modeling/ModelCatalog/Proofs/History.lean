import ModelCatalog.Proofs.RepairSteps

/-! Histories of calls: what a call leaves in the store, and what holds in every state reached. -/

namespace ModelCatalog

/-- A call that changes one model: its definition, its update or its deletion. -/
inductive Change where
  | define (name : String) (fields : List Field)
  | update (name : String) (fields : List Field)
  | delete (name : String)

namespace Change

/-- The model a change is about. -/
def subject : Change → String
  | define name _ | update name _ | delete name => name

/-- The fields that a change gives to its subject. -/
def given : Change → List Field
  | define _ fields | update _ fields => fields
  | delete _ => []

/-- Carry out a change. -/
def run (registry : Registry Database) : Change → Step Database Unit
  | define name fields => do
    let _ ← registry.define name fields
  | update name fields => do
    let _ ← registry.update name fields
  | delete name => registry.delete name

end Change

/-- A call to a registry: the change of one model, or the repair of all. -/
inductive Call where
  | change (request : Change)
  | reconcile (reapplying : Bool)

/-- Carry out a call. -/
def Call.run (registry : Registry Database) : Call → Step Database Unit
  | change request => request.run registry
  | reconcile reapplying => do
    let _ ← registry.reconcile reapplying

/-- The call is not about a model outside of some. -/
def Call.IsAbout (subjects : String → Prop) : Call → Prop
  | change request => subjects request.subject
  | reconcile _ => True

/-- The states reached from an empty store by calls about some models, none of which stops partway.
Executors may come and go and refuse what they like, and what is not stored may change at any
time. -/
inductive Reachable (configuration : Configuration) (subjects : String → Prop) :
    Database → Prop where
  | empty (transactional : Bool) (now : Nat) :
    Reachable configuration subjects (.empty transactional now)
  | call {database after : Database} {result : Except Error Unit} (executor : Executor)
    (call : Call) (reached : Reachable configuration subjects database)
    (about : call.IsAbout subjects)
    (ran : call.run (registryWith executor configuration) database = (result, after))
    (whole : ∀ error, result = .error error → error.isPartial = false) :
    Reachable configuration subjects after
  | beside {database after : Database} (reached : Reachable configuration subjects database)
    (same : after.store = database.store) : Reachable configuration subjects after

/-! ## Steps of a catalog -/

/-- What a call that does not stop partway makes of a catalog. -/
inductive Catalog.Steps (configuration : Configuration) (subjects : String → Prop)
    (catalog : Catalog) : Catalog → Prop where
  | stay : Steps configuration subjects catalog catalog
  | apply {plan : WritePlan} (now : Nat)
    (sound : plan.Sound (configuration.context catalog) (catalog.find? plan.definition.name))
    (about : subjects plan.definition.name) :
    Steps configuration subjects catalog (catalog.applied plan now)
  | delete (name : String) (now : Nat) :
    Steps configuration subjects catalog (catalog.deleted name now)
  | reconcile (now : Nat) :
    Steps configuration subjects catalog (catalog.reconciled configuration.system now)

/-- A plan to write a declared definition is sound, and about its name. -/
theorem WritePlan.sound_of_declared {configuration : Configuration} {catalog : Catalog}
    {name : String} {fields : List Field} {plan : WritePlan}
    (planned : (configuration.context catalog).planWrite (catalog.find? name)
      (configuration.declared name fields) = .ok plan) :
    plan.definition.name = name ∧
      plan.Sound (configuration.context catalog) (catalog.find? plan.definition.name) := by
  -- The name of a sound plan is the one that the definition was declared under.
  have sound := sound_of_planWrite planned
  have own : plan.definition.name = name :=
    sound.named.symm.trans (fits_of_planWrite planned).2
  exact ⟨own, own.symm ▸ sound⟩

section

variable {executor : Executor} {configuration : Configuration} {subjects : String → Prop}
  {database after : Database} {catalog : Catalog} {result : Except Error Unit}

/-- A write that does not stop partway writes all or nothing. -/
theorem Registry.steps_of_write (holds : database.store = catalog.store) {name : String}
    {fields : List Field} {mustExist : Bool} {outcome : Except Error Record}
    (about : subjects name)
    (ran : (registryWith executor configuration).write name fields mustExist database =
      (outcome, after))
    (whole : ∀ error, outcome = .error error → error.isPartial = false) :
    ∃ next, after.store = next.store ∧ catalog.Steps configuration subjects next := by
  -- A write is refused, or it carries out its plan as a whole or up to a failure.
  rcases write_cases executor configuration holds name fields mustExist with
    ⟨error, refused, -⟩ | ⟨allowed, plan, planned⟩
  · -- A refusal comes before anything is written.
    rw [refused] at ran
    cases ran
    exact ⟨catalog, holds, .stay⟩
  · obtain ⟨own, sound⟩ := WritePlan.sound_of_declared planned
    rcases write_of_planned executor configuration holds allowed planned with
      ⟨record, final, wrote, -, stored, -⟩ |
      ⟨error, final, done, rest, stopped, -, -, stored, none, -⟩
    · rw [wrote] at ran
      cases ran
      exact ⟨_, stored, .apply database.now sound (own ▸ about)⟩
    · -- Without effects that stay behind no edit was done.
      rw [stopped] at ran
      cases ran
      rw [none (whole error rfl)] at stored
      exact ⟨catalog, stored, .stay⟩

/-- A call that does not stop partway takes one step. -/
theorem Call.steps (holds : database.store = catalog.store) {call : Call}
    (about : call.IsAbout subjects)
    (ran : call.run (registryWith executor configuration) database = (result, after))
    (whole : ∀ error, result = .error error → error.isPartial = false) :
    ∃ next, after.store = next.store ∧ catalog.Steps configuration subjects next := by
  -- What the call gives is not kept, but it tells how the call ended.
  cases call with
  | change request =>
    cases request with
    | define name fields =>
      obtain ⟨outcome, wrote, same⟩ := Step.of_discarded ran
      exact Registry.steps_of_write holds about wrote
        fun error failed => whole error (by rw [same, failed]; rfl)
    | update name fields =>
      obtain ⟨outcome, wrote, same⟩ := Step.of_discarded ran
      exact Registry.steps_of_write holds about wrote
        fun error failed => whole error (by rw [same, failed]; rfl)
    -- A deletion that fails does so at its statements, before it touches a record.
    | delete name =>
      have ran : (registryWith executor configuration).delete name database = (result, after) := ran
      rcases Registry.delete_cases executor configuration holds name with
        ⟨error, refused, -⟩ | ⟨identifier, plan, planned⟩
      · -- What is refused before its work leaves everything as it was.
        rw [refused] at ran
        cases ran
        exact ⟨catalog, holds, .stay⟩
      · rcases Registry.delete_of_planned executor configuration holds identifier planned with
          ⟨final, deleted, -, stored⟩ | ⟨error, final, stopped, -, stored, -⟩
        · -- A deletion that ends well is a step of its own.
          rw [deleted] at ran
          cases ran
          exact ⟨_, stored, .delete name database.now⟩
        · rw [stopped] at ran
          cases ran
          exact ⟨catalog, stored, .stay⟩
  -- A reconciliation, too, fails at its statements or not at all.
  | reconcile reapplying =>
    obtain ⟨outcome, repaired, -⟩ := Step.of_discarded ran
    rcases Registry.reconcile_cases executor configuration holds reapplying with
      ⟨error, final, stopped, -, stored⟩ | ⟨report, final, done, -, stored⟩
    · rw [stopped] at repaired
      cases repaired
      exact ⟨catalog, stored, .stay⟩
    · rw [done] at repaired
      cases repaired
      exact ⟨_, stored, .reconcile database.now⟩

end

/-! ## States reached -/

namespace Catalog.Steps

variable {configuration : Configuration} {subjects : String → Prop} {catalog next : Catalog}

/-- A step leaves all defaults finite. -/
theorem finite (steps : catalog.Steps configuration subjects next) (finite : catalog.Finite) :
    next.Finite := by
  -- Each kind of step has a lemma of its own.
  cases steps with
  | stay => exact finite
  | apply now sound about => exact finite.applied sound now
  | delete name now => exact finite.deleted name now
  | reconcile now => exact finite.reconciled configuration.system now

/-- A step that is not about a system model leaves the graph symmetric. -/
theorem symmetric
    (steps : catalog.Steps configuration (configuration.system.contains · = false) next)
    (symmetric : Symmetric configuration.system catalog.models) :
    Symmetric configuration.system next.models := by
  -- A write needs its subject in the catalog; the other steps keep the symmetry whatever they are
  -- about.
  cases steps with
  | stay => exact symmetric
  | apply now sound about => exact symmetric_applied sound symmetric rfl about now
  | delete name now => exact symmetric_deleted symmetric name now
  | reconcile now => exact symmetric_reconciled symmetric now

end Catalog.Steps

namespace Reachable

variable {configuration : Configuration} {subjects : String → Prop} {database : Database}

/-- What calls about some models reach, calls about more of them reach as well. -/
theorem mono {others : String → Prop} (reached : Reachable configuration subjects database)
    (wider : ∀ name, subjects name → others name) : Reachable configuration others database := by
  -- The induction is on the run, call by call.
  induction reached with
  | empty transactional now => exact .empty transactional now
  | call executor call _ about ran whole ih =>
    refine .call executor call ih ?_ ran whole
    cases call with
    | change request => exact wider _ about
    | reconcile reapplying => trivial
  | beside _ same ih => exact .beside ih same

/-- A call that succeeds takes a state that was reached to another one. -/
theorem of_success {subjects : String → Prop}
    (reached : Reachable configuration subjects database) (executor : Executor) (call : Call)
    (about : call.IsAbout subjects)
    (succeeds : (call.run (registryWith executor configuration) database).1 = .ok ()) :
    Reachable configuration subjects
      (call.run (registryWith executor configuration) database).2 := by
  -- A success is no failure, so there is nothing to be asked of the error.
  refine .call executor call reached about rfl fun error failed => ?_
  cases succeeds.symm.trans failed

/-- What a state that was reached stores can all be read, and its defaults are finite. -/
theorem exists_catalog (reached : Reachable configuration subjects database) :
    ∃ catalog : Catalog, database.store = catalog.store ∧ catalog.Finite := by
  -- The invariant is that every record can be read. An empty store has none, and each call is a
  -- step from one catalog to another.
  induction reached with
  | empty transactional now =>
    refine ⟨(∅ : Roster Record), rfl, ?_⟩
    intro name definition found
    cases found
  | call executor call _ about ran whole ih =>
    obtain ⟨catalog, holds, finite⟩ := ih
    obtain ⟨next, stored, steps⟩ := call.steps holds about ran whole
    exact ⟨next, stored, steps.finite finite⟩
  | beside _ same ih =>
    obtain ⟨catalog, holds, finite⟩ := ih
    exact ⟨catalog, same.trans holds, finite⟩

/-- Where no call is about a system model, the graph of every state reached is symmetric. -/
theorem exists_symmetric
    (reached : Reachable configuration (configuration.system.contains · = false) database) :
    ∃ catalog : Catalog, database.store = catalog.store ∧ catalog.Finite ∧
      Symmetric configuration.system catalog.models := by
  -- Along with the invariant of the lemma before goes the symmetry, which each step keeps.
  induction reached with
  | empty transactional now =>
    refine ⟨(∅ : Roster Record), rfl, ?_, Symmetric.empty⟩
    intro name definition found
    cases found
  | call executor call _ about ran whole ih =>
    obtain ⟨catalog, holds, finite, symmetric⟩ := ih
    obtain ⟨next, stored, steps⟩ := call.steps holds about ran whole
    exact ⟨next, stored, steps.finite finite, steps.symmetric symmetric⟩
  | beside _ same ih =>
    obtain ⟨catalog, holds, finite, symmetric⟩ := ih
    exact ⟨catalog, same.trans holds, finite, symmetric⟩

end Reachable

end ModelCatalog
