import ModelCatalog.Registry.Backend

/-! Rehearsals: a database that is disturbed at chosen calls, and that notes every effect.

The registry of a program works on a store that other clients write as well, and that may fail. A
rehearsal is a backend in which this can be laid down beforehand: a disturbance stands for another
client, or for a failure of the store itself, waits for a call of one kind and takes place just
before it. -/

namespace ModelCatalog

/-- The kinds of calls on the store. -/
inductive StoreCall where
  | get
  | put
  | delete
  | listAll
  | flush
  deriving DecidableEq, Repr

/-- How a disturbed call fails. -/
inductive InjectedFault where
  /-- The record seems to have changed. -/
  | conflict
  /-- Some model seems to be missing. -/
  | missing (name : String)
  deriving DecidableEq, Repr

/-- Something that happens before a call on the store. -/
structure Disturbance where
  call : StoreCall
  /-- The model the call has to be about, if it matters. -/
  name : Option String
  /-- The number of such calls that go by undisturbed. -/
  skip : Nat
  /-- A definition that someone else stores. -/
  stored : Option Model
  /-- A model that someone else removes. -/
  removed : Option String
  fault : Option InjectedFault

/-- What an operation does to the outside. -/
inductive Effect where
  | batch (statements : Nat)
  | put (model : String)
  | delete (model : String)
  | flush
  deriving DecidableEq, Repr

/-- An effect, with the unfinished operations as saved just before it. -/
structure NotedEffect where
  effect : Effect
  unfinished : List Operation
  deriving DecidableEq, Repr

/-- A database, the disturbances still to come, and the effects so far. -/
structure Rehearsal where
  database : Database
  disturbances : List Disturbance
  effects : List NotedEffect

namespace Disturbance

/-- The disturbance waits for such a call. -/
def awaits (disturbance : Disturbance) (call : StoreCall) (name : String) : Bool :=
  disturbance.call = call &&
    match disturbance.name with
    | some awaited => awaited == name
    | none => true

/-- Find the first disturbance that waits for a call: whether it happens now, and those left. -/
def next (call : StoreCall) (name : String) :
    List Disturbance → Option Disturbance × List Disturbance
  | [] => (none, [])
  | first :: rest =>
    if first.awaits call name then
      -- A disturbance that has to wait longer still keeps later ones from the call.
      if first.skip = 0 then (some first, rest)
      else (none, { first with skip := first.skip - 1 } :: rest)
    else
      let later := next call name rest
      (later.1, first :: later.2)

/-- What the disturbance does to the store, whatever comes of it. -/
def disturb (disturbance : Disturbance) (database : Database) : Database :=
  let stored :=
    match disturbance.stored with
    | some definition => (Database.put definition .any database).2
    | none => database
  match disturbance.removed with
  | some name => (Database.delete name .any stored).2
  | none => stored

end Disturbance

/-- The error of an injected fault. -/
def InjectedFault.error (name : String) : InjectedFault → Error
  | conflict => .conflict name "injected" "injected"
  | missing model => .notFound model

namespace Rehearsal

variable {α : Type}

/-- Note an effect down. -/
def note (effect : Effect) (rehearsal : Rehearsal) : Rehearsal :=
  { rehearsal with
    effects := rehearsal.effects ++ [⟨effect, rehearsal.database.journal.pending⟩] }

/-- Take a step on the database. -/
def onDatabase (step : Step Database α) : Step Rehearsal α := fun rehearsal =>
  let after := step rehearsal.database
  (after.1, { rehearsal with database := after.2 })

/-- Call the store, after whatever was to happen before the call. -/
def disturbed (call : StoreCall) (name : String) (step : Step Database α) : Step Rehearsal α :=
  fun rehearsal =>
    let found := Disturbance.next call name rehearsal.disturbances
    let left := { rehearsal with disturbances := found.2 }
    match found.1 with
    | none => onDatabase step left
    | some disturbance =>
      let hit := { left with database := disturbance.disturb left.database }
      match disturbance.fault with
      | some fault => (.error (fault.error name), hit)
      | none => onDatabase step hit

/-- The services of a database under disturbance. -/
def backend : Backend Rehearsal where
  get := fun name => disturbed .get name (Database.get name)
  -- An effect is noted also when the call is disturbed and fails.
  put := fun definition expect rehearsal =>
    disturbed .put definition.name (Database.put definition expect)
      (note (.put definition.name) rehearsal)
  delete := fun name expect rehearsal =>
    disturbed .delete name (Database.delete name expect) (note (.delete name) rehearsal)
  listAll := disturbed .listAll "" Database.listAll
  flush := fun rehearsal => disturbed .flush "" (Step.pure ()) (note .flush rehearsal)
  executeBatch := fun statements rehearsal =>
    let noted := note (.batch statements.length) rehearsal
    let after := Database.executeBatch statements noted.database
    (after.1, { noted with database := after.2 })
  isTransactional := fun rehearsal => rehearsal.database.recorder.transactional
  begin := fun model kind rehearsal =>
    let begun := Database.begin model kind rehearsal.database
    (begun.1, { rehearsal with database := begun.2 })
  save := fun operation rehearsal =>
    { rehearsal with database := Database.backend.save operation rehearsal.database }
  remove := fun id rehearsal =>
    { rehearsal with database := Database.backend.remove id rehearsal.database }
  clearExcept := fun keep rehearsal =>
    let cleared := Database.clearExcept keep rehearsal.database
    (cleared.1, { rehearsal with database := cleared.2 })
  pending := fun rehearsal => rehearsal.database.journal.pending

end Rehearsal

end ModelCatalog
