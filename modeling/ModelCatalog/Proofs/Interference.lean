import ModelCatalog.Proofs.VersionGuard
import ModelCatalog.Proofs.WriteRun
import ModelCatalog.Registry.Rehearsal

/-! Interference: what becomes of a change to a record while others write the same one. -/

namespace ModelCatalog

open InProgress

/-! ## Others, and what they leave -/

namespace Disturbance

/-- Someone else stores a definition just before a write of the same model. -/
def overwrite (definition : Model) : Disturbance where
  call := .put
  name := some definition.name
  skip := 0
  stored := some definition
  removed := none
  fault := none

/-- A call that no disturbance waits for leaves them all. -/
theorem next_of_unawaited {call : StoreCall} {name : String} {disturbances : List Disturbance}
    (unawaited : ∀ disturbance ∈ disturbances, disturbance.awaits call name = false) :
    next call name disturbances = (none, disturbances) := by
  -- The search goes by one disturbance after the other and puts them together again.
  induction disturbances with
  | nil => rfl
  | cons first rest ih =>
    obtain ⟨head, tail⟩ := List.forall_mem_cons.mp unawaited
    rw [next, head, if_neg Bool.false_ne_true, ih tail]

/-- A write of a model meets the one who is the first to store the same model. -/
theorem next_overwrite (definition : Model) (rest : List Disturbance) :
    next .put definition.name (overwrite definition :: rest) =
      (some (overwrite definition), rest) := by
  -- The disturbance waits for such a call, and for no other one before it.
  simp [next, awaits, overwrite]

/-- Those who store definitions wait for writes alone. -/
theorem awaits_get_overwrite {others : List Model} {disturbance : Disturbance}
    (listed : disturbance ∈ others.map overwrite) (name : String) :
    disturbance.awaits .get name = false := by
  -- The kind of the call decides before the name does.
  obtain ⟨definition, -, rfl⟩ := List.mem_map.mp listed
  rfl

end Disturbance

/-- A record after others have stored their definitions over it, one after the other. -/
def Record.overwritten (record : Record) (others : List Model) (now : Nat) : Record :=
  others.foldl (fun record other => record.next other now) record

/-! ## Calls on the store -/

namespace Database

variable {database : Database} {definition : Model} {expect : Expect} {current : Option Record}

/-- A database after a record was filed. -/
def filed (database : Database) (record : Record) : Database :=
  { database with store := database.store.insert (.intact record) }

/-- Reading after a record was filed. -/
theorem get_filed (database : Database) (record : Record) (name : String) :
    (database.filed record).store.get name =
      if record.name = name then .ok (some record) else database.store.get name :=
  Store.get_insert database.store record name

/-- A write whose guard holds files the successor of the record that is there. -/
theorem put_of_holds (read : database.store.get definition.name = .ok current)
    (holds : expect.holds current = true) :
    Database.put definition expect database =
      (.ok (Store.successor current definition database.now),
        database.filed (Store.successor current definition database.now)) := by
  -- The store and the time are the only parts that a write looks at.
  rw [Database.put, Store.put_of_holds read holds, filed]

/-- A write whose guard does not hold is a conflict, and changes nothing. -/
theorem put_of_conflict (read : database.store.get definition.name = .ok current)
    (holds : expect.holds current = false) :
    Database.put definition expect database =
      (.error (.conflict definition.name expect.text (Expect.found current)), database) := by
  -- The error of the store is passed on with the database as it was.
  rw [Database.put, Store.put_of_conflict read holds]

/-- The one who overwrites a record makes the next version of it, under no guard. -/
theorem disturb_overwrite {record : Record}
    (read : database.store.get definition.name = .ok (some record)) :
    (Disturbance.overwrite definition).disturb database =
      database.filed (record.next definition database.now) := by
  have wrote : Database.put definition .any database =
      (.ok (record.next definition database.now),
        database.filed (record.next definition database.now)) :=
    put_of_holds read rfl
  -- Nothing is removed, so that what was stored is all that happens.
  exact congrArg Prod.snd wrote

end Database

namespace Rehearsal

open Disturbance

variable {α : Type} {rehearsal before middle after : Rehearsal} {name : String} {record : Record}
  {others rest : List Model} {definition first : Model}

/-- A call that no one disturbs is the call on the database. -/
theorem disturbed_of_none {call : StoreCall} {step : Step Database α} {database : Database}
    {outcome : Except Error α}
    (found : next call name rehearsal.disturbances = (none, rehearsal.disturbances))
    (ran : step rehearsal.database = (outcome, database)) :
    disturbed call name step rehearsal = (outcome, { rehearsal with database := database }) := by
  -- The disturbances are all left, so only the database may differ.
  simp only [disturbed, found, onDatabase, ran]

/-- A call that someone is quicker than finds what that one has stored. -/
theorem disturbed_of_overwrite {call : StoreCall} {step : Step Database α} {database : Database}
    {outcome : Except Error α} {left : List Disturbance}
    (found : next call name rehearsal.disturbances = (some (overwrite first), left))
    (ran : step ((overwrite first).disturb rehearsal.database) = (outcome, database)) :
    disturbed call name step rehearsal =
      (outcome, { rehearsal with database := database, disturbances := left }) := by
  -- Someone who overwrites makes no call fail.
  simp only [disturbed, found, show (overwrite first).fault = none from rfl, onDatabase, ran]

/-- A record is stored under a name, and others are to overwrite it, each before one write of it. -/
structure Contested (rehearsal : Rehearsal) (name : String) (record : Record)
    (others : List Model) : Prop where
  stored : rehearsal.database.store.get name = .ok (some record)
  waiting : rehearsal.disturbances = others.map overwrite
  /-- The record and what the others store are about the one model. -/
  named : ∀ definition ∈ record.definition :: others, definition.name = name

/-- Between two moments nothing has happened but to the record of one name. -/
structure Beside (before after : Rehearsal) (name : String) : Prop where
  now : after.database.now = before.database.now
  elsewhere : ∀ other, other ≠ name →
    after.database.store.get other = before.database.store.get other

/-- Moments may follow on each other. -/
theorem Beside.trans (first : Beside before middle name) (second : Beside middle after name) :
    Beside before after name :=
  -- What stays the same twice stays the same.
  ⟨second.now.trans first.now,
    fun other apart => (second.elsewhere other apart).trans (first.elsewhere other apart)⟩

/-- Where a record is filed, nothing happens to the others. -/
theorem beside_of_filed (same : after.database = rehearsal.database.filed record)
    (named : record.name = name) : Beside rehearsal after name where
  now := by rw [same, Database.filed]
  elsewhere other apart := by rw [same, Database.get_filed, named, if_neg (Ne.symm apart)]

/-- Reading a record passes by those who wait for writes. -/
theorem get_run (contested : rehearsal.Contested name record others) :
    backend.get name rehearsal = (.ok (some record), rehearsal) := by
  refine disturbed_of_none (next_of_unawaited fun disturbance listed =>
    awaits_get_overwrite (contested.waiting ▸ listed) name) ?_
  -- Reading changes nothing, so the rehearsal is the one before.
  rw [Database.get, contested.stored]

/-- Where no one is left to interfere, a write under the version that was read goes through. -/
theorem put_run (contested : rehearsal.Contested name record []) (named : definition.name = name) :
    ∃ after, backend.put definition (.version record.version) rehearsal =
        (.ok (record.next definition rehearsal.database.now), after) ∧
      after.Contested name (record.next definition rehearsal.database.now) [] ∧
      Beside rehearsal after name := by
  subst named
  have alone : (note (.put definition.name) rehearsal).disturbances = [] := contested.waiting
  -- The guard asks for the version that was read, and that is still there.
  have filed : Database.put definition (.version record.version) rehearsal.database =
      (.ok (record.next definition rehearsal.database.now),
        rehearsal.database.filed (record.next definition rehearsal.database.now)) :=
    Database.put_of_holds contested.stored (beq_self_eq_true _)
  have wrote := @disturbed_of_none _ (note (.put definition.name) rehearsal) definition.name .put
    _ _ _ (by rw [alone]; rfl) filed
  refine ⟨_, wrote, ⟨?_, contested.waiting, ?_⟩, beside_of_filed rfl rfl⟩
  · exact (Database.get_filed _ _ _).trans (if_pos rfl)
  · exact fun _ listed => List.mem_singleton.mp listed ▸ rfl

/-- A write under the version that was read is a conflict when someone is quicker. -/
theorem put_run_overtaken (contested : rehearsal.Contested name record (first :: rest))
    (named : definition.name = name) :
    ∃ error after, backend.put definition (.version record.version) rehearsal =
        (.error error, after) ∧ error.kind = .conflict ∧
      after.Contested name (record.next first rehearsal.database.now) rest ∧
      Beside rehearsal after name := by
  -- The first of the others waits for this very write.
  have own : first.name = name := contested.named first (by simp)
  have found : next .put definition.name (note (.put definition.name) rehearsal).disturbances =
      (some (overwrite first), rest.map overwrite) := by
    rw [named, ← own]
    exact (congrArg (next .put first.name) contested.waiting).trans (next_overwrite first _)
  -- The other one has made the next version, and the guard still asks for the one before.
  have theirs := @Database.disturb_overwrite rehearsal.database first record
    (own ▸ contested.stored)
  have stored : (rehearsal.database.filed
      (record.next first rehearsal.database.now)).store.get name =
        .ok (some (record.next first rehearsal.database.now)) :=
    (Database.get_filed _ _ _).trans (if_pos own)
  have late : (Expect.version record.version).holds
      (some (record.next first rehearsal.database.now)) = false :=
    beq_eq_false_iff_ne.mpr (Nat.succ_ne_self _)
  have mine := Database.put_of_conflict (named ▸ stored) late
  exact ⟨_, _, disturbed_of_overwrite found ((congrArg (Database.put _ _) theirs).trans mine), rfl,
    ⟨stored, rfl, fun _ listed => contested.named _ (List.mem_cons_of_mem _ listed)⟩,
    beside_of_filed rfl own⟩

end Rehearsal

/-! ## Attempts -/

namespace Registry

open Rehearsal

/-- A registry whose services may be disturbed. -/
def rehearsing (configuration : Configuration) : Registry Rehearsal :=
  ⟨Rehearsal.backend, configuration⟩

variable (configuration : Configuration) {progress : InProgress Rehearsal} {name : String}
  {record : Record} {others rest : List Model} {first : Model} {change : Model → Model × Bool}

/-- An attempt reads the record that is stored and goes on with its definition. -/
theorem tryAmend_eq (contested : progress.state.Contested name record others)
    (createMissing : Bool) :
    (rehearsing configuration).tryAmend name createMissing change progress =
      changeRead Rehearsal.backend change record.definition (.version record.version) progress := by
  have read : lift (Rehearsal.backend.get name) progress = (.ok (some record), progress) := by
    rw [lift, get_run contested]
  -- What is read is there, so that it does not matter what would be made of a missing one.
  exact Step.bind_of_ok read

/-- An attempt that no one is quicker than makes the change and counts it. -/
theorem tryAmend_of_first (contested : progress.state.Contested name record [])
    (effective : (change record.definition).2 = true)
    (keepsName : ∀ model, (change model).1.name = model.name) (createMissing : Bool) :
    ∃ after, (rehearsing configuration).tryAmend name createMissing change progress =
        (.ok (.ok ()), ⟨progress.operation.advance 1, after⟩) ∧
      after.Contested name
        (record.next (change record.definition).1 progress.state.database.now) [] ∧
      Beside progress.state after name := by
  obtain ⟨after, wrote, left, beside⟩ := put_run contested
    ((keepsName _).trans (contested.named _ List.mem_cons_self))
  have put : lift (Rehearsal.backend.put (change record.definition).1
      (.version record.version)) progress =
        (.ok (record.next (change record.definition).1 progress.state.database.now),
          ⟨progress.operation, after⟩) := by
    rw [lift, wrote]
  rw [tryAmend_eq configuration contested, changeRead, if_pos effective,
    Step.bind_of_ok (Step.outcome_run put)]
  -- To count a step saves the operation, which touches the journal alone.
  exact ⟨_, rfl, ⟨left.stored, left.waiting, left.named⟩, beside.now, beside.elsewhere⟩

/-- An attempt that someone is quicker than is void, and leaves what that one has stored. -/
theorem tryAmend_overtaken (contested : progress.state.Contested name record (first :: rest))
    (effective : (change record.definition).2 = true)
    (keepsName : ∀ model, (change model).1.name = model.name) (createMissing : Bool) :
    ∃ error after, (rehearsing configuration).tryAmend name createMissing change progress =
        (.ok (.error error), ⟨progress.operation, after⟩) ∧ error.kind = .conflict ∧
      after.Contested name (record.next first progress.state.database.now) rest ∧
      Beside progress.state after name := by
  obtain ⟨error, after, refused, conflict, left, beside⟩ := put_run_overtaken contested
    ((keepsName _).trans (contested.named _ List.mem_cons_self))
  have put : lift (Rehearsal.backend.put (change record.definition).1
      (.version record.version)) progress = (.error error, ⟨progress.operation, after⟩) := by
    rw [lift, refused]
  rw [tryAmend_eq configuration contested, changeRead, if_pos effective,
    Step.bind_of_ok (Step.outcome_run put)]
  -- A conflict is the one failure of a write that makes the attempt void.
  exact ⟨error, after, congrFun (if_pos conflict) _, conflict, left, beside⟩

/-! ## Repeated attempts -/

/-- Attempts that may be repeated often enough end with the change made to what the last of the
others has left. -/
theorem retrying_tryAmend (keepsName : ∀ model, (change model).1.name = model.name)
    (createMissing : Bool) (others : List Model) :
    ∀ {progress : InProgress Rehearsal} {record : Record} {times : Nat},
      progress.state.Contested name record others →
      (∀ definition ∈ record.definition :: others, (change definition).2 = true) →
      others.length ≤ times →
      ∃ after, Step.retrying ((rehearsing configuration).tryAmend name createMissing change) times
          progress = (.ok (), ⟨progress.operation.advance 1, after⟩) ∧
        after.Contested name
          ((record.overwritten others progress.state.database.now).next
            (change (record.overwritten others progress.state.database.now).definition).1
            progress.state.database.now) [] ∧
        Beside progress.state after name := by
  -- The induction is on those who interfere: each of them makes one attempt void.
  induction others with
  | nil =>
    intro progress record times contested effective _
    obtain ⟨after, done, left, beside⟩ := tryAmend_of_first configuration contested
      (effective _ List.mem_cons_self) keepsName createMissing
    exact ⟨after, Step.retrying_of_ok done times, left, beside⟩
  | cons first rest ih =>
    intro progress record times contested effective few
    obtain ⟨error, middle, void, -, left, beside⟩ := tryAmend_overtaken configuration contested
      (effective _ List.mem_cons_self) keepsName createMissing
    cases times with
    | zero => exact absurd few (Nat.not_succ_le_zero _)
    | succ more =>
      -- The next attempt begins with what the quicker one has stored.
      obtain ⟨after, ran, last, later⟩ := @ih ⟨progress.operation, middle⟩ _ _ left
        (fun definition listed => effective _ (List.mem_cons_of_mem _ listed))
        (Nat.le_of_succ_le_succ few)
      rw [beside.now] at last
      exact ⟨after, (Step.bind_of_ok void).trans ran, last, beside.trans later⟩

/-- Attempts that may not be repeated often enough end in a conflict. Each of them has let one of
the others by, and none has changed anything. -/
theorem retrying_tryAmend_crowded (keepsName : ∀ model, (change model).1.name = model.name)
    (createMissing : Bool) (times : Nat) :
    ∀ {progress : InProgress Rehearsal} {record : Record} {others : List Model},
      progress.state.Contested name record others →
      (∀ definition ∈ record.definition :: others, (change definition).2 = true) →
      times < others.length →
      ∃ error after, Step.retrying ((rehearsing configuration).tryAmend name createMissing change)
          times progress = (.error error, ⟨progress.operation, after⟩) ∧ error.kind = .conflict ∧
        after.Contested name
          (record.overwritten (others.take (times + 1)) progress.state.database.now)
          (others.drop (times + 1)) ∧
        Beside progress.state after name := by
  induction times with
  | zero =>
    intro progress record others contested effective many
    -- There is one attempt, and the first of the others is quicker.
    obtain ⟨first, rest, rfl⟩ := List.exists_cons_of_length_pos many
    obtain ⟨error, after, void, conflict, left, beside⟩ := tryAmend_overtaken configuration
      contested (effective _ List.mem_cons_self) keepsName createMissing
    exact ⟨error, after, Step.bind_of_ok void, conflict, left, beside⟩
  | succ more ih =>
    intro progress record others contested effective many
    -- Someone is quicker once more, and what is left of the attempts and of the others goes on.
    obtain ⟨first, rest, rfl⟩ := List.exists_cons_of_length_pos (Nat.zero_lt_of_lt many)
    obtain ⟨_, middle, void, -, left, beside⟩ := tryAmend_overtaken configuration contested
      (effective _ List.mem_cons_self) keepsName createMissing
    obtain ⟨error, after, ran, conflict, last, later⟩ := @ih ⟨progress.operation, middle⟩ _ _ left
      (fun definition listed => effective _ (List.mem_cons_of_mem _ listed))
      (Nat.lt_of_succ_lt_succ many)
    rw [beside.now] at last
    exact ⟨error, after, (Step.bind_of_ok void).trans ran, conflict, last, beside.trans later⟩

/-- A change to a record succeeds exactly when those who overwrite the record meanwhile are no more
than the attempts that may be repeated. It is then made to what the last of them has left, so that
no one's work is lost; otherwise it ends in a conflict and has changed nothing. Other records stay
as they are in either case. -/
theorem amend_contested (contested : progress.state.Contested name record others)
    (effective : ∀ definition ∈ record.definition :: others, (change definition).2 = true)
    (keepsName : ∀ model, (change model).1.name = model.name) (createMissing : Bool) :
    ∃ outcome after, (rehearsing configuration).amend name createMissing change progress =
        (outcome, after) ∧ Beside progress.state after.state name ∧
      (others.length ≤ configuration.conflictRetries ∧ outcome = .ok () ∧
        after.operation = progress.operation.advance 1 ∧
        after.state.database.store.get name =
          .ok (some ((record.overwritten others progress.state.database.now).next
            (change (record.overwritten others progress.state.database.now).definition).1
            progress.state.database.now)) ∨
      configuration.conflictRetries < others.length ∧
        (∃ error, outcome = .error error ∧ error.kind = .conflict) ∧
        after.operation = progress.operation ∧
        after.state.database.store.get name =
          .ok (some (record.overwritten (others.take (configuration.conflictRetries + 1))
            progress.state.database.now))) := by
  rcases Nat.lt_or_ge configuration.conflictRetries others.length with many | few
  · obtain ⟨error, after, ran, conflict, left, beside⟩ := retrying_tryAmend_crowded configuration
      keepsName createMissing configuration.conflictRetries contested effective many
    exact ⟨_, _, ran, beside, Or.inr ⟨many, ⟨error, rfl, conflict⟩, rfl, left.stored⟩⟩
  · obtain ⟨after, ran, left, beside⟩ := retrying_tryAmend configuration keepsName createMissing
      others contested effective few
    exact ⟨_, _, ran, beside, Or.inl ⟨few, rfl, rfl, left.stored⟩⟩

/-- Two others store the post while it is marked, and it is marked as the second has left it. -/
example : ((rehearsing .standard).amend "Post" false
    (fun model => ({ model with fields := model.fields ++ [.ofScalar "marked" .boolean] }, true))
    ⟨(Journal.empty.begin "Post" .update).1,
      { database := .ofModels [⟨"Post", []⟩] 0
        disturbances := [.overwrite ⟨"Post", [.ofScalar "title" .text]⟩,
          .overwrite ⟨"Post", [.ofScalar "text" .text]⟩]
        effects := [] }⟩).2.state.database.store.get "Post" =
      .ok (some ⟨⟨"Post", [.ofScalar "text" .text, .ofScalar "marked" .boolean]⟩, 4, 0, 0⟩) := by
  decide +kernel

end Registry

end ModelCatalog
