import ModelCatalog.Proofs.Catalog
import ModelCatalog.Proofs.Outcome

/-! What a version guard shows: the accesses to a record since it was read. -/

namespace ModelCatalog

namespace Store

/-- Reading after a record was filed. -/
theorem get_insert (store : Store) (record : Record) (name : String) :
    get (store.insert (.intact record)) name =
      if record.name = name then .ok (some record) else store.get name := by
  -- The record is filed under its own name.
  have named : Named.name (Entry.intact record) = record.name := rfl
  by_cases here : record.name = name
  · rw [get, Roster.find?_insert, named, if_pos here, if_pos here]
    rfl
  · rw [get, Roster.find?_insert, named, if_neg here, if_neg here, get]

/-- Reading after a record was taken out. -/
theorem get_erase (store : Store) (gone name : String) :
    get (store.erase gone) name = if gone = name then .ok none else store.get name := by
  -- Only the entry of the one name goes.
  by_cases here : gone = name
  · rw [get, Roster.find?_erase, if_pos here, if_pos here]
  · rw [get, Roster.find?_erase, if_neg here, if_neg here, get]

end Store

namespace Expect

/-- A check passes when the record is in the expected state. -/
theorem check_eq_ok {expect : Expect} {model : String} {current : Option Record} :
    expect.check model current = .ok () ↔ expect.holds current = true := by
  -- The check is a comparison, and fails with an error of its own.
  unfold check
  split <;> simp_all

/-- A record is in an expected version when it is there and has that version. -/
theorem holds_version_iff {number : Nat} {current : Option Record} :
    (version number).holds current = true ↔ current.map Record.version = some number := by
  -- The guard asks for a record and compares its version.
  cases current <;> simp [holds]

end Expect

namespace Store

variable {store : Store} {definition : Model} {expect : Expect} {current : Option Record}

/-- A write whose guard holds files the successor of the record that is there. -/
theorem put_of_holds (read : store.get definition.name = .ok current)
    (holds : expect.holds current = true) (now : Nat) :
    store.put definition expect now = .ok (successor current definition now,
      store.insert (.intact (successor current definition now))) :=
  -- Reading and checking pass, and filing a record cannot fail.
  Outcome.bind_eq_ok.mpr ⟨current, read,
    Outcome.unit_bind_eq_ok.mpr ⟨Expect.check_eq_ok.mpr holds, rfl⟩⟩

/-- A write whose guard does not hold is a conflict. -/
theorem put_of_conflict (read : store.get definition.name = .ok current)
    (holds : expect.holds current = false) (now : Nat) :
    store.put definition expect now =
      .error (.conflict definition.name expect.text (Expect.found current)) := by
  -- The record is read, and the check that fails comes before anything is filed.
  have refused : expect.check definition.name current =
      .error (.conflict definition.name expect.text (Expect.found current)) := by
    rw [Expect.check, holds]
    rfl
  exact Outcome.bind_eq_error.mpr (.inr ⟨current, read, Outcome.bind_eq_error.mpr (.inl refused)⟩)

end Store

/-- A call by which a client changes a store. -/
inductive Access where
  | put (definition : Model) (expect : Expect) (now : Nat)
  | delete (name : String) (expect : Expect)
  deriving DecidableEq

namespace Access

/-- The name of the record that an access is about. -/
def subject : Access → String
  | put definition _ _ => definition.name
  | delete name _ => name

/-- The guard that an access is made under. -/
def guard : Access → Expect
  | put _ expect _ => expect
  | delete _ expect => expect

/-- The access takes the record away. -/
def isRemoval : Access → Bool
  | put _ _ _ => false
  | delete _ _ => true

/-- The store after an access, or why it was refused. -/
def run (store : Store) : Access → Except Error Store
  | put definition expect now => (store.put definition expect now).map Prod.snd
  | delete name expect => store.delete name expect

/-- The access is not refused. -/
def succeeds (store : Store) (access : Access) : Bool := (access.run store).isOk

/-- The store as an access leaves it: one that is refused changes nothing. -/
def leave (store : Store) (access : Access) : Store := (access.run store).toOption.getD store

/-- The record that a successful access leaves in the stead of the one before. -/
def outcome (current : Option Record) : Access → Option Record
  | put definition _ now => some (Store.successor current definition now)
  | delete _ _ => none

/-- The version that a successful access leaves in the stead of the one before. -/
def age (version : Option Nat) : Access → Option Nat
  | put _ _ _ => some (version.getD 0 + 1)
  | delete _ _ => none

end Access

namespace Store

/-- The store after accesses made one after the other, by whatever clients. -/
def after (store : Store) (accesses : List Access) : Store := accesses.foldl Access.leave store

/-- Those of the accesses, made one after the other, that are about a name and succeed. -/
def successes (store : Store) (name : String) : List Access → List Access
  | [] => []
  | first :: rest =>
    if first.subject = name ∧ first.succeeds store = true then
      first :: successes (first.leave store) name rest
    else successes (first.leave store) name rest

end Store

namespace Access

variable {store next : Store} {name : String} {current : Option Record} {access : Access}

/-! ## One access -/

/-- The outcome of an access is of the version that it leaves. -/
theorem version_outcome (current : Option Record) (access : Access) :
    (access.outcome current).map Record.version = access.age (current.map Record.version) := by
  -- A write counts one further from what was there, and a removal leaves nothing to count.
  cases access <;> cases current <;> rfl

/-- An access succeeds on a record that can be read and meets its guard, and leaves its outcome
under the name of the record and everything else as it was. -/
theorem run_eq_ok (done : access.run store = .ok next) :
    ∃ current, store.get access.subject = .ok current ∧ access.guard.holds current = true ∧
      ∀ name, next.get name =
        if access.subject = name then .ok (access.outcome current) else store.get name := by
  -- Both kinds of access read the record, check the guard and leave the rest alone.
  cases access with
  -- A record that is put is filed under the name of its definition.
  | put definition expect now =>
    obtain ⟨⟨record, filed⟩, written, rfl⟩ := Outcome.map_eq_ok.mp done
    obtain ⟨current, read, rest⟩ := Outcome.bind_eq_ok.mp written
    obtain ⟨passed, finished⟩ := Outcome.unit_bind_eq_ok.mp rest
    obtain ⟨rfl, rfl⟩ := Prod.mk.inj (Outcome.pure_eq_ok.mp finished)
    have named : (Store.successor current definition now).name = definition.name :=
      congrArg Model.name (Catalog.definition_successor current definition now)
    refine ⟨current, read, Expect.check_eq_ok.mp passed, fun name => ?_⟩
    rw [Store.get_insert, named]
    rfl
  -- One that is deleted is found under its name no more.
  | delete gone expect =>
    obtain ⟨current, read, rest⟩ := Outcome.bind_eq_ok.mp done
    obtain ⟨passed, finished⟩ := Outcome.unit_bind_eq_ok.mp rest
    obtain rfl := Outcome.pure_eq_ok.mp finished
    exact ⟨current, read, Expect.check_eq_ok.mp passed, Store.get_erase store gone⟩

/-- An access to a record that meets its guard is not refused. -/
theorem exists_run (read : store.get access.subject = .ok current)
    (holds : access.guard.holds current = true) : ∃ next, access.run store = .ok next := by
  -- The store is read and the guard passes, so nothing is left that could refuse the access.
  cases access with
  | put definition expect now =>
    exact ⟨_, congrArg (Except.map Prod.snd) (Store.put_of_holds read holds now)⟩
  | delete gone expect =>
    exact ⟨store.erase gone, Outcome.bind_eq_ok.mpr ⟨current, read,
      Outcome.unit_bind_eq_ok.mpr ⟨Expect.check_eq_ok.mpr holds, rfl⟩⟩⟩

/-- An access that has a result succeeds, and the result is what it leaves. -/
theorem of_run (done : access.run store = .ok next) :
    access.succeeds store = true ∧ access.leave store = next := by
  -- Both look at the result alone.
  simp [succeeds, leave, done, Except.isOk, Except.toBool, Except.toOption]

/-- An access that is refused leaves the store alone. -/
theorem leave_of_not_succeeds (refused : ¬access.succeeds store = true) :
    access.leave store = store := by
  -- An access with a result would have succeeded, so there is only an error to fall back from.
  cases done : access.run store with
  | error error => simp [leave, done, Except.toOption]
  | ok next => exact absurd (of_run done).1 refused

/-- An access succeeds exactly when the record it is about meets its guard. -/
theorem succeeds_iff (read : store.get access.subject = .ok current) :
    access.succeeds store = true ↔ access.guard.holds current = true := by
  -- The guard is the only thing that can refuse the access to a record that was read.
  constructor
  · intro succeeded
    cases done : access.run store with
    | error error => simp [succeeds, done, Except.isOk, Except.toBool] at succeeded
    | ok next =>
      obtain ⟨found, seen, holds, -⟩ := run_eq_ok done
      obtain rfl : found = current := Except.ok.inj (seen.symm.trans read)
      exact holds
  · intro holds
    obtain ⟨next, done⟩ := exists_run read holds
    exact (of_run done).1

/-- A record is left as its accesses that succeed leave it, and by all others as it was. -/
theorem get_leave (read : store.get name = .ok current) (access : Access) :
    Store.get (access.leave store) name =
      .ok (if access.subject = name ∧ access.succeeds store = true then access.outcome current
        else current) := by
  -- A refused access leaves every record, and one that is done changes the record it is about.
  cases done : access.run store with
  | error error =>
    have refused : ¬access.succeeds store = true := by
      simp [succeeds, done, Except.isOk, Except.toBool]
    rw [leave_of_not_succeeds refused, if_neg fun both => refused both.2, read]
  | ok next =>
    obtain ⟨succeeded, left⟩ := of_run done
    obtain ⟨found, seen, -, result⟩ := run_eq_ok done
    rw [left, result name]
    by_cases here : access.subject = name
    · obtain rfl : found = current := Except.ok.inj (seen.symm.trans (here ▸ read))
      rw [if_pos here, if_pos ⟨here, succeeded⟩]
    · rw [if_neg here, if_neg fun both => here both.1, read]

/-! ## Many accesses -/

/-- Writes raise the version by their number. -/
theorem foldl_age_of_writes {writes : List Access}
    (kept : ∀ write ∈ writes, write.isRemoval = false)
    (some_write : writes ≠ []) (version : Option Nat) :
    writes.foldl (fun version write => write.age version) version =
      some (version.getD 0 + writes.length) := by
  induction writes generalizing version with
  | nil => exact absurd rfl some_write
  | cons first rest ih =>
    -- The first write raises the version by one, whatever it was, and the others count from there.
    have head : first.age version = some (version.getD 0 + 1) := by
      cases first with
      | put definition expect now => rfl
      | delete gone expect => exact absurd (kept _ List.mem_cons_self) (by simp [isRemoval])
    rw [List.foldl_cons, head]
    by_cases last : rest = []
    · simp [last]
    · rw [ih (fun write later => kept write (List.mem_cons_of_mem _ later)) last]
      simp only [Option.getD_some, List.length_cons, Option.some.injEq]
      omega

/-- Accesses are writes only, or there is a last removal among them. -/
theorem writes_or_last_removal (accesses : List Access) :
    (∀ access ∈ accesses, access.isRemoval = false) ∨
      ∃ earlier removal writes, accesses = earlier ++ removal :: writes ∧
        removal.isRemoval = true ∧ ∀ write ∈ writes, write.isRemoval = false := by
  induction accesses with
  | nil => exact .inl (by simp)
  | cons first rest ih =>
    -- The removal that is last among the rest is last in all, and where there is none it is the
    -- first access itself or none.
    rcases ih with writes | ⟨earlier, removal, writes, rfl, removes, kept⟩
    · cases removes : first.isRemoval with
      | false => exact .inl (by simpa [removes] using writes)
      | true => exact .inr ⟨[], first, rest, rfl, removes, writes⟩
    · exact .inr ⟨first :: earlier, removal, writes, rfl, removes, kept⟩

/-- What follows a removal begins without a version. -/
theorem foldl_age_of_removal {removal : Access} (removes : removal.isRemoval = true)
    (earlier writes : List Access) (version : Option Nat) :
    (earlier ++ removal :: writes).foldl (fun version access => access.age version) version =
      writes.foldl (fun version access => access.age version) none := by
  rw [List.foldl_append, List.foldl_cons]
  -- A removal leaves no version, whatever came before it.
  cases removal with
  | put definition expect now => simp [isRemoval] at removes
  | delete gone expect => rfl

end Access

namespace Store

variable {store : Store} {name : String} {current : Option Record} {record : Record}

/-- After accesses, the version of a record is the one that the successful accesses to it leave. -/
theorem exists_get_after (read : store.get name = .ok current) (accesses : List Access) :
    ∃ final, get (store.after accesses) name = .ok final ∧
      final.map Record.version = (store.successes name accesses).foldl
        (fun version access => access.age version) (current.map Record.version) := by
  -- Each access leaves the record in a state that can be read, where the next one begins.
  induction accesses generalizing store current with
  | nil => exact ⟨current, read, rfl⟩
  | cons first rest ih =>
    obtain ⟨final, reached, aged⟩ := ih (Access.get_leave read first)
    refine ⟨final, reached, aged.trans ?_⟩
    rw [successes]
    split
    · rw [List.foldl_cons, Access.version_outcome]
    · rfl

/-- An access under the guard of the version that a record was read in succeeds after other
accesses exactly when none of these was a successful one to the record, or when it was removed
and, since the last removal, written as many times as the version says. -/
theorem guarded_succeeds_iff {access : Access} (read : store.get access.subject = .ok (some record))
    (guarded : access.guard = .version record.version) (between : List Access) :
    access.succeeds (store.after between) = true ↔
      store.successes access.subject between = [] ∨
        ∃ earlier removal writes,
          store.successes access.subject between = earlier ++ removal :: writes ∧
            removal.isRemoval = true ∧ (∀ write ∈ writes, write.isRemoval = false) ∧
            writes ≠ [] ∧ writes.length = record.version := by
  obtain ⟨final, reached, aged⟩ := exists_get_after read between
  -- The guard holds when the version afterwards is the one that was read, which is counted from the
  -- successful accesses.
  rw [Access.succeeds_iff reached, guarded, Expect.holds_version_iff, aged]
  constructor
  · intro shown
    rcases Access.writes_or_last_removal (store.successes access.subject between) with
      kept | ⟨earlier, removal, writes, whole, removes, kept⟩
    · -- Writes alone would have raised the version.
      by_contra made
      have some_write := fun none => made (Or.inl none)
      rw [Access.foldl_age_of_writes kept some_write] at shown
      have unwritten : (store.successes access.subject between).length = 0 := by simpa using shown
      exact some_write (List.length_eq_zero_iff.mp unwritten)
    · -- The version counts from the last removal, so there was a write behind it.
      rw [whole, Access.foldl_age_of_removal removes] at shown
      have some_write : writes ≠ [] := by
        rintro rfl
        simp at shown
      rw [Access.foldl_age_of_writes kept some_write] at shown
      exact .inr ⟨earlier, removal, writes, whole, removes, kept, some_write, by simpa using shown⟩
  · -- Nothing has touched the record, or as many writes as its version says have followed a
    -- removal.
    rintro (none | ⟨earlier, removal, writes, whole, removes, kept, some_write, counted⟩)
    · rw [none]
      rfl
    · rw [whole, Access.foldl_age_of_removal removes, Access.foldl_age_of_writes kept some_write,
        counted]
      simp

/-- A store with the first version of a model. -/
def posted : Store := after ∅ [.put ⟨"Post", []⟩ .absent 0]

/-- The model is removed and written anew. -/
def reposting : List Access := [.delete "Post" (.version 1), .put ⟨"Post", []⟩ .absent 0]

/-- A write by a client that has read the first version. -/
def latePost : Access := .put ⟨"Post", []⟩ (.version 1) 0

/-- The late write succeeds under its guard: the model was removed and written once since, as many
times as the version says. -/
theorem guarded_succeeds_reposted :
    posted.get latePost.subject = .ok (some (.first ⟨"Post", []⟩ 0)) ∧
      latePost.succeeds (posted.after reposting) = true :=
  -- The store is read once, and the accesses split at the removal.
  have read : posted.get latePost.subject = .ok (some (.first ⟨"Post", []⟩ 0)) := by
    decide +kernel
  ⟨read, (guarded_succeeds_iff read rfl reposting).mpr (.inr
    ⟨[], .delete "Post" (.version 1), [.put ⟨"Post", []⟩ .absent 0], by decide +kernel, rfl,
      by decide, by decide, rfl⟩)⟩

/-- A model that is removed and written anew is taken for the one that was read: the version
guard alone does not tell that there were successful accesses in between. -/
theorem guarded_succeeds_after_accesses :
    ¬∀ (store : Store) (record : Record) (access : Access) (between : List Access),
      store.get access.subject = .ok (some record) → access.guard = .version record.version →
        access.succeeds (store.after between) = true →
          store.successes access.subject between = [] := by
  -- The late write would have to be the first to succeed, but a removal and a write came before.
  intro alone
  have none : posted.successes latePost.subject reposting = [] :=
    alone posted (.first ⟨"Post", []⟩ 0) latePost reposting (by decide +kernel) rfl
      (by decide +kernel)
  exact absurd none (by decide +kernel)

end Store

end ModelCatalog
