import ModelCatalog.Proofs.WriteRun

/-! Tallies: work under way counts the statements it applies and the records it changes. -/

namespace ModelCatalog

open InProgress

/-! ## Differences of stores -/

namespace Store

variable {before after : Store}

/-- The names under which two stores hold different entries, each once. -/
def differing (before after : Store) : List String :=
  (Roster.ofList (before.names ++ after.names) : NameSet).members.filter fun name =>
    before.find? name != after.find? name

/-- The names that differ are those under which something else is found. -/
theorem mem_differing {name : String} :
    name ∈ before.differing after ↔ before.find? name ≠ after.find? name := by
  -- Where nothing is filed on either side, nothing differs.
  have filed : ∀ store : Store, (store.find? name).isSome = true → name ∈ store.names := by
    intro store present
    obtain ⟨entry, found⟩ := Option.isSome_iff_exists.mp present
    exact List.mem_map.mpr ⟨entry, Roster.mem_of_find? found, Roster.name_of_find? found⟩
  rw [differing, List.mem_filter, Roster.mem_members_iff, Roster.contains_ofList, List.mem_append,
    bne_iff_ne, and_iff_right_iff_imp]
  intro differ
  cases here : before.find? name with
  | some entry => exact Or.inl (filed before (by rw [here]; rfl))
  | none =>
    refine Or.inr (filed after (Option.isSome_iff_ne_none.mpr fun missing => differ ?_))
    rw [here, missing]

/-- As many names differ as there are in any list of those that do. -/
theorem length_differing {names : List String} (distinct : names.Nodup)
    (exact : ∀ name, name ∈ names ↔ before.find? name ≠ after.find? name) :
    (before.differing after).length = names.length := by
  -- Two lists without repetitions that have the same members are equally long.
  have once : (before.differing after).Nodup := by
    have ordered := Roster.names_nodup (Roster.ofList (before.names ++ after.names) : NameSet)
    rw [show (Named.name : String → String) = id from rfl, List.map_id] at ordered
    exact ordered.filter _
  exact ((List.perm_ext_iff_of_nodup once distinct).mpr fun name =>
    mem_differing.trans (exact name).symm).length_eq

end Store

/-! ## Errors of work under way -/

/-- The class is one of mistakes in the call itself, which are found before anything is begun. -/
def ErrorKind.isMistake : ErrorKind → Bool
  | invalidIdentifier | unsupportedType | targetNotFound | invalidDefinition | notFound => true
  | _ => false

namespace Error

/-- The error can stop work that is under way: it does not tell of effects, and it is no mistake in
the call. -/
structure Interrupts (error : Error) : Prop where
  whole : error.isPartial = false
  unmistaken : error.kind.isMistake = false

/-- The error of a failed batch can stop work that is under way. -/
theorem interrupts_ofBatch (model : String) (first : Statement) (rest : List Statement)
    (failure : StatementFailure) : (ofBatch model first rest failure).Interrupts := by
  -- Neither of the two errors is a mistake in the call.
  refine ⟨isPartial_ofBatch model first rest failure, ?_⟩
  unfold ofBatch ofStatement
  split <;> rfl

end Error

namespace Store

variable {store next : Store} {name : String} {error : Error}

/-- A record that cannot be read stops work that is under way. -/
theorem interrupts_get (failed : store.get name = .error error) : error.Interrupts := by
  -- Only a damaged entry makes reading fail, and its error blames the storage.
  unfold get at failed
  split at failed
  · rename_i entry found
    cases entry with
    | intact record => cases failed
    | damaged damagedName =>
      cases failed
      exact ⟨rfl, rfl⟩
  · cases failed

/-- A record that is not in the expected state stops work that is under way. -/
theorem interrupts_check {expect : Expect} {model : String} {current : Option Record}
    (failed : expect.check model current = .error error) : error.Interrupts := by
  -- What fails here is a conflict, which is neither a mistake nor told of in steps.
  unfold Expect.check at failed
  split at failed
  · cases failed
  · cases failed
    exact ⟨rfl, rfl⟩

/-- What is read under a name is the record filed there, if there is one. -/
theorem find?_of_get {current : Option Record} (read : store.get name = .ok current) :
    store.find? name = current.map Entry.intact := by
  -- An entry that was read is intact, and where nothing was read nothing is filed.
  unfold get at read
  split at read
  · rename_i entry found
    cases entry with
    | intact record =>
      cases read
      exact found
    | damaged damagedName => cases read
  · rename_i missing
    cases read
    exact missing

/-- A write changes what is filed under the name of the definition, and nothing else. -/
theorem changes_of_put {definition : Model} {expect : Expect} {now : Nat} {record : Record}
    (wrote : store.put definition expect now = .ok (record, next)) (name : String) :
    name ∈ [definition.name] ↔ store.find? name ≠ next.find? name := by
  -- A write reads the record, checks the guard and files the successor under its own name.
  obtain ⟨current, read, wrote⟩ := Outcome.bind_eq_ok.mp wrote
  obtain ⟨-, -, wrote⟩ := Outcome.bind_eq_ok.mp wrote
  cases wrote
  have own : Named.name (Entry.intact (successor current definition now)) = definition.name :=
    congrArg Model.name (Catalog.definition_successor current definition now)
  rw [List.mem_singleton, Roster.find?_insert, own]
  constructor
  · -- The version that was written is none that was there before.
    rintro rfl same
    rw [if_pos rfl, find?_of_get read] at same
    cases current with
    | none => cases same
    | some record =>
      simp only [Option.map_some, Option.some.injEq, Entry.intact.injEq] at same
      have versions := congrArg Record.version same
      exact absurd versions (Nat.ne_of_lt (Nat.lt_succ_self record.version))
  · -- Under every other name the same is found as before.
    intro differ
    by_contra other
    exact differ (by rw [if_neg (Ne.symm other)])

/-- A removal takes away what is filed under the name, and nothing else. -/
theorem changes_of_delete {version : Nat} (gone : store.delete name (.version version) = .ok next)
    (other : String) : other ∈ [name] ↔ store.find? other ≠ next.find? other := by
  -- A removal reads the record, checks the guard and erases what is filed under the name.
  obtain ⟨current, read, gone⟩ := Outcome.bind_eq_ok.mp gone
  obtain ⟨⟨⟩, guarded, gone⟩ := Outcome.bind_eq_ok.mp gone
  cases gone
  rw [List.mem_singleton, Roster.find?_erase]
  constructor
  · -- The guard asks for a version, so there is a record to take away.
    rintro rfl same
    rw [if_pos rfl, find?_of_get read] at same
    cases current with
    | none => cases guarded
    | some record => cases same
  · -- Under every other name the same is found as before.
    intro differ
    by_contra apart
    exact differ (by rw [if_neg (Ne.symm apart)])

/-- A write fails without effect, for a reason that stops work under way. -/
theorem interrupts_put {definition : Model} {expect : Expect} {now : Nat}
    (failed : store.put definition expect now = .error error) : error.Interrupts := by
  -- Either the reading fails or the guard does; filing a record never does.
  rcases Outcome.bind_eq_error.mp failed with unread | ⟨current, -, failed⟩
  · exact interrupts_get unread
  · rcases Outcome.bind_eq_error.mp failed with unguarded | ⟨-, -, passed⟩
    · exact interrupts_check unguarded
    · cases passed

/-- A removal fails without effect, for a reason that stops work under way. -/
theorem interrupts_delete {expect : Expect} (failed : store.delete name expect = .error error) :
    error.Interrupts := by
  -- As for a write, only the reading and the guard can fail.
  rcases Outcome.bind_eq_error.mp failed with unread | ⟨current, -, failed⟩
  · exact interrupts_get unread
  · rcases Outcome.bind_eq_error.mp failed with unguarded | ⟨-, -, passed⟩
    · exact interrupts_check unguarded
    · cases passed

end Store

/-! ## Batches of the recording executor -/

namespace Recorder

/-- A statement that is refused is one of those asked about. -/
theorem index_of_consult {batch : List String} {rules left : List FailureRule}
    {start index : Nat} {failure : StatementFailure}
    (refused : consult start batch rules = (some (index, failure), left)) :
    start ≤ index ∧ index < start + batch.length := by
  -- The rules change from one question to the next, so the induction leaves them open.
  induction batch generalizing start rules with
  | nil => cases refused
  | cons sql rest ih =>
    unfold consult at refused
    split at refused
    · -- The first statement is refused, where the asking begins.
      cases refused
      exact ⟨Nat.le_refl _, by simp⟩
    · -- The first one passes, and the asking goes on one further.
      have later := ih refused
      rw [List.length_cons]
      omega

/-- A batch takes effect as a whole, or as far as the registry will count it: up to the statement
that was refused, and in a transaction not at all. -/
theorem executeBatch_cases (batch : List String) (recorder : Recorder) :
    ((recorder.executeBatch batch).1 = .ok () ∧
      (recorder.executeBatch batch).2.applied = recorder.applied ++ batch) ∨
    ∃ failure, (recorder.executeBatch batch).1 = .error failure ∧
      failedIndex failure ≤ batch.length ∧
      (recorder.executeBatch batch).2.applied = recorder.applied ++
        if recorder.transactional then [] else batch.take (failedIndex failure) := by
  unfold executeBatch
  -- The rules are consulted first, and they refuse at most one statement.
  cases consulted : consult 0 batch recorder.rules with
  | mk refused rules =>
    cases refused with
    | none => exact Or.inl ⟨rfl, rfl⟩
    | some pair =>
      obtain ⟨index, failure⟩ := pair
      -- The index in the failure is the one that was found, whatever the executor reported.
      have bound := (index_of_consult consulted).2
      rw [Nat.zero_add] at bound
      refine Or.inr ⟨.inBatch index failure, rfl, Nat.le_of_lt bound, ?_⟩
      cases transactional : recorder.transactional with
      | true => simp only [reduceIte, List.append_nil]
      | false =>
        simp only [Bool.false_eq_true, reduceIte]
        rfl

end Recorder

/-- The recording executor reports what it has applied. -/
theorem Executor.honest_recording : Executor.recording.Honest := by
  -- A batch that passes is applied whole, and one that fails up to the statement it reports.
  refine ⟨fun statements recorder passed => ?_, fun statements recorder failure refused => ?_⟩
  · rcases Recorder.executeBatch_cases (statements.map Statement.sql) recorder with
      ⟨-, applied⟩ | ⟨failure, refused, -⟩
    · exact applied
    · cases passed.symm.trans refused
  · rcases Recorder.executeBatch_cases (statements.map Statement.sql) recorder with
      ⟨passed, -⟩ | ⟨other, same, bound, applied⟩
    · cases passed.symm.trans refused
    · cases same.symm.trans refused
      exact ⟨by simpa using bound, applied⟩

/-! ## Work that counts what it does -/

namespace InProgress

variable {α β : Type} {before middle after : InProgress Database}

/-- Between two moments of an operation these statements took effect and the records of these names
changed, and the operation has counted each of them. -/
structure Counts (before after : InProgress Database) (sql written : List String) : Prop where
  applied : after.state.recorder.applied = before.state.recorder.applied ++ sql
  steps : after.operation.completedSteps =
    before.operation.completedSteps + (sql.length + written.length)
  distinct : written.Nodup
  changed : ∀ name,
    name ∈ written ↔ before.state.store.find? name ≠ after.state.store.find? name

/-- Where nothing has happened nothing is counted. -/
theorem Counts.refl (progress : InProgress Database) : Counts progress progress [] [] :=
  -- No statement and no record is added.
  ⟨by simp, rfl, List.nodup_nil, by simp⟩

/-- What is counted in two stretches is counted in both together, when no record changes twice. -/
theorem Counts.trans {sql more written others : List String}
    (first : Counts before middle sql written) (second : Counts middle after more others)
    (apart : written.Disjoint others) : Counts before after (sql ++ more) (written ++ others) := by
  refine ⟨?_, ?_, first.distinct.append second.distinct apart, fun name => ?_⟩
  · rw [second.applied, first.applied, List.append_assoc]
  · rw [second.steps, first.steps, List.length_append, List.length_append]
    omega
  · -- A record that changes in one stretch is left alone in the other.
    have early := first.changed name
    have late := second.changed name
    rw [List.mem_append, early, late]
    constructor
    · rintro (differ | differ)
      · -- The second stretch has not come near a record that the first one changed.
        have kept : middle.state.store.find? name = after.state.store.find? name := by
          by_contra changed
          exact apart (early.mpr differ) (late.mpr changed)
        rwa [← kept]
      · have kept : before.state.store.find? name = middle.state.store.find? name := by
          by_contra changed
          exact apart (early.mpr changed) (late.mpr differ)
        rwa [kept]
    · intro differ
      by_contra same
      rw [not_or, not_not, not_not] at same
      exact differ (same.1.trans same.2)

/-- Everything done on the way to an outcome is counted: statements, and records that bear some of
these names. What ended it, if anything did, can stop work under way. -/
def CountedTo (within : List String) (progress : InProgress Database)
    (outcome : Except Error α × InProgress Database) : Prop :=
  ∃ sql written, Counts progress outcome.2 sql written ∧ written ⊆ within ∧
    ∀ error, outcome.1 = .error error → error.Interrupts

/-- What succeeds is counted when what it did is. -/
theorem CountedTo.ok {within written sql : List String} {value : α}
    (counts : Counts before after sql written) (inside : written ⊆ within) :
    CountedTo within before (Except.ok value, after) :=
  -- There is no error that could not have stopped the work.
  ⟨sql, written, counts, inside, fun error failed => by cases failed⟩

/-- What stops without effect is counted. -/
theorem CountedTo.error {error : Error} (interrupts : error.Interrupts) (within : List String)
    (progress : InProgress Database) :
    CountedTo within progress ((.error error, progress) : Except Error α × InProgress Database) :=
  ⟨[], [], Counts.refl progress, List.nil_subset _, fun other failed => by
    cases failed
    exact interrupts⟩

/-- The work counts whatever it does, wherever it begins. -/
def Counted (within : List String) (work : Step (InProgress Database) α) : Prop :=
  ∀ progress, CountedTo within progress (work progress)

namespace Counted

variable {within others : List String} {work : Step (InProgress Database) α}
  {next : α → Step (InProgress Database) β}

/-- Work that neither fails nor touches what is counted. -/
theorem quiet (succeeds : ∀ progress error, (work progress).1 ≠ .error error)
    (keeps : ∀ progress, (work progress).2.state.store = progress.state.store ∧
      (work progress).2.state.recorder = progress.state.recorder ∧
      (work progress).2.operation.completedSteps = progress.operation.completedSteps) :
    Counted [] work := by
  intro progress
  -- The work leaves the three things that counting compares.
  obtain ⟨store, recorder, steps⟩ := keeps progress
  refine ⟨[], [], ⟨by simp [recorder], by simp [steps], List.nodup_nil, by simp [store]⟩,
    List.Subset.refl _, fun error failed => absurd failed (succeeds progress error)⟩

/-- Work without effects. -/
theorem pure (value : α) : Counted [] (Pure.pure value : Step (InProgress Database) α) := by
  -- A value that is there at once changes nothing.
  refine quiet (fun progress error failed => ?_) fun progress => ⟨rfl, rfl, rfl⟩
  cases failed

/-- Work that may change the records of more names. -/
theorem mono (counted : Counted within work) (wider : within ⊆ others) : Counted others work := by
  intro progress
  -- What was written is written still, within more names.
  obtain ⟨sql, written, counts, inside, stops⟩ := counted progress
  exact ⟨sql, written, counts, fun _ listed => wider (inside listed), stops⟩

/-- Work after work, when no record is changed in both. -/
theorem bind (first : Counted within work) (second : ∀ value, Counted others (next value))
    (apart : within.Disjoint others) : Counted (within ++ others) (work >>= next) := by
  -- Whether the second part is reached depends on how the first one ends.
  intro progress
  obtain ⟨sql, written, counts, inside, stops⟩ := first progress
  cases done : work progress with
  | mk result middle =>
    rw [done] at counts stops
    cases result with
    -- The work ends here, with what the first part has counted.
    | error error =>
      rw [Step.bind_of_error done]
      refine ⟨sql, written, counts, fun name listed => ?_, fun other failed => ?_⟩
      · exact List.mem_append_left _ (inside listed)
      · cases failed
        exact stops error rfl
    -- The second part begins in the middle, where the first one left the count.
    | ok value =>
      rw [Step.bind_of_ok done]
      obtain ⟨more, further, later, beyond, ends⟩ := second value middle
      refine ⟨sql ++ more, written ++ further, counts.trans later ?_, ?_, ends⟩
      · exact fun name one other => apart (inside one) (beyond other)
      · exact List.append_subset.mpr ⟨fun name listed => List.mem_append_left _ (inside listed),
          fun name listed => List.mem_append_right _ (beyond listed)⟩

/-- Work after work that changes no record. -/
theorem bind_nil (first : Counted [] work) (second : ∀ value, Counted others (next value)) :
    Counted others (work >>= next) := first.bind second (List.disjoint_nil_left _)

end Counted

/-! ## Single steps -/

variable {executor : Executor}

/-- Bringing an operation into another status is not counted. -/
theorem setStatus_counted (status : OperationStatus) :
    Counted [] (setStatus (Database.backendWith executor) status) := by
  -- The status is no part of the count.
  refine .quiet (fun progress error failed => ?_) fun progress => ⟨rfl, rfl, rfl⟩
  cases failed

/-- Of a batch the statements are counted that took effect. -/
theorem runBatch_counted (honest : executor.Honest) (model : String)
    (statements : List Statement) :
    Counted [] (runBatch (Database.backendWith executor) model statements) := by
  cases statements with
  | nil => exact Counted.pure ()
  | cons first rest =>
    intro progress
    -- A batch leaves every record where it is, whatever becomes of it.
    have unchanged : ∀ name, name ∈ ([] : List String) ↔
        progress.state.store.find? name ≠ progress.state.store.find? name := by simp
    have executed : (Database.backendWith executor).executeBatch (first :: rest) progress.state =
        ((executor.run (first :: rest) progress.state.recorder).1,
          { progress.state with
            recorder := (executor.run (first :: rest) progress.state.recorder).2 }) := rfl
    cases outcome : (executor.run (first :: rest) progress.state.recorder).1 with
    | ok passed =>
      have applied := honest.applied (first :: rest) progress.state.recorder outcome
      rw [outcome] at executed
      rw [runBatch_of_ok model executed]
      refine .ok ⟨applied, ?_, List.nodup_nil, unchanged⟩ (List.nil_subset _)
      exact congrArg (progress.operation.completedSteps + ·) (List.length_map _).symm
    | error failure =>
      obtain ⟨bound, applied⟩ :=
        honest.stopped (first :: rest) progress.state.recorder failure outcome
      rw [outcome] at executed
      rw [runBatch_of_error model executed]
      refine ⟨_, [], ⟨applied, ?_, List.nodup_nil, unchanged⟩, List.nil_subset _, ?_⟩
      · -- A transaction counts nothing, and without one the statements before the refused one.
        have transacts : (Database.backendWith executor).isTransactional progress.state =
            executor.isTransactional progress.state.recorder := rfl
        dsimp only
        rw [transacts]
        cases executor.isTransactional progress.state.recorder with
        | true => rfl
        | false =>
          simp only [Bool.false_eq_true, reduceIte, List.length_take, List.length_map,
            Nat.min_eq_left bound]
          rfl
      · intro error failed
        cases failed
        exact Error.interrupts_ofBatch _ _ _ _

/-- Reading a record is not counted. -/
theorem lift_get_counted (name : String) :
    Counted [] (lift ((Database.backendWith executor).get name)) := by
  -- Reading changes nothing, and the error of a damaged record can stop the work.
  intro progress
  exact ⟨[], [], Counts.refl progress, List.Subset.refl _,
    fun error failed => Store.interrupts_get failed⟩

/-- A write either fails without effect, or it changes one record. -/
theorem lift_put_cases (definition : Model) (expect : Expect) (progress : InProgress Database) :
    (∃ error, lift ((Database.backendWith executor).put definition expect) progress =
        (.error error, progress) ∧ error.Interrupts) ∨
    ∃ record state, lift ((Database.backendWith executor).put definition expect) progress =
        (.ok record, { progress with state := state }) ∧
      Counts progress ⟨progress.operation.advance 1, state⟩ [] [definition.name] := by
  -- The step is opened once, so that the store decides both the outcome and the state.
  have isPut : lift ((Database.backendWith executor).put definition expect) progress =
      ((Database.put definition expect progress.state).1,
        { progress with state := (Database.put definition expect progress.state).2 }) := rfl
  rw [isPut, Database.put]
  cases wrote : progress.state.store.put definition expect progress.state.now with
  | error error => exact Or.inl ⟨error, rfl, Store.interrupts_put wrote⟩
  | ok pair =>
    obtain ⟨record, store⟩ := pair
    exact Or.inr ⟨record, { progress.state with store := store }, rfl, by simp, rfl,
      List.nodup_singleton _, Store.changes_of_put wrote⟩

/-- A removal either fails without effect, or it changes one record. -/
theorem lift_delete_cases (name : String) (version : Nat) (progress : InProgress Database) :
    (∃ error, lift ((Database.backendWith executor).delete name (.version version)) progress =
        (.error error, progress) ∧ error.Interrupts) ∨
    ∃ state, lift ((Database.backendWith executor).delete name (.version version)) progress =
        (.ok (), { progress with state := state }) ∧
      Counts progress ⟨progress.operation.advance 1, state⟩ [] [name] := by
  -- As for a write, the store decides both the outcome and the state.
  have isDelete : lift ((Database.backendWith executor).delete name (.version version)) progress =
      ((Database.delete name (.version version) progress.state).1,
        { progress with
          state := (Database.delete name (.version version) progress.state).2 }) := rfl
  rw [isDelete, Database.delete]
  cases gone : progress.state.store.delete name (.version version) with
  | error error => exact Or.inl ⟨error, rfl, Store.interrupts_delete gone⟩
  | ok store =>
    exact Or.inr ⟨{ progress.state with store := store }, rfl, by simp, rfl,
      List.nodup_singleton _, Store.changes_of_delete gone⟩

end InProgress

end ModelCatalog
