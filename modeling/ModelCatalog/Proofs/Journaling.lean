import ModelCatalog.Proofs.Accounting
import ModelCatalog.Proofs.ServiceInvariants

/-! Journaling: where the entry of an operation stands while it is under way, and what becomes of
it when the operation ends. -/

namespace ModelCatalog

open InProgress

/-! ## Entries in order -/

namespace Journal

variable {earlier : List Operation} {operation last : Operation}

/-- All entries are of operations that have begun: the next number is greater than theirs. -/
def Numbered (journal : Journal) : Prop := ∀ entry ∈ journal.entries, entry.id < journal.nextId

/-- An entry has its place behind those of smaller numbers. -/
theorem place_append (behind : ∀ entry ∈ earlier, entry.id < operation.id)
    (later : List Operation) :
    place operation (earlier ++ later) = earlier ++ place operation later := by
  -- Each entry of a smaller number stands before the new one, which goes further back.
  induction earlier with
  | nil => rfl
  | cons first rest ih =>
    have before : first.id < operation.id := behind first List.mem_cons_self
    rw [List.cons_append, place, if_neg (Nat.lt_asymm before), if_pos before,
      ih fun entry listed => behind entry (List.mem_cons_of_mem _ listed), List.cons_append]

/-- The last entry is saved in the stead of its earlier state. -/
theorem place_last (behind : ∀ entry ∈ earlier, entry.id < operation.id)
    (same : last.id = operation.id) :
    place operation (earlier ++ [last]) = earlier ++ [operation] := by
  -- The entries in front have smaller numbers and are passed over, and the last one has this
  -- number.
  rw [place_append behind, place, same, if_neg (Nat.lt_irrefl _), if_neg (Nat.lt_irrefl _)]

/-- When the last entry is removed those before it stay. -/
theorem filter_last {id : Nat} (behind : ∀ entry ∈ earlier, entry.id < id) (same : last.id = id) :
    (earlier ++ [last]).filter (fun entry => entry.id != id) = earlier := by
  -- No entry before the last has its number.
  have kept : earlier.filter (fun entry => entry.id != id) = earlier := by
    rw [List.filter_eq_self]
    intro entry listed
    simpa using Nat.ne_of_lt (behind entry listed)
  rw [List.filter_append, kept]
  simp [same]

/-- When all entries but the last are removed it stays alone. -/
theorem filter_others {id : Nat} (behind : ∀ entry ∈ earlier, entry.id < id) (same : last.id = id) :
    (earlier ++ [last]).filter (fun entry => some id == some entry.id) = [last] := by
  -- The entries in front have smaller numbers, so none of them is kept.
  have gone : earlier.filter (fun entry => some id == some entry.id) = [] := by
    rw [List.filter_eq_nil_iff]
    intro entry listed
    simpa using Nat.ne_of_gt (behind entry listed)
  rw [List.filter_append, gone]
  simp [same]

end Journal

/-! ## The entry of an operation under way -/

namespace InProgress

variable {executor : Executor} {configuration : Configuration} {begun : Operation}
  {past : List Operation} {progress : InProgress Database} {source : String}

/-- The operation that has begun is under way, and its entry is the last in the journal, behind
those of the past. -/
structure Tracks (begun : Operation) (past : List Operation) (progress : InProgress Database) :
    Prop where
  id : progress.operation.id = begun.id
  model : progress.operation.model = begun.model
  kind : progress.operation.kind = begun.kind
  next : progress.state.journal.nextId = begun.id + 1
  behind : ∀ entry ∈ past, entry.id < begun.id
  last : ∃ entry, progress.state.journal.entries = past ++ [entry] ∧ entry.id = begun.id

/-- The step keeps track of the operation, however it ends. -/
abbrev KeepsTrack {α : Type} (step : Step (InProgress Database) α) : Prop :=
  ∀ begun past, step.Ensures (Tracks begun past) (Tracks begun past) (Tracks begun past)

/-- The operation is saved in the stead of its last state. -/
theorem Tracks.entries_save (tracks : Tracks begun past progress) (executor : Executor) :
    ((Database.backendWith executor).save progress.operation progress.state).journal.entries =
      past ++ [progress.operation] := by
  -- The entry is the last one, and saving finds it by its number.
  obtain ⟨entry, entries, same⟩ := tracks.last
  show Journal.place progress.operation progress.state.journal.entries = _
  rw [entries, Journal.place_last (fun other listed => tracks.id ▸ tracks.behind other listed)
    (same.trans tracks.id.symm)]

/-- Saving the operation keeps track of it. -/
theorem Tracks.save (tracks : Tracks begun past progress) :
    Tracks begun past { progress with
      state := (Database.backendWith executor).save progress.operation progress.state } :=
  -- Nothing but the journal is changed, where the operation is now the last entry.
  ⟨tracks.id, tracks.model, tracks.kind, tracks.next, tracks.behind, progress.operation,
    tracks.entries_save executor, tracks.id⟩

/-- The operation is tracked wherever the journal is the same and it is still that operation. -/
theorem Tracks.of_same {after : InProgress Database} (tracks : Tracks begun past progress)
    (journal : after.state.journal = progress.state.journal)
    (id : after.operation.id = progress.operation.id)
    (model : after.operation.model = progress.operation.model)
    (kind : after.operation.kind = progress.operation.kind) : Tracks begun past after where
  -- The numbers of what is past are no part of the new state.
  id := id.trans tracks.id
  model := model.trans tracks.model
  kind := kind.trans tracks.kind
  next := journal ▸ tracks.next
  behind := tracks.behind
  last := journal ▸ tracks.last

/-- A step that leaves the journal alone keeps track of the operation. -/
theorem lift_keepsTrack {α : Type} {step : Step Database α}
    (apart : ∀ database, (step database).2.journal = database.journal) : KeepsTrack (lift step) :=
  -- Lifting a step leaves the operation to itself.
  fun _ _ => .of_keeps fun progress tracks =>
    tracks.of_same (apart progress.state) rfl rfl rfl

/-- Counting steps keeps track of the operation. -/
theorem advance_keepsTrack (steps : Nat) : KeepsTrack (advance steps) :=
  -- The count is none of the things by which an operation is tracked.
  fun _ _ _ tracks => tracks.of_same rfl rfl rfl rfl

/-- Saving the operation keeps track of it. -/
theorem save_keepsTrack : KeepsTrack (save (Database.backendWith executor)) :=
  fun _ _ _ tracks => tracks.save

/-- Bringing the operation into another status keeps track of it. -/
theorem setStatus_keepsTrack (status : OperationStatus) :
    KeepsTrack (setStatus (Database.backendWith executor) status) := by
  intro begun past
  -- The status is no part of what is tracked.
  refine .bind (fun progress tracks => ?_) fun _ => save_keepsTrack begun past
  exact tracks.of_same rfl rfl rfl rfl

/-- A batch keeps track of the operation, whether it is applied or refused. -/
theorem runBatch_keepsTrack (model : String) (statements : List Statement) :
    KeepsTrack (runBatch (Database.backendWith executor) model statements) := by
  intro begun past
  -- Without statements nothing is run.
  cases statements with
  | nil => exact .pure ()
  | cons first rest =>
    refine .of_keeps fun progress tracks => ?_
    -- The executor changes nothing but its recorder.
    cases outcome : executor.run (first :: rest) progress.state.recorder with
    | mk result recorder =>
      have executed : (Database.backendWith executor).executeBatch (first :: rest)
          progress.state = (result, { progress.state with recorder := recorder }) := by
        simp only [Database.backendWith, outcome]
      cases result with
      | ok value =>
        rw [runBatch_of_ok model executed]
        have counted : Tracks begun past
            { operation := progress.operation.advance (first :: rest).length
              state := { progress.state with recorder := recorder } } :=
          tracks.of_same rfl rfl rfl rfl
        exact counted.save
      | error failure =>
        -- What a refused batch has applied is counted, but not saved.
        rw [runBatch_of_error model executed]
        refine tracks.of_same rfl ?_ ?_ ?_ <;> dsimp only <;> split <;> rfl

/-! ## Operations -/

/-- A write of a record leaves the journal alone. -/
theorem put_keepsTrack (definition : Model) (expect : Expect) :
    KeepsTrack (lift ((Database.backendWith executor).put definition expect)) := by
  -- A write changes the store, or it fails and changes nothing.
  refine lift_keepsTrack fun database => ?_
  show (Database.put definition expect database).2.journal = _
  unfold Database.put
  split <;> rfl

/-- A removal of a record leaves the journal alone. -/
theorem delete_keepsTrack (name : String) (expect : Expect) :
    KeepsTrack (lift ((Database.backendWith executor).delete name expect)) := by
  -- A removal changes the store, or it fails and changes nothing.
  refine lift_keepsTrack fun database => ?_
  show (Database.delete name expect database).2.journal = _
  unfold Database.delete
  split <;> rfl

/-- Whatever an operation does with the services of a database keeps track of it. -/
theorem kept_tracks (executor : Executor) (begun : Operation) (past : List Operation) :
    Kept (Database.backendWith executor) (Tracks begun past) where
  -- Each service changes the store, the recorder or the own entry of the operation.
  get := fun _ => lift_keepsTrack (fun _ => rfl) begun past
  put := fun definition expect => put_keepsTrack definition expect begun past
  delete := fun name expect => delete_keepsTrack name expect begun past
  flush := lift_keepsTrack (fun _ => rfl) begun past
  advance := fun steps => advance_keepsTrack steps begun past
  save := save_keepsTrack begun past
  setStatus := fun status => setStatus_keepsTrack status begun past
  runBatch := fun model statements => runBatch_keepsTrack model statements begun past

/-- Clearing the journal leaves the operation without a past. -/
theorem Tracks.cleared (tracks : Tracks begun past progress) :
    Tracks begun [] { progress with
      state := ((Database.backendWith executor).clearExcept (some progress.operation.id)
        progress.state).2 } := by
  -- All entries but that of the operation are gone, and it stands alone.
  obtain ⟨entry, entries, same⟩ := tracks.last
  refine ⟨tracks.id, tracks.model, tracks.kind, tracks.next, by simp, entry, ?_, same⟩
  show progress.state.journal.entries.filter
    (fun other => some progress.operation.id == some other.id) = _
  rw [entries, tracks.id, Journal.filter_others tracks.behind same]
  rfl

/-- A repair keeps track of its operation, which has no past when the repair has succeeded. -/
theorem applyRepair_ensures (plan : RepairPlan) (begun : Operation) (past : List Operation) :
    ((registryWith executor configuration).applyRepair plan).Ensures
      (Tracks begun past) (Tracks begun []) (Tracks begun past) := by
  -- The past is cleared last, when nothing can fail any more.
  have clears : Step.Ensures (.ofUpdate fun progress =>
      let after := (Database.backendWith executor).clearExcept (some progress.operation.id)
        progress.state
      (after.1, { progress with state := after.2 }))
      (Tracks begun past) (Tracks begun []) (Tracks begun past) :=
    fun progress tracks => tracks.cleared
  have kept := kept_tracks executor begun past
  -- The stages come one after the other, and each but the last keeps track of the operation.
  exact (kept.setStatus _).bind fun _ =>
    (kept.runBatch _ _).bind fun _ =>
    (kept.setStatus _).bind fun _ =>
    (Registry.kept_writeRepaired kept.toKeptByRecords _).bind fun _ =>
    kept.flush.bind fun _ => clears.bind fun _ => .pure _

end InProgress

/-! ## Ends of operations -/

/-- The error that ended an operation, without what tells of its effects. -/
def Error.underlying : Error → Error
  | partway _ _ _ cause => cause
  | other => other

/-- The number of statements that were applied and of records that changed between two moments. -/
def Database.effects (before after : Database) : Nat :=
  (after.recorder.applied.length - before.recorder.applied.length) +
    (before.store.differing after.store).length

/-- The entry of an operation that failed in a call, told from what the call was given and what it
has left. -/
def Operation.ofFailure (model : String) (kind : OperationKind) (error : Error)
    (before after : Database) : Operation where
  id := before.journal.nextId
  model := model
  kind := kind
  status := .failed
  completedSteps := before.effects after
  error := some error.underlying.message

/-- The entries that are there when an operation has ended: those it has left of the past when it
ended well, and its own behind all of the past when it failed. -/
def Operation.trail {α : Type} (model : String) (kind : OperationKind) (before after : Database)
    (left : List Operation) : Except Error α → List Operation
  | .ok _ => left
  | .error error => before.journal.entries ++ [.ofFailure model kind error before after]

namespace Journal

/-- A journal with the entries of some operations, whose next number is greater than before. -/
structure Grown (before after : Journal) (entries : List Operation) : Prop where
  entries : after.entries = entries
  numbered : after.Numbered
  later : before.nextId ≤ after.nextId

end Journal

namespace InProgress

variable {executor : Executor}

/-- An error that tells of no effects is the one underlying the failure of an operation. -/
theorem underlying_failure {error : Error} (whole : error.isPartial = false)
    (operation : Operation) : (failure operation error).underlying = error := by
  -- An operation without steps ends with its cause as it is, and any other wraps it.
  unfold failure
  split
  · cases error <;> first | rfl | cases whole
  · rfl

/-- What an operation counts is what it has done since it began. -/
theorem Counts.effects {begun stopped : InProgress Database} {sql written : List String}
    (counts : Counts begun stopped sql written) (fresh : begun.operation.completedSteps = 0) :
    stopped.operation.completedSteps = begun.state.effects stopped.state := by
  -- The recorder has as many statements more as took effect in between.
  have statements : stopped.state.recorder.applied.length -
      begun.state.recorder.applied.length = sql.length := by
    rw [counts.applied, List.length_append, Nat.add_sub_cancel_left]
  rw [counts.steps, fresh, Nat.zero_add, Database.effects, statements,
    Store.length_differing counts.distinct counts.changed]

/-- An operation that begins gets the greatest number, and so its entry stands behind all others. -/
theorem tracks_begin {database : Database} (numbered : database.journal.Numbered) (model : String)
    (kind : OperationKind) :
    Tracks (.new database.journal.nextId model kind) database.journal.entries
      ⟨(Database.begin model kind database).1, (Database.begin model kind database).2⟩ := by
  -- All numbers given away so far are smaller than the one that comes next.
  refine ⟨rfl, rfl, rfl, rfl, numbered, _, ?_, rfl⟩
  have behind : ∀ entry ∈ database.journal.entries,
      entry.id < (Operation.new database.journal.nextId model kind).id := numbered
  have placed := Journal.place_append behind []
  rw [List.append_nil] at placed
  exact placed

section

variable {begun : Operation} {past : List Operation} {progress : InProgress Database}
  {before : Journal}

/-- Once the entry of an operation is removed its past is all that is left. -/
theorem Tracks.grown_remove (tracks : Tracks begun past progress) (executor : Executor)
    (later : before.nextId ≤ begun.id) :
    before.Grown ((Database.backendWith executor).remove progress.operation.id
      progress.state).journal past := by
  -- The last entry is the one that is removed, and the ones before it have smaller numbers.
  obtain ⟨entry, entries, same⟩ := tracks.last
  have removed : progress.state.journal.entries.filter
      (fun other => other.id != progress.operation.id) = past := by
    rw [entries, tracks.id, Journal.filter_last tracks.behind same]
  refine ⟨removed, fun other listed => ?_, ?_⟩
  · show other.id < progress.state.journal.nextId
    rw [tracks.next]
    exact Nat.lt_succ_of_lt (tracks.behind other (removed ▸ listed))
  · show _ ≤ progress.state.journal.nextId
    rw [tracks.next]
    exact Nat.le_succ_of_le later

/-- Once an operation is saved as a failure it stands behind its past. -/
theorem Tracks.grown_fail (tracks : Tracks begun past progress) (executor : Executor)
    (later : before.nextId ≤ begun.id) (message : String) :
    before.Grown ((Database.backendWith executor).save (progress.operation.fail message)
      progress.state).journal (past ++ [progress.operation.fail message]) := by
  have stands : Tracks begun past ⟨progress.operation.fail message, progress.state⟩ :=
    tracks.of_same rfl rfl rfl rfl
  have saved := stands.entries_save executor
  refine ⟨saved, fun other listed => ?_, ?_⟩
  · show other.id < progress.state.journal.nextId
    rw [tracks.next]
    -- The entry is one of the past, or that of the operation itself.
    rcases List.mem_append.mp (saved ▸ listed) with earlier | last
    · exact Nat.lt_succ_of_lt (tracks.behind other earlier)
    · rw [List.mem_singleton.mp last]
      exact tracks.id ▸ Nat.lt_succ_self _
  · show _ ≤ progress.state.journal.nextId
    rw [tracks.next]
    exact Nat.le_succ_of_le later

end

/-- An operation that ends well leaves the entries that its work has left of the past, and one that
fails leaves its own entry behind them. -/
theorem journaled_entries {α : Type} {work : Step (InProgress Database) α}
    {database after : Database} {model : String} {kind : OperationKind} {within : List String}
    {left : List Operation} {result : Except Error α} (numbered : database.journal.Numbered)
    (counted : Counted within work)
    (ensures : work.Ensures
      (Tracks (.new database.journal.nextId model kind) database.journal.entries)
      (Tracks (.new database.journal.nextId model kind) left)
      (Tracks (.new database.journal.nextId model kind) database.journal.entries))
    (ran : journaled (Database.backendWith executor) model kind work database = (result, after)) :
    database.recorder.applied <+: after.recorder.applied ∧
      database.journal.Grown after.journal
        (Operation.trail model kind database after left result) := by
  let begun : InProgress Database :=
    ⟨(Database.begin model kind database).1, (Database.begin model kind database).2⟩
  have begins : (Database.backendWith executor).begin model kind database =
      (begun.operation, begun.state) := rfl
  -- The work counts its effects, which is what the entry of a failure tells.
  obtain ⟨sql, written, counts, -, stops⟩ := counted begun
  -- The work leaves the operation tracked, however it ends.
  have reached := ensures begun (tracks_begin numbered model kind)
  cases ended : work begun with
  | mk outcome stopped =>
    rw [ended] at counts stops reached
    have prefixed : database.recorder.applied <+: stopped.state.recorder.applied :=
      ⟨sql, counts.applied.symm⟩
    simp only [journaled, begins, ended] at ran
    cases outcome with
    -- The entry goes, and with it nothing else.
    | ok value =>
      have tracked : Tracks _ left stopped := reached
      cases ran
      exact ⟨prefixed, tracked.grown_remove executor (Nat.le_refl _)⟩
    | error cause =>
      have tracked : Tracks _ database.journal.entries stopped := reached
      cases ran
      -- What is saved last is the operation with its steps and the error of its work.
      have failed : stopped.operation.fail cause.message = .ofFailure model kind
          (failure stopped.operation cause) database stopped.state := by
        rw [Operation.ofFailure, underlying_failure (stops cause rfl).whole, Operation.fail,
          counts.effects rfl, tracked.id, tracked.model, tracked.kind]
        rfl
      have grown := tracked.grown_fail executor (Nat.le_refl _) cause.message
      exact ⟨prefixed, grown.entries.trans (congrArg (database.journal.entries ++ [·]) failed),
        grown.numbered, grown.later⟩

end InProgress

end ModelCatalog
