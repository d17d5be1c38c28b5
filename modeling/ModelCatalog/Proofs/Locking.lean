import ModelCatalog.Proofs.LockSets
import ModelCatalog.Registry.Step

/-! Locking: in whatever order operations take names and give them back, what is locked are the
names of the guards that are alive, and no two of these share a name. -/

namespace ModelCatalog

/-- A lock table and the guards that are alive, each of them the names it was given out for. The
table does not know which operation holds a guard, and guards are told apart by their position. -/
structure Locking where
  table : LockTable
  guards : List NameSet

/-- What an operation does with a lock table in one turn. -/
inductive LockAction where
  /-- Ask for names, and be given a guard for all of them or an error. -/
  | acquire (names : NameSet) (limit : Duration)
  /-- Drop the guard at a position, if there is one. -/
  | drop (position : Nat)

/-- Take a turn. -/
def LockAction.run : LockAction → Step Locking Unit
  | acquire names limit => fun locking =>
    match locking.table.acquire names limit with
    | .ok table => (.ok (), ⟨table, locking.guards ++ [names]⟩)
    | .error error => (.error error, locking)
  | drop position => fun locking =>
    match locking.guards[position]? with
    | some guard => (.ok (), ⟨locking.table.release guard, locking.guards.eraseIdx position⟩)
    | none => (.ok (), locking)

namespace Locking

/-- No name is locked, and no guard is alive. -/
def free : Locking := ⟨.empty, []⟩

/-- The locks after turns that were taken one after the other, by whatever operations. -/
def after (history : List LockAction) : Locking :=
  history.foldl (fun locking action => (action.run locking).2) free

/-- What is locked are the names of the guards, and no two guards share a name. -/
structure Exclusive (locking : Locking) : Prop where
  isLocked_iff : ∀ name, locking.table.isLocked name = true ↔
    ∃ guard ∈ locking.guards, guard.contains name = true
  disjoint : locking.guards.Pairwise NameSet.Disjoint

end Locking

/-! ## The table -/

namespace LockTable

/-- Names that are all free can be taken, and then they are locked and the others as before; else
one of them that is locked is the reason to refuse them. -/
theorem acquire_cases (table : LockTable) (names : NameSet) (limit : Duration) :
    ((∀ name, names.contains name = true → table.isLocked name = false) ∧
      ∃ taken, table.acquire names limit = .ok taken ∧ ∀ name, taken.isLocked name = true ↔
        names.contains name = true ∨ table.isLocked name = true) ∨
    ∃ busy, names.contains busy = true ∧ table.isLocked busy = true ∧
      table.acquire names limit = .error (.transient busy (.lockTimeout limit)) := by
  -- The search goes through all the names, so it finds none only when none is locked.
  cases asked : table.busy? names with
  | none =>
    refine .inl ⟨fun name own => ?_, ⟨table.held.insertAll names.members⟩, by rw [acquire, asked],
      fun name => ?_⟩
    · have listed := (Roster.mem_members_iff names name).mpr own
      exact Bool.eq_false_iff.mpr (List.find?_eq_none.mp asked name listed)
    · rw [isLocked, Roster.contains_insertAll, Roster.mem_members_iff]
      rfl
  | some busy =>
    have listed := List.mem_of_find?_eq_some asked
    exact .inr ⟨busy, (Roster.mem_members_iff names busy).mp listed,
      List.find?_some asked, by rw [acquire, asked]⟩

/-- Names that are given back are free, and the others are as before. -/
theorem isLocked_release (table : LockTable) (guard : NameSet) (name : String) :
    (table.release guard).isLocked name = (table.isLocked name && !guard.contains name) := by
  -- A name is asked for in the table without the names that are given back.
  rw [Bool.eq_iff_iff, Bool.and_eq_true, Bool.not_eq_true', ← Bool.not_eq_true,
    ← Roster.mem_members_iff]
  exact Roster.contains_foldl_erase table.held guard.members name

end LockTable

/-! ## One turn -/

namespace LockAction

variable {locking : Locking} {names guard : NameSet} {limit : Duration} {position : Nat}

/-- Names that can be taken come with a guard for them. -/
theorem acquire_run_of_ok {taken : LockTable}
    (asked : locking.table.acquire names limit = .ok taken) :
    (acquire names limit).run locking = (.ok (), ⟨taken, locking.guards ++ [names]⟩) := by
  -- The table gives the new locks, and the guard goes to the end of the list.
  simp only [run, asked]

/-- Where names are refused, nothing changes. -/
theorem acquire_run_of_error {error : Error}
    (asked : locking.table.acquire names limit = .error error) :
    (acquire names limit).run locking = (.error error, locking) := by
  -- The error of the table is passed on, and the locks stay as they were.
  simp only [run, asked]

/-- Dropping a guard gives its names back. -/
theorem drop_run (found : locking.guards[position]? = some guard) :
    (drop position).run locking =
      (.ok (), ⟨locking.table.release guard, locking.guards.eraseIdx position⟩) := by
  -- The guard at the position is released and leaves the list.
  simp only [run, found]

/-- Where no guard is left to drop, nothing changes. -/
theorem drop_run_of_none (missing : locking.guards[position]? = none) :
    (drop position).run locking = (.ok (), locking) := by
  -- There is no guard at the position, so there is nothing to release.
  simp only [run, missing]

end LockAction

namespace Locking

variable {locking : Locking} {names guard : NameSet} {position : Nat}

/-- A guard stands at its position between the others. -/
theorem exists_around (found : locking.guards[position]? = some guard) :
    ∃ front back, locking.guards = front ++ guard :: back ∧
      locking.guards.eraseIdx position = front ++ back := by
  -- Erasing leaves what is taken before the position and what is dropped behind it.
  obtain ⟨within, rfl⟩ := List.getElem?_eq_some_iff.mp found
  refine ⟨locking.guards.take position, locking.guards.drop (position + 1), ?_,
    List.eraseIdx_eq_take_drop_succ _ _⟩
  rw [List.getElem_cons_drop, List.take_append_drop]

namespace Exclusive

/-- Where no name is locked and no guard alive, nothing is shared. -/
theorem free : Locking.free.Exclusive where
  isLocked_iff := fun _ => ⟨fun locked => absurd locked Bool.false_ne_true,
    fun ⟨_, alive, _⟩ => absurd alive List.not_mem_nil⟩
  disjoint := .nil

/-- The names of a guard are locked. -/
theorem isLocked (exclusive : locking.Exclusive) (alive : guard ∈ locking.guards) {name : String}
    (own : guard.contains name = true) : locking.table.isLocked name = true :=
  -- The guard that is alive is the one that the invariant asks for.
  (exclusive.isLocked_iff name).mpr ⟨guard, alive, own⟩

/-- A guard for names that were free shares none with the guards from before. -/
theorem acquired (exclusive : locking.Exclusive) {taken : LockTable}
    (free : ∀ name, names.contains name = true → locking.table.isLocked name = false)
    (result : ∀ name, taken.isLocked name = true ↔
      names.contains name = true ∨ locking.table.isLocked name = true) :
    Exclusive ⟨taken, locking.guards ++ [names]⟩ where
  isLocked_iff := by
    -- A name is locked now when it was, or when it is one of the new ones.
    intro name
    rw [result, exclusive.isLocked_iff]
    simp [or_and_right, exists_or, or_comm]
  disjoint := by
    refine List.pairwise_append.mpr
      ⟨exclusive.disjoint, List.pairwise_singleton _ _, fun guard alive other isNew => ?_⟩
    obtain rfl := List.mem_singleton.mp isNew
    intro name listed
    -- A shared name would have been locked when it was asked for.
    by_contra shared
    have locked := exclusive.isLocked alive ((Roster.mem_members_iff guard name).mp listed)
    rw [free name (by simpa using shared)] at locked
    cases locked

/-- Giving back the names of one guard leaves those of all others locked. -/
theorem dropped (exclusive : locking.Exclusive)
    (found : locking.guards[position]? = some guard) :
    Exclusive ⟨locking.table.release guard, locking.guards.eraseIdx position⟩ := by
  obtain ⟨front, back, whole, others⟩ := exists_around found
  have disjoint := exclusive.disjoint
  rw [whole, List.pairwise_middle NameSet.Disjoint.symm, List.pairwise_cons] at disjoint
  obtain ⟨apart, rest⟩ := disjoint
  -- A guard that was alive is the one that is dropped, or one of the others.
  have alive_iff : ∀ other, other ∈ locking.guards ↔ other = guard ∨ other ∈ front ++ back := by
    intro other
    rw [whole]
    simp [or_left_comm]
  rw [others]
  refine ⟨fun name => ?_, rest⟩
  rw [LockTable.isLocked_release, Bool.and_eq_true, Bool.not_eq_true', exclusive.isLocked_iff]
  constructor
  · rintro ⟨⟨other, alive, own⟩, gone⟩
    rcases (alive_iff other).mp alive with rfl | stays
    · rw [gone] at own
      cases own
    · exact ⟨other, stays, own⟩
  · -- The table is not told whose a name is: it stays since the guards share none.
    rintro ⟨other, stays, own⟩
    exact ⟨⟨other, (alive_iff other).mpr (.inr stays), own⟩,
      Bool.eq_false_iff.mpr ((apart other stays).symm.notMem own)⟩

/-- A turn keeps locks exclusive. -/
theorem run (exclusive : locking.Exclusive) (action : LockAction) :
    (action.run locking).2.Exclusive := by
  -- A request is granted or refused, and a drop finds its guard or none.
  cases action with
  | acquire names limit =>
    rcases locking.table.acquire_cases names limit with
      ⟨free, taken, asked, result⟩ | ⟨busy, -, -, asked⟩
    · -- The names were free, and they are added to the table with a guard.
      rw [LockAction.acquire_run_of_ok asked]
      exact exclusive.acquired free result
    · -- One of the names was taken, so the locks are as they were.
      rw [LockAction.acquire_run_of_error asked]
      exact exclusive
  | drop position =>
    cases found : locking.guards[position]? with
    | none =>
      -- There was no such guard.
      rw [LockAction.drop_run_of_none found]
      exact exclusive
    | some guard =>
      rw [LockAction.drop_run found]
      exact exclusive.dropped found

/-- Turns keep locks exclusive, however many are taken. -/
theorem foldl (exclusive : locking.Exclusive) (history : List LockAction) :
    (history.foldl (fun locking action => (action.run locking).2) locking).Exclusive := by
  -- The induction is on the turns to come; each keeps what the next one starts from.
  induction history generalizing locking with
  | nil => exact exclusive
  | cons action rest ih => exact ih (exclusive.run action)

end Exclusive

/-! ## All turns -/

/-- The turn that follows a history. -/
theorem after_concat (history : List LockAction) (action : LockAction) :
    after (history ++ [action]) = (action.run (after history)).2 := by
  -- The last action is the last to be folded in.
  rw [after, List.foldl_append]
  rfl

/-- After any history of turns, what is locked are the names of the guards that are alive, no two of
which share a name. Names can be taken exactly when none of them is locked; when they cannot, one of
them is the reason and nothing changes. A guard that is dropped frees its own names, all of which
were locked, and leaves every other name as it was. -/
theorem names_exclusive (history : List LockAction) :
    let now := after history
    (∀ name, now.table.isLocked name = true ↔
      ∃ guard ∈ now.guards, guard.contains name = true) ∧
    now.guards.Pairwise NameSet.Disjoint ∧
    (∀ names limit, let asked := (LockAction.acquire names limit).run now
      (asked.1 = .ok () ↔ ∀ name, names.contains name = true → now.table.isLocked name = false) ∧
      (asked.1 = .ok () → asked.2.guards = now.guards ++ [names]) ∧
      ∀ error, asked.1 = .error error → asked.2 = now ∧ ∃ busy, names.contains busy = true ∧
        now.table.isLocked busy = true ∧ error = .transient busy (.lockTimeout limit)) ∧
    ∀ position guard, now.guards[position]? = some guard →
      let next := after (history ++ [.drop position])
      next.guards = now.guards.eraseIdx position ∧
      ∀ name, if guard.contains name = true then
          now.table.isLocked name = true ∧ next.table.isLocked name = false
        else next.table.isLocked name = now.table.isLocked name := by
  intro now
  -- The invariant says what is locked; what a turn does to the table needs no history.
  have exclusive : now.Exclusive := Exclusive.free.foldl history
  refine ⟨exclusive.isLocked_iff, exclusive.disjoint, fun names limit => ?_,
    fun position guard found => ?_⟩
  · intro asked
    -- Either all names are free, and they are given out, or one is the reason.
    rcases now.table.acquire_cases names limit with
      ⟨free, taken, granted, -⟩ | ⟨busy, own, locked, refused⟩
    · have given : asked = (.ok (), ⟨taken, now.guards ++ [names]⟩) :=
        LockAction.acquire_run_of_ok granted
      rw [given]
      exact ⟨⟨fun _ => free, fun _ => rfl⟩, fun _ => rfl, fun _ failed => nomatch failed⟩
    · have unchanged : asked = (.error (.transient busy (.lockTimeout limit)), now) :=
        LockAction.acquire_run_of_error refused
      rw [unchanged]
      refine ⟨⟨fun passed => (nomatch passed), fun free => ?_⟩, fun passed => (nomatch passed),
        fun error failed => ?_⟩
      · rw [free busy own] at locked
        cases locked
      · exact ⟨rfl, busy, own, locked, (Except.error.inj failed).symm⟩
  · intro next
    have dropped : next = ⟨now.table.release guard, now.guards.eraseIdx position⟩ := by
      show after (history ++ [.drop position]) = _
      rw [after_concat, LockAction.drop_run found]
    rw [dropped]
    refine ⟨rfl, fun name => ?_⟩
    rw [LockTable.isLocked_release]
    split
    · -- The names of a guard are locked as long as it is alive.
      rename_i own
      exact ⟨exclusive.isLocked (List.mem_of_getElem? found) own, by simp [own]⟩
    · rename_i foreign
      simp [foreign]

/-- Two operations that need a name in common, one that needs another name, one that needs none,
and the drop of the first guard. -/
def contended : List LockAction :=
  [.acquire (Roster.ofList ["Tag", "Post"]) (.ofSeconds 1),
    .acquire (Roster.ofList ["User", "Tag"]) (.ofSeconds 1),
    .acquire (Roster.ofList ["User"]) (.ofSeconds 1), .acquire ∅ (.ofSeconds 1), .drop 0]

/-- The second operation was refused and is refused again: the name it was waiting for is free, but
the other one is held by now. -/
theorem names_exclusive_contended :
    let now := after contended
    let again := LockAction.acquire (Roster.ofList ["User", "Tag"]) (.ofSeconds 1)
    now.guards.map Roster.members = [["User"], []] ∧ now.table.isLocked "Tag" = false ∧
      now.table.isLocked "User" = true ∧ (again.run now).1 ≠ .ok () := by
  intro now again
  obtain ⟨locked_iff, -, asking, -⟩ := names_exclusive contended
  have alive : now.guards.map Roster.members = [["User"], []] := by decide +kernel
  have user : now.table.isLocked "User" = true := (locked_iff "User").mpr (by decide +kernel)
  -- Were it given its names, the user would be free, whom a guard holds.
  refine ⟨alive, ?_, user, fun passed => ?_⟩
  · refine Bool.eq_false_iff.mpr fun locked => ?_
    exact absurd ((locked_iff "Tag").mp locked) (by decide +kernel)
  · have free := (asking (Roster.ofList ["User", "Tag"]) (.ofSeconds 1)).1.mp passed "User"
      (by decide +kernel)
    exact Bool.false_ne_true (free.symm.trans user)

end Locking

end ModelCatalog
