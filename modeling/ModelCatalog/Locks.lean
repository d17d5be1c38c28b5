import ModelCatalog.Error
import ModelCatalog.Roster

/-! Locks on names: an operation takes all the names it needs at once or none of them. -/

namespace ModelCatalog

/-- The names that are taken. -/
structure LockTable where
  held : NameSet

namespace LockTable

/-- A table in which every name is free. -/
def empty : LockTable := ⟨∅⟩

/-- The first of some names that is taken. -/
def busy? (table : LockTable) (names : NameSet) : Option String :=
  names.members.find? table.held.contains

/-- Take all the names, or report the first that does not become free in time; nothing is given
back while the table is being asked. -/
def acquire (table : LockTable) (names : NameSet) (limit : Duration) :
    Except Error LockTable :=
  match table.busy? names with
  | some name => .error (.transient name (.lockTimeout limit))
  | none => .ok ⟨table.held.insertAll names.members⟩

/-- Give names back. -/
def release (table : LockTable) (names : NameSet) : LockTable :=
  ⟨names.members.foldl (fun held name => held.erase name) table.held⟩

/-- The name is taken. -/
def isLocked (table : LockTable) (name : String) : Bool := table.held.contains name

end LockTable

/-- Every one of the names belongs to the set. -/
def NameSet.covers (guard : NameSet) (names : List String) : Bool := names.all guard.contains

end ModelCatalog
