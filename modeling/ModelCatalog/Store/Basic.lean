import ModelCatalog.Roster
import ModelCatalog.Store.Record

/-! The store of records: one for each name, written under guards. -/

namespace ModelCatalog

/-- What the store holds under a name. -/
inductive Entry where
  | intact (record : Record)
  /-- Something that cannot be read as a record. -/
  | damaged (name : String)
  deriving DecidableEq

/-- The name an entry is filed under. -/
def Entry.name : Entry → String
  | intact record => record.name
  | damaged name => name

instance : Named Entry := ⟨Entry.name⟩

/-- Read an entry as a record. -/
def Entry.read : Entry → Except Error Record
  | intact record => .ok record
  | damaged name => .error (.undecodable name)

/-- The stored records, in order of name. -/
abbrev Store := Roster Entry

namespace Store

/-- The record of a name. -/
def get (store : Store) (name : String) : Except Error (Option Record) :=
  match store.find? name with
  | some entry => entry.read.map some
  | none => .ok none

/-- Every record, in order of name. -/
def listAll (store : Store) : Except Error (List Record) := store.members.mapM Entry.read

/-- The record that a write of a definition leaves behind. -/
def successor (current : Option Record) (definition : Model) (now : Nat) : Record :=
  match current with
  | some record => record.next definition now
  | none => .first definition now

/-- Write a definition under a guard. -/
def put (store : Store) (definition : Model) (expect : Expect) (now : Nat) :
    Except Error (Record × Store) := do
  -- The guard is about the record that is there now, whatever was read before.
  let current ← store.get definition.name
  expect.check definition.name current
  let record := successor current definition now
  return (record, store.insert (.intact record))

/-- Remove a record under a guard; to remove what is not there changes nothing. -/
def delete (store : Store) (name : String) (expect : Expect) : Except Error Store := do
  let current ← store.get name
  expect.check name current
  return store.erase name

end Store

end ModelCatalog
