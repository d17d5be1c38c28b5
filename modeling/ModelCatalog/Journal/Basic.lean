import ModelCatalog.Journal.Operation

/-! The journal: what is known of operations that are under way or have failed. -/

namespace ModelCatalog

/-- The states of operations as last saved, in order of their numbers. -/
structure Journal where
  entries : List Operation
  /-- The number of the next operation. -/
  nextId : Nat
  deriving DecidableEq, Repr

namespace Journal

/-- A journal without entries. -/
def empty : Journal := ⟨[], 0⟩

/-- Put a state in its place, in the stead of an earlier one of the same operation. -/
def place (operation : Operation) : List Operation → List Operation
  | [] => [operation]
  | first :: rest =>
    if operation.id < first.id then operation :: first :: rest
    else if first.id < operation.id then first :: place operation rest
    else operation :: rest

/-- Save the state of an operation, with the count of its steps as it is. -/
def save (journal : Journal) (operation : Operation) : Journal :=
  { journal with entries := place operation journal.entries }

/-- Note down a new operation under the next number. -/
def begin (journal : Journal) (model : String) (kind : OperationKind) : Operation × Journal :=
  -- The number is given away at once, so no later operation can get it.
  let operation := Operation.new journal.nextId model kind
  (operation, { journal.save operation with nextId := journal.nextId + 1 })

/-- The saved state of an operation. -/
def load (journal : Journal) (id : Nat) : Option Operation :=
  journal.entries.find? fun operation => operation.id == id

/-- The saved states of operations that have not ended well. -/
def pending (journal : Journal) : List Operation :=
  journal.entries.filter fun operation => !operation.isComplete

/-- Remove what is known of an operation. -/
def remove (journal : Journal) (id : Nat) : Journal :=
  { journal with entries := journal.entries.filter fun operation => operation.id != id }

/-- Remove all entries but one, and count them. -/
def clearExcept (journal : Journal) (keep : Option Nat) : Nat × Journal :=
  let kept := journal.entries.filter fun operation => keep == some operation.id
  (journal.entries.length - kept.length, { journal with entries := kept })

end Journal

end ModelCatalog
