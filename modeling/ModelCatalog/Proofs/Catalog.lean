import ModelCatalog.Proofs.Roster
import ModelCatalog.Proofs.TargetEdit
import ModelCatalog.Store.Basic

/-! Catalogs: stores in which every record can be read, and what writing to them does. -/

namespace ModelCatalog

/-- The records of a store that can all be read, in order of name. -/
abbrev Catalog := Roster Record

namespace Catalog

variable {catalog : Catalog} {definition : Model} {now : Nat}

/-- The store that holds the records. -/
def store (catalog : Catalog) : Store := catalog.map Entry.intact fun _ => rfl

/-- The definitions of the records. -/
def models (catalog : Catalog) : Models := catalog.map Record.definition fun _ => rfl

/-- The stored definition of a name. -/
def definition? (catalog : Catalog) (name : String) : Option Model :=
  (catalog.find? name).map Record.definition

/-- Store a definition, as the first version or the next one. -/
def written (catalog : Catalog) (definition : Model) (now : Nat) : Catalog :=
  catalog.insert (Store.successor (catalog.find? definition.name) definition now)

/-- The definition that a change of a name begins with: the stored one, or an empty one. -/
def start? (catalog : Catalog) (name : String) (createMissing : Bool) : Option Model :=
  (catalog.definition? name).or (if createMissing then some ⟨name, []⟩ else none)

/-- Change the definition of a name, if the change says that it does anything. -/
def amended (catalog : Catalog) (name : String) (createMissing : Bool)
    (change : Model → Model × Bool) (now : Nat) : Catalog :=
  match catalog.start? name createMissing with
  | none => catalog
  | some before => if (change before).2 then catalog.written (change before).1 now else catalog

/-! ## Reading -/

/-- The entries of the store are the records. -/
theorem find?_store (catalog : Catalog) (name : String) :
    catalog.store.find? name = (catalog.find? name).map Entry.intact :=
  -- An entry is made of each record, under the name of the record.
  Roster.find?_map Entry.intact (fun _ => rfl) catalog name

/-- What the store reads under a name is the record there. -/
@[simp] theorem get_store (catalog : Catalog) (name : String) :
    catalog.store.get name = .ok (catalog.find? name) := by
  -- An entry of a record is read as the record, and no entry as none.
  rw [Store.get, find?_store]
  cases catalog.find? name <;> rfl

/-- A store holds the records of one catalog. -/
theorem eq_of_store_eq {one other : Catalog} (same : one.store = other.store) : one = other := by
  -- Catalogs are told apart by what is found in them, which is what their stores read.
  refine Roster.eq_of_find? fun name => ?_
  have read := congrArg (Store.get · name) same
  rwa [get_store, get_store, Except.ok.injEq] at read

/-- What the store lists are the records. -/
@[simp] theorem listAll_store (catalog : Catalog) :
    catalog.store.listAll = .ok catalog.members := by
  -- Entries that were made of records are read back one after the other.
  have traversed : ∀ records : List Record,
      (records.map Entry.intact).mapM Entry.read = .ok records := by
    intro records
    induction records with
    | nil => rfl
    | cons first rest ih =>
      rw [List.map_cons, List.mapM_cons, ih]
      rfl
  exact traversed catalog.members

/-- The known models of a catalog are found under their names. -/
@[simp] theorem find?_models (catalog : Catalog) (name : String) :
    catalog.models.find? name = catalog.definition? name :=
  -- The known models are the definitions of the records, each under the name of its record.
  Roster.find?_map Record.definition (fun _ => rfl) catalog name

/-- Filing the definitions anew gives the known models. -/
@[simp] theorem ofList_definitions (catalog : Catalog) :
    Roster.ofList (catalog.members.map Record.definition) = catalog.models := by
  have named : (catalog.members.map Record.definition).map Named.name =
      catalog.members.map (Named.name : Record → String) := by
    rw [List.map_map]
    rfl
  -- No two records share a name, so filing anew replaces none.
  refine Roster.eq_of_find? fun name => ?_
  rw [Roster.find?_ofList (by rw [named]; exact Roster.names_nodup catalog)]
  rfl

/-- A stored definition bears the name it is found under. -/
theorem name_of_definition? {name : String} (found : catalog.definition? name = some definition) :
    definition.name = name := by
  -- The definition is that of a record, and a record is found under its own name.
  obtain ⟨record, stored, rfl⟩ := Option.map_eq_some_iff.mp found
  exact Roster.name_of_find? stored

/-- The definition of a stored record is the one that is stored under its name. -/
theorem definition?_of_find? {name : String} {record : Record}
    (stored : catalog.find? name = some record) :
    catalog.definition? name = some record.definition := by
  -- To look for a definition is to look for its record.
  rw [definition?, stored, Option.map_some]

/-- A model is known when it is stored. -/
theorem contains_models (catalog : Catalog) (name : String) :
    catalog.models.contains name = (catalog.definition? name).isSome := by
  -- To be known is to be found.
  rw [Roster.contains_eq, find?_models]

/-- A model is stored when it has a record. -/
theorem isSome_definition? (catalog : Catalog) (name : String) :
    (catalog.definition? name).isSome = (catalog.find? name).isSome := by
  -- Every record has a definition.
  simp [definition?]

/-! ## Writing -/

/-- The record that a write leaves behind is of the definition written. -/
@[simp] theorem definition_successor (current : Option Record) (definition : Model) (now : Nat) :
    (Store.successor current definition now).definition = definition := by
  -- Whether it is the first version or the next one, the definition is the given one.
  cases current <;> rfl

/-- Writing a definition changes the record of its name and no other. -/
theorem find?_written (catalog : Catalog) (definition : Model) (now : Nat) (name : String) :
    (catalog.written definition now).find? name =
      if definition.name = name then
        some (Store.successor (catalog.find? definition.name) definition now)
      else catalog.find? name := by
  -- The record that is filed bears the name of the definition, whether there was one before or not.
  have own : Named.name (Store.successor (catalog.find? definition.name) definition now) =
      definition.name := congrArg Model.name (definition_successor _ _ _)
  rw [written, Roster.find?_insert, own]

/-- Writing a definition stores it under its name. -/
theorem definition?_written (catalog : Catalog) (definition : Model) (now : Nat) (name : String) :
    (catalog.written definition now).definition? name =
      if definition.name = name then some definition else catalog.definition? name := by
  -- The record that is written has the definition, and all others stay.
  rw [definition?, find?_written]
  split <;> simp [definition?]

/-- Filing a record in a catalog files it in the store. -/
theorem store_insert (catalog : Catalog) (record : Record) :
    store (catalog.insert record) = catalog.store.insert (.intact record) := by
  -- Stores are the same when the same is found in them under every name.
  refine Roster.eq_of_find? fun name => ?_
  have own : (Named.name (Entry.intact record) : String) = Named.name record := rfl
  rw [Roster.find?_insert, find?_store, find?_store, Roster.find?_insert, own]
  split <;> rfl

/-- Taking a record out of a catalog takes it out of the store. -/
theorem store_erase (catalog : Catalog) (name : String) :
    store (Roster.erase name catalog) = Roster.erase name catalog.store := by
  -- Under every name the two hold the same.
  refine Roster.eq_of_find? fun other => ?_
  rw [Roster.find?_erase, find?_store, find?_store, Roster.find?_erase]
  split <;> rfl

/-- A write whose guard holds goes through. -/
theorem put_store {expect : Expect}
    (holds : expect.holds (catalog.find? definition.name) = true) :
    catalog.store.put definition expect now =
      .ok (Store.successor (catalog.find? definition.name) definition now,
        (catalog.written definition now).store) := by
  -- The guard is checked against the record that is found.
  have guarded : expect.check definition.name (catalog.find? definition.name) = .ok () := by
    rw [Expect.check, if_pos holds]
  rw [written, store_insert, Store.put, get_store]
  simp only [bind, Except.bind, guarded]
  rfl

/-- A deletion whose guard holds goes through. -/
theorem delete_store {name : String} {expect : Expect}
    (holds : expect.holds (catalog.find? name) = true) :
    catalog.store.delete name expect = .ok (Catalog.store (Roster.erase name catalog)) := by
  -- What is checked is the record that is there.
  have guarded : expect.check name (catalog.find? name) = .ok () := by
    rw [Expect.check, if_pos holds]
  rw [store_erase, Store.delete, get_store]
  simp only [bind, Except.bind, guarded]
  rfl

/-- A record is in the state it was read in. -/
theorem holds_ofRecord (record : Option Record) :
    -- A record has the version that was read, and where none was read there is none.
    (Expect.ofRecord record).holds record = true := by
  cases record <;> simp [Expect.ofRecord, Expect.holds]

/-! ## Changing -/

variable {name : String} {createMissing : Bool} {change : Model → Model × Bool}

/-- What a change begins with bears the name. -/
theorem name_of_start? {before : Model} (begins : catalog.start? name createMissing = some before) :
    before.name = name := by
  -- The definition is either the stored one or the empty one that is made under the name.
  rw [start?, Option.or_eq_some_iff] at begins
  rcases begins with found | ⟨-, empty⟩
  · exact name_of_definition? found
  · split at empty
    · cases empty
      rfl
    · cases empty

/-- Changing a definition leaves the records of other names alone. -/
theorem find?_amended_of_ne (keepsName : ∀ model, (change model).1.name = model.name)
    {other : String} (differ : other ≠ name) :
    (catalog.amended name createMissing change now).find? other = catalog.find? other := by
  -- If anything is written it is a definition of the name, so that no other record is touched.
  unfold amended
  split
  · rfl
  · rename_i before begins
    split
    · rw [find?_written, if_neg]
      rw [keepsName, name_of_start? begins]
      exact Ne.symm differ
    · rfl

/-- What a change makes of a record depends on that record alone. -/
theorem find?_amended_congr {other : Catalog}
    (keepsName : ∀ model, (change model).1.name = model.name)
    (same : catalog.find? name = other.find? name) :
    (catalog.amended name createMissing change now).find? name =
      (other.amended name createMissing change now).find? name := by
  -- What a change begins with is told by the record of the name, in either catalog.
  have begins : other.start? name createMissing = catalog.start? name createMissing := by
    rw [start?, start?, definition?, definition?, same]
  unfold amended
  rw [begins]
  -- The catalogs are compared after the same case: nothing to begin with, no effect, or a write.
  split
  · exact same
  · rename_i before begins
    split
    · have own : (change before).1.name = name := by
        rw [keepsName, name_of_start? begins]
      rw [find?_written, find?_written, if_pos own, if_pos own, own, same]
    · exact same

/-- Changing a stored definition writes what the change makes of it, if it does anything. -/
theorem amended_of_stored {before : Model} (stored : catalog.definition? name = some before) :
    catalog.amended name createMissing change now =
      if (change before).2 then catalog.written (change before).1 now else catalog := by
  -- What a change begins with is the stored definition.
  simp [amended, start?, stored]

/-- A change that does nothing to a stored definition leaves the catalog as it is. -/
theorem amended_of_unchanged {before : Model} (stored : catalog.definition? name = some before)
    (unchanged : (change before).2 = false) :
    catalog.amended name createMissing change now = catalog := by
  -- A change that does nothing is not written.
  rw [amended_of_stored stored, unchanged]
  simp

/-! ## Edits -/

/-- Apply an edit to its target, which begins empty when it is missing. -/
def edited (catalog : Catalog) (source : String) (now : Nat) (edit : TargetEdit) : Catalog :=
  catalog.amended edit.target true (edit.apply source) now

/-- Apply edits to their targets, in order. -/
def propagated (catalog : Catalog) (source : String) (now : Nat) (edits : List TargetEdit) :
    Catalog :=
  edits.foldl (fun catalog edit => catalog.edited source now edit) catalog

/-- An edit leaves the records of other names alone. -/
theorem find?_edited_of_ne {source : String} {edit : TargetEdit} {other : String}
    (differ : other ≠ edit.target) :
    (catalog.edited source now edit).find? other = catalog.find? other :=
  -- An edit keeps the name of the model it is applied to.
  find?_amended_of_ne (fun _ => TargetEdit.name_apply _ _ _) differ

/-- An edit makes of a stored definition what it makes of a model. -/
theorem definition?_edited {source : String} {edit : TargetEdit} {before : Model}
    (orderly : edit.Orderly source) (stored : catalog.definition? edit.target = some before) :
    (catalog.edited source now edit).definition? edit.target =
      some (edit.apply source before).1 := by
  -- When the edit reports no change it has made none, so that what stays is what it would have
  -- made.
  rw [edited, amended_of_stored stored]
  split
  · rw [definition?_written, if_pos]
    rw [TargetEdit.name_apply, name_of_definition? stored]
  · rename_i unchanged
    rw [stored, orderly.eq_of_unchanged (by simpa using unchanged)]

/-- An edit takes no record away. -/
theorem isSome_find?_edited {source : String} {edit : TargetEdit} {other : String}
    (stored : (catalog.find? other).isSome = true) :
    ((catalog.edited source now edit).find? other).isSome = true := by
  -- Records are only ever written, over others or beside them.
  unfold edited amended
  split
  · exact stored
  · split
    · rw [find?_written]
      split
      · rfl
      · exact stored
    · exact stored

/-- Edits leave the records alone that are none of their targets. -/
theorem find?_propagated_of_notMem {source : String} {edits : List TargetEdit} {other : String}
    (apart : other ∉ edits.map TargetEdit.target) :
    (catalog.propagated source now edits).find? other = catalog.find? other := by
  -- The induction is on the edits, each of which is for another name.
  induction edits generalizing catalog with
  | nil => rfl
  | cons first rest ih =>
    rw [List.map_cons, List.mem_cons, not_or] at apart
    exact (ih apart.2).trans (find?_edited_of_ne apart.1)

/-- What an edit does to a record depends on that record alone. -/
theorem find?_edited_congr {other : Catalog} {source : String} {edit : TargetEdit}
    (same : catalog.find? edit.target = other.find? edit.target) :
    (catalog.edited source now edit).find? edit.target =
      (other.edited source now edit).find? edit.target :=
  -- An edit keeps the name of the model it is applied to.
  find?_amended_congr (fun _ => TargetEdit.name_apply _ _ _) same

/-- Of edits to different targets, each is applied to the record that was there at first. -/
theorem find?_propagated {source : String} {edits : List TargetEdit}
    (distinct : (edits.map TargetEdit.target).Nodup) {edit : TargetEdit} (listed : edit ∈ edits) :
    (catalog.propagated source now edits).find? edit.target =
      (catalog.edited source now edit).find? edit.target := by
  -- The induction is on the edits: the one in question is the first, and no later one is for its
  -- target, or it is later, and the first is for another one.
  induction edits generalizing catalog with
  | nil => cases listed
  | cons first rest ih =>
    rw [List.map_cons, List.nodup_cons] at distinct
    rcases List.mem_cons.mp listed with rfl | later
    · exact find?_propagated_of_notMem distinct.1
    · have differ : edit.target ≠ first.target := by
        intro same
        exact distinct.1 (same ▸ List.mem_map_of_mem later)
      exact (ih distinct.2 later).trans (find?_edited_congr (find?_edited_of_ne differ))

/-- Store a definition unless it is stored already. -/
def renewed (catalog : Catalog) (definition : Model) (now : Nat) : Catalog :=
  if (catalog.definition? definition.name).any fun before => before.sameAs definition then catalog
  else catalog.written definition now

/-- Storing a definition leaves the records of other names alone. -/
theorem find?_renewed_of_ne (catalog : Catalog) {definition : Model} (now : Nat) {name : String}
    (differ : name ≠ definition.name) :
    (catalog.renewed definition now).find? name = catalog.find? name := by
  -- What is stored already is not written again.
  unfold renewed
  split
  · rfl
  · rw [find?_written, if_neg (Ne.symm differ)]

end Catalog

end ModelCatalog
