import ModelCatalog.Proofs.DeleteRun

/-! Editions: what writing makes of the stored definitions and their versions, whenever it is
done. -/

namespace ModelCatalog

/-- The definition and the version of a record. -/
def Record.edition (record : Record) : Model × Nat := (record.definition, record.version)

namespace Catalog

variable {one other catalog : Catalog} {name : String} {now later : Nat}

/-- The definition and the version stored under a name. -/
def edition? (catalog : Catalog) (name : String) : Option (Model × Nat) :=
  (catalog.find? name).map Record.edition

/-- Equal records are of equal editions. -/
theorem edition?_congr (same : one.find? name = other.find? name) :
    one.edition? name = other.edition? name := by
  -- An edition is read off the record.
  rw [edition?, edition?, same]

/-- The stored definition is part of the edition. -/
theorem definition?_eq_of_edition? (same : one.edition? name = other.edition? name) :
    one.definition? name = other.definition? name := by
  -- An edition begins with the definition.
  have first : ∀ catalog : Catalog, catalog.definition? name =
      (catalog.edition? name).map Prod.fst := by
    intro catalog
    rw [edition?, Option.map_map]
    rfl
  rw [first, first, same]

/-- The edition that a write leaves behind depends on the one before. -/
theorem edition_successor (current : Option Record) (definition : Model) (now : Nat) :
    (Store.successor current definition now).edition =
      (definition, ((current.map Record.edition).map fun before => before.2 + 1).getD 1) := by
  -- With or without an earlier record the version is one more.
  cases current <;> rfl

/-- What a change makes of an edition depends on that edition alone. -/
theorem edition?_amended_congr {createMissing : Bool} {change : Model → Model × Bool}
    (keepsName : ∀ model, (change model).1.name = model.name)
    (same : one.edition? name = other.edition? name) :
    (one.amended name createMissing change now).edition? name =
      (other.amended name createMissing change later).edition? name := by
  -- The change begins from the definition, and the version is counted on.
  have begins : other.start? name createMissing = one.start? name createMissing := by
    rw [start?, start?, definition?_eq_of_edition? same]
  unfold amended
  rw [begins]
  split
  · -- There is nothing to begin with, and so there is no change.
    exact same
  · rename_i before isStart
    split
    · -- The changed model is stored under the same name, one version further.
      have own : (change before).1.name = name := by
        rw [keepsName, name_of_start? isStart]
      rw [edition?, edition?, find?_written, find?_written, if_pos own, if_pos own, own,
        Option.map_some, Option.map_some, edition_successor, edition_successor]
      unfold edition? at same
      rw [same]
    · -- A change without effect is not written.
      exact same

/-- What becomes of an edition when a definition is stored depends on that edition alone. -/
theorem edition?_renewed_congr {definition : Model}
    (same : one.edition? definition.name = other.edition? definition.name) :
    (one.renewed definition now).edition? definition.name =
      (other.renewed definition later).edition? definition.name := by
  -- Whether the definition is stored anew depends on the one that is there.
  unfold renewed
  rw [definition?_eq_of_edition? same]
  split
  · exact same
  · rw [edition?, edition?, find?_written, find?_written, if_pos rfl, if_pos rfl, Option.map_some,
      Option.map_some, edition_successor, edition_successor]
    unfold edition? at same
    rw [same]

/-- An edit leaves the edition it makes of the one before. -/
theorem edition?_edited_congr {source : String} {edit : TargetEdit}
    (same : one.edition? edit.target = other.edition? edit.target) :
    (one.edited source now edit).edition? edit.target =
      (other.edited source later edit).edition? edit.target :=
  -- An edit is a change that keeps the name of its target.
  edition?_amended_congr (fun _ => TargetEdit.name_apply _ _ _) same

/-- A deletion takes an edition away, and every other one loses its relations to it, which makes
another version where there were any. -/
theorem edition?_deleted (catalog : Catalog) (gone : String) (now : Nat) (name : String) :
    (catalog.deleted gone now).edition? name =
      if name = gone then none
      else (catalog.edition? name).map fun edition =>
        (edition.1.stripReferences gone, edition.2 + if edition.1.references gone then 1 else 0) := by
  rw [edition?, find?_deleted]
  -- A record that does not refer to the deleted model keeps its version with its definition.
  split
  · rfl
  · rw [Option.map_map, edition?, Option.map_map]
    refine congrArg (Option.map · _) (funext fun record => ?_)
    show (record.stripped gone now).edition = _
    rw [Record.edition, Record.definition_stripped]
    unfold Record.stripped
    split <;> rename_i refers <;> simp [Record.edition, Record.next, refers]

/-- What becomes of an edition in a deletion depends on that edition alone. -/
theorem edition?_deleted_congr {gone : String} (same : one.edition? name = other.edition? name) :
    (one.deleted gone now).edition? name = (other.deleted gone later).edition? name := by
  -- The model itself goes, and another one is a function of what it was.
  rw [edition?_deleted, edition?_deleted, same]

/-- What becomes of an edition in a write depends on that edition alone, when the model is none of
the targets of its edits and each target is edited once. -/
theorem edition?_applied_congr {plan : WritePlan}
    (distinct : (plan.edits.map TargetEdit.target).Nodup)
    (apart : plan.definition.name ∉ plan.edits.map TargetEdit.target)
    (same : one.edition? name = other.edition? name) :
    (one.applied plan now).edition? name = (other.applied plan later).edition? name := by
  rw [applied, applied]
  -- The own record is renewed at the end, and of the others the targets are edited.
  by_cases own : name = plan.definition.name
  · subst own
    refine edition?_renewed_congr ?_
    rwa [edition?_congr (find?_propagated_of_notMem apart),
      edition?_congr (find?_propagated_of_notMem apart)]
  · rw [edition?_congr (find?_renewed_of_ne _ _ own), edition?_congr (find?_renewed_of_ne _ _ own)]
    by_cases isTarget : name ∈ plan.edits.map TargetEdit.target
    · obtain ⟨edit, listed, rfl⟩ := List.mem_map.mp isTarget
      rw [edition?_congr (find?_propagated distinct listed),
        edition?_congr (find?_propagated distinct listed)]
      exact edition?_edited_congr same
    · rwa [edition?_congr (find?_propagated_of_notMem isTarget),
        edition?_congr (find?_propagated_of_notMem isTarget)]

/-- Edits are applied without their statements. -/
theorem propagated_plain (catalog : Catalog) (source : String) (now : Nat)
    (edits : List TargetEdit) :
    catalog.propagated source now (edits.map TargetEdit.plain) =
      catalog.propagated source now edits := by
  -- An edit does to the records what it would do without its columns.
  induction edits generalizing catalog with
  | nil => rfl
  | cons first rest ih => exact ih _

/-- Edits that differ in their statements make the same changes. -/
theorem propagated_congr {source : String} {first second : List TargetEdit}
    (same : first.map TargetEdit.plain = second.map TargetEdit.plain) :
    catalog.propagated source now first = catalog.propagated source now second := by
  -- Both are carried out as their plain edits are.
  rw [← propagated_plain catalog source now first, same, propagated_plain]

end Catalog

end ModelCatalog
