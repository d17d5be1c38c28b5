import ModelCatalog.Proofs.GraphSteps
import ModelCatalog.Proofs.ReconcileRun
import ModelCatalog.Proofs.RepairTurns

/-! Steps of the relation graph: repair leaves the graph symmetric, and all defaults finite. -/

namespace ModelCatalog

open RepairPlan

/-- A definition has finite defaults when it has no others than one that has. -/
theorem Model.Finite.of_defaults {before after : Model} (finite : before.Finite)
    (fewer : after.defaults.Sublist before.defaults) : after.Finite := by
  intro field present value held
  -- A default of the later definition is one of the earlier, where some field has it.
  obtain ⟨earlier, inBefore, same⟩ :=
    List.mem_filterMap.mp (fewer.subset (List.mem_filterMap.mpr ⟨field, present, held⟩))
  exact finite earlier inBefore value same

/-! ## Catalogs -/

namespace Catalog

variable {catalog : Catalog}

/-- A definition after a repair was there before, or it is a repaired one. -/
theorem of_definition?_reconciled {system : SystemModels} {now : Nat} {name : String}
    {final : Model} (found : (catalog.reconciled system now).definition? name = some final) :
    catalog.definition? name = some final ∨
      (catalog.repairedModels system).find? name = some final := by
  by_cases listed : name ∈ (catalog.updates system).map fun update => update.1.name
  · -- An update has put the repaired definition in place.
    obtain ⟨⟨model, version⟩, member, rfl⟩ := List.mem_map.mp listed
    rw [reconciled, definition?_rewritten (nodup_names_updates catalog system) member,
      Option.some.injEq] at found
    exact Or.inr (found ▸ (mem_updates.mp member).1)
  · rw [reconciled, definition?, find?_rewritten_of_notMem listed] at found
    exact Or.inl found

/-- A repair leaves the defaults of a catalog finite. -/
theorem Finite.reconciled (finite : catalog.Finite) (system : SystemModels) (now : Nat) :
    (catalog.reconciled system now).Finite := by
  intro name final found
  rcases of_definition?_reconciled found with before | repaired
  · exact finite name final before
  · -- A repair brings no defaults.
    obtain ⟨before, stored, fewer⟩ :=
      (defaultsFrom_repair system catalog.models _).fewer name final repaired
    rw [find?_models] at stored
    exact (finite name before stored).of_defaults fewer

/-- Where a repair neither adds nor loses models, the outlines after it are those of the repaired
definitions. -/
theorem outline_reconciled {system : SystemModels}
    (same : ∀ name, ((catalog.repairedModels system).find? name).isSome =
      (catalog.definition? name).isSome) (now : Nat) (name : String) :
    ((catalog.reconciled system now).definition? name).map Model.outline =
      ((catalog.repairedModels system).find? name).map Model.outline := by
  have alike := same name
  cases stored : catalog.definition? name with
  -- What is not there is not repaired, and stays missing.
  | none =>
    rw [stored, Option.isSome_none, Option.isSome_eq_false_iff, Option.isNone_iff_eq_none] at alike
    have missing : catalog.find? name = none := by
      rw [definition?, Option.map_eq_none_iff] at stored
      exact stored
    rw [definition?, find?_reconciled_of_missing missing, alike]
    rfl
  | some before =>
    rw [stored, Option.isSome_some] at alike
    obtain ⟨after, repaired⟩ := Option.isSome_iff_exists.mp alike
    obtain ⟨final, found, isRepaired | ⟨kept, equal⟩⟩ := definition?_reconciled stored repaired
    · rw [found, repaired, isRepaired]
    · -- A definition that stays differs at most in defaults that are equal numbers.
      rw [found, repaired, kept, Option.map_some, Option.map_some,
        Model.outline_eq_of_sameAs equal]

/-- A repair leaves the graph of a catalog symmetric. -/
theorem symmetric_reconciled (symmetric : Symmetric system catalog.models) (now : Nat) :
    Symmetric system (catalog.reconciled system now).models := by
  -- A symmetric graph has nothing to be pruned, and mending it keeps the outlines of its models.
  have repaired := repaired_of_mendable
    (symmetric.mendable.pruneAll_eq (.untouched catalog.members.length)) symmetric.mendable
  refine (symmetric.repair (.untouched catalog.members.length)).of_outline fun name => ?_
  rw [find?_models]
  refine outline_reconciled (fun other => ?_) now name
  rw [← find?_models]
  exact repaired.same other

end Catalog

end ModelCatalog
