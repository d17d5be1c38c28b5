import ModelCatalog.Proofs.DeleteRun
import ModelCatalog.Proofs.GraphWrite

/-! Steps of the relation graph: writing one model, or deleting it, leaves the graph symmetric. -/

namespace ModelCatalog

open WritePlan

/-! ## Writing -/

namespace WritePlan.Sound

variable {context : Context} {old : Option Record} {plan : WritePlan}

/-- The known models after a write: the others revised, and the new version under its name. -/
def graph (sound : plan.Sound context old) : Models :=
  (context.known.map sound.after fun target => name_revised _ _ _ target).insert plan.definition

/-- Under the name of the source stands the new version, and all others are revised. -/
theorem find?_graph (sound : plan.Sound context old) (name : String) :
    sound.graph.find? name =
      if plan.definition.name = name then some plan.definition
      else (context.known.find? name).map sound.after := by
  -- The new version is filed last, over the revised models.
  have own : Named.name plan.definition = plan.definition.name := rfl
  rw [graph, Roster.find?_insert, Roster.find?_map, own]

/-- A model found after a write is the new version, or a revised one. -/
theorem of_find?_graph (sound : plan.Sound context old) {name : String} {model : Model}
    (found : sound.graph.find? name = some model) :
    name = plan.definition.name ∧ model = plan.definition ∨
      name ≠ plan.definition.name ∧ ∃ before, context.known.find? name = some before ∧
        before.name = name ∧ model = sound.after before := by
  -- The name decides whether it is the new version that was found.
  rw [find?_graph] at found
  split at found
  · rename_i same
    cases found
    exact Or.inl ⟨same.symm, rfl⟩
  · rename_i differ
    obtain ⟨before, known, rfl⟩ := Option.map_eq_some_iff.mp found
    exact Or.inr ⟨Ne.symm differ, before, known, Roster.name_of_find? known, rfl⟩

/-- A write over what a symmetric graph holds leaves it symmetric. -/
theorem symmetric_graph (sound : plan.Sound context old)
    (symmetric : Symmetric context.system context.known)
    (stored : context.known.find? plan.definition.name = old.map Record.definition)
    (inCatalog : context.system.contains plan.definition.name = false) :
    Symmetric context.system sound.graph := by
  refine ⟨?_, ?_, ?_⟩
  · -- No new name comes in but that of the source.
    intro name model found
    rcases sound.of_find?_graph found with ⟨rfl, -⟩ | ⟨-, before, known, -⟩
    · exact inCatalog
    · exact symmetric.inCatalog name before known
  · intro name model found
    rcases sound.of_find?_graph found with ⟨-, rfl⟩ | ⟨differ, before, known, rfl, rfl⟩
    · exact sound.tidy
    · exact sound.tidy_after known differ (symmetric.tidy _ before known)
  · -- The relation is one of the new version, or one of another model that leads to the source, or
    -- neither.
    intro name model found field present relation related out
    rcases sound.of_find?_graph found with ⟨rfl, rfl⟩ | ⟨differ, before, known, rfl, rfl⟩
    · -- A relation of the new version has its mate put in place on a model that is known.
      rcases (sound.admitted.relations field present relation related).present with
        own | system | there
      · exact absurd own out.1
      · rw [out.2] at system
        cases system
      · rw [Roster.contains_eq] at there
        obtain ⟨target, targetKnown⟩ := Option.isSome_iff_exists.mp there
        have named : target.name = relation.target := Roster.name_of_find? targetKnown
        refine ⟨sound.after target, ?_, sound.hasMate_after present related out named.symm⟩
        rw [find?_graph, if_neg (Ne.symm out.1), targetKnown, Option.map_some]
    · by_cases back : relation.target = plan.definition.name
      · -- What relates to the source is itself the mate of a relation of the new version.
        have targets : field.targets plan.definition.name = true :=
          Field.targets_iff.mpr ⟨relation, related, back⟩
        obtain ⟨source, inSource, _, -, -, -, mates⟩ := sound.exists_mate_of_mem_after symmetric
          stored inCatalog known differ present targets
        refine ⟨plan.definition, ?_, source, inSource, mates.symm⟩
        rw [find?_graph, if_pos back.symm]
      · -- A relation between two others is not touched on either side.
        have elsewhere : field.targets plan.definition.name = false :=
          (Field.not_targets_iff related).mpr back
        obtain ⟨target, targetKnown, mate, matePresent, mates⟩ := symmetric.mated _ before known
          field ((sound.mem_after_of_not_targets elsewhere).mp present) relation related out
        have mateElsewhere : mate.targets plan.definition.name = false :=
          Field.not_targets_of_ne mates.symm.targets differ
        refine ⟨sound.after target, ?_, mate,
          (sound.mem_after_of_not_targets mateElsewhere).mpr matePresent, ?_⟩
        · rw [find?_graph, if_neg (Ne.symm back), targetKnown, Option.map_some]
        · rw [name_revised]
          exact mates

end WritePlan.Sound

/-! ## Deleting -/

namespace Symmetric

variable {system : SystemModels} {known : Models}

/-- A symmetric graph stays symmetric when a model goes together with all relations to it. -/
theorem stripped (symmetric : Symmetric system known) (gone : String) {other : Models}
    (same : ∀ name, other.find? name =
      if name = gone then none
      else (known.find? name).map fun model => model.stripReferences gone) :
    Symmetric system other := by
  have before : ∀ name model, other.find? name = some model → name ≠ gone ∧
      ∃ earlier, known.find? name = some earlier ∧ earlier.name = name ∧
        model = earlier.stripReferences gone := by
    intro name model found
    rw [same] at found
    split at found
    · cases found
    · rename_i differ
      obtain ⟨earlier, known, rfl⟩ := Option.map_eq_some_iff.mp found
      exact ⟨differ, earlier, known, Roster.name_of_find? known, rfl⟩
  -- What is left of a model are its fields that lead elsewhere.
  have left : ∀ (model : Model) (field : Field), field ∈ (model.stripReferences gone).fields ↔
      field ∈ model.fields ∧ field.targets gone = false := by
    simp [Model.stripReferences]
  refine ⟨?_, ?_, ?_⟩
  · intro name model found
    obtain ⟨-, earlier, known, -⟩ := before name model found
    exact symmetric.inCatalog name earlier known
  · intro name model found
    obtain ⟨differ, earlier, known, rfl, rfl⟩ := before name model found
    have tidy := symmetric.tidy _ earlier known
    refine ⟨tidy.distinct.sublist (List.filter_sublist.map Field.name),
      fun field present => tidy.resolved field ((left _ _).mp present).1, ?_⟩
    -- Self-relations stay, and so do their counterparts.
    intro field present own
    obtain ⟨mate, matePresent, back, named⟩ := tidy.closed field ((left _ _).mp present).1 own
    exact ⟨mate, (left _ _).mpr ⟨matePresent, Field.not_targets_of_ne back differ⟩, back, named⟩
  · intro name model found field present relation related out
    obtain ⟨differ, earlier, known, rfl, rfl⟩ := before name model found
    obtain ⟨inEarlier, away⟩ := (left _ _).mp present
    obtain ⟨target, targetKnown, mate, matePresent, mates⟩ :=
      symmetric.mated _ earlier known field inEarlier relation related out
    have kept : relation.target ≠ gone := (Field.not_targets_iff related).mp away
    refine ⟨target.stripReferences gone, ?_, mate, ?_, mates⟩
    · rw [same, if_neg kept, targetKnown, Option.map_some]
    · -- A mate that leads to a model which stays is not taken away either.
      exact (left _ _).mpr ⟨matePresent, Field.not_targets_of_ne mates.symm.targets differ⟩

end Symmetric

/-! ## Catalogs -/

/-- What the context of a catalog knows are its definitions. -/
@[simp] theorem Configuration.find?_context (configuration : Configuration) (catalog : Catalog)
    (name : String) :
    (configuration.context catalog).known.find? name = catalog.definition? name :=
  -- The known models are made of the catalog.
  Catalog.find?_models catalog name

namespace Catalog

variable {configuration : Configuration} {catalog : Catalog} {old : Option Record}
  {plan : WritePlan} {now : Nat}

/-- All defaults in a catalog are finite, so that every stored definition equals itself. -/
def Finite (catalog : Catalog) : Prop :=
  ∀ name definition, catalog.definition? name = some definition → definition.Finite

/-- A write leaves the graph of a catalog symmetric. -/
theorem symmetric_applied (sound : plan.Sound (configuration.context catalog) old)
    (symmetric : Symmetric configuration.system catalog.models)
    (stored : catalog.find? plan.definition.name = old)
    (inCatalog : configuration.system.contains plan.definition.name = false) (now : Nat) :
    Symmetric configuration.system (catalog.applied plan now).models := by
  have known : (configuration.context catalog).known.find? plan.definition.name =
      old.map Record.definition := by
    rw [Configuration.find?_context, definition?, stored]
  -- Symmetry reads outlines only, so that the graph of the plan stands for the one that is stored.
  refine (sound.symmetric_graph symmetric known inCatalog).of_outline fun name => ?_
  rw [find?_models, sound.find?_graph]
  split
  · -- The definition that stays is the new version but for defaults that are equal numbers.
    rename_i same
    subst same
    obtain ⟨own, found, isNew | ⟨equal, -⟩⟩ := definition?_applied_self sound now
    · rw [found, isNew]
    · rw [found, Option.map_some, Option.map_some, Model.outline_eq_of_sameAs equal]
  · rename_i differ
    rw [definition?_applied sound (Ne.symm differ), Configuration.find?_context]

/-- A write leaves the defaults of a catalog finite. -/
theorem Finite.applied (finite : catalog.Finite)
    (sound : plan.Sound (configuration.context catalog) old) (now : Nat) :
    (catalog.applied plan now).Finite := by
  intro name definition found
  -- The new version was checked; the others are revised from finite ones.
  by_cases same : name = plan.definition.name
  · subst same
    obtain ⟨own, stored, isNew | ⟨-, before⟩⟩ := definition?_applied_self sound now
    · rw [found, Option.some.injEq] at stored
      rw [stored, isNew]
      exact sound.admitted.finite
    · rw [found, Option.some.injEq] at stored
      exact stored ▸ finite _ own before
  · rw [definition?_applied sound same] at found
    obtain ⟨before, stored, rfl⟩ := Option.map_eq_some_iff.mp found
    exact sound.finite_after (finite name before stored)

/-! ## Deletion -/

/-- A deletion takes a model away, and the relations to it from all others. -/
theorem definition?_deleted (catalog : Catalog) (gone : String) (now : Nat) (name : String) :
    (catalog.deleted gone now).definition? name =
      if name = gone then none
      else (catalog.definition? name).map fun model => model.stripReferences gone := by
  -- The record of the model is gone, and every other one is stripped.
  rw [definition?, find?_deleted]
  split
  · rfl
  · rw [Option.map_map, definition?, Option.map_map]
    exact congrArg (Option.map · _) (funext fun record => record.definition_stripped gone now)

/-- A deletion leaves the graph of a catalog symmetric. -/
theorem symmetric_deleted (symmetric : Symmetric configuration.system catalog.models)
    (gone : String) (now : Nat) :
    Symmetric configuration.system (catalog.deleted gone now).models := by
  -- Every model that is left is the stripped one of before.
  refine symmetric.stripped gone fun name => ?_
  rw [find?_models, find?_models, definition?_deleted]

/-- A deletion leaves the defaults of a catalog finite. -/
theorem Finite.deleted (finite : catalog.Finite) (gone : String) (now : Nat) :
    (catalog.deleted gone now).Finite := by
  -- What is left was finite before, and stripping only takes fields away.
  intro name definition found
  rw [definition?_deleted] at found
  split at found
  · cases found
  · obtain ⟨before, stored, rfl⟩ := Option.map_eq_some_iff.mp found
    intro field present
    exact finite name before stored field (List.mem_filter.mp present).1

end Catalog

end ModelCatalog
