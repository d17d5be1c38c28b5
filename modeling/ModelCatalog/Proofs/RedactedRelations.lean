import ModelCatalog.Proofs.Redaction
import ModelCatalog.Proofs.SelfPairing
import ModelCatalog.Proofs.WritePlan

/-! Redacted relations: what relations give rise to, in a model or in others, does not depend on
texts. -/

namespace ModelCatalog

open Resolution

/-! ## Counterparts -/

namespace Model

variable (target : Model) (source fieldName name : String)

/-- Where a counterpart stands does not depend on texts. -/
@[simp] theorem counterpartIndex?_redacted :
    target.redacted.counterpartIndex? source fieldName name =
      target.counterpartIndex? source fieldName name := by
  -- The search goes by outlines, and these are without texts.
  simp [counterpartIndex?, List.findIdx?_map, Function.comp_def]

/-- Removing counterparts goes along with redaction. -/
@[simp] theorem removeCounterpart_redacted :
    target.redacted.removeCounterpart source fieldName name =
      (target.removeCounterpart source fieldName name).redacted := by
  -- What is removed is told by outlines, so redaction and removal may change places.
  simp [removeCounterpart, redacted, List.filter_map, Function.comp_def]

/-- Putting a counterpart in place goes along with redaction. -/
theorem upsertCounterpart_redacted (desired : Field) :
    (target.redacted.upsertCounterpart source fieldName desired.redacted).target =
      (target.upsertCounterpart source fieldName desired).target.redacted := by
  -- The counterpart stands at the same index in both, so the same field is merged or one is added.
  unfold upsertCounterpart
  simp only [counterpartIndex?_redacted, Field.name_redacted]
  cases target.counterpartIndex? source fieldName desired.name with
  | none => simp [redacted]
  | some index =>
    simp only [fields_redacted, List.getElem?_map]
    cases target.fields[index]? with
    | none => simp [redacted]
    | some existing =>
      simp [redacted, Field.redacted_mergeInto, ← List.map_take, ← List.map_drop, List.filter_map,
        Function.comp_def]

end Model

/-! ## Resolution -/

namespace Resolution

variable (context : Context) (old : Option Model) (model snapshot : Model)

/-- The definition that resolution begins with is redacted when the versions are. -/
theorem snapshot_redacted :
    Resolution.snapshot (old.map Model.redacted) model.redacted =
      (Resolution.snapshot old model).redacted := by
  -- Redaction goes along with dropping one counterpart, so it goes along with dropping them all.
  have step : ∀ (name : String) (reached : Model) (pair : Field × Relation),
      dropOne name reached.redacted (pair.1.redacted, pair.2) =
        (dropOne name reached pair).redacted := by
    intro name reached pair
    simp only [dropOne, Field.name_redacted, Model.field?_redacted, Field.counterpartName_redacted,
      Model.removeCounterpart_redacted]
    -- Where the counterpart is gone there is nothing to drop.
    cases reached.field? pair.1.name with
    | none => rfl
    | some kept =>
      simp only [Option.map_some, Field.targets_redacted]
      split <;> rfl
  cases old with
  | none => rfl
  | some old =>
    -- One after the other the counterparts are dropped on both sides.
    have run : ∀ (pairs : List (Field × Relation)) (reached : Model),
        (pairs.map fun pair => (pair.1.redacted, pair.2)).foldl (dropOne model.name)
            reached.redacted =
          (pairs.foldl (dropOne model.name) reached).redacted := by
      intro pairs
      induction pairs with
      | nil => exact fun _ => rfl
      | cons first rest ih =>
        intro reached
        rw [List.map_cons, List.foldl_cons, List.foldl_cons, step, ih]
    simp only [Option.map_some, Resolution.snapshot, dropSelfCounterparts_eq,
      Model.relations_redacted, List.filter_map, Function.comp_def, Model.name_redacted, run]

/-- The inverse name that is filled in does not depend on texts. -/
theorem inverseNameOf_redacted (source fieldName : String) (target : Option Model)
    (previous : Option Relation) (relation : Relation) :
    inverseNameOf source fieldName (target.map Model.redacted) previous relation =
      inverseNameOf source fieldName target previous relation := by
  -- The relation that claims a field is found by names, and so is found alike.
  have claimant : ∀ target : Model,
      claimant target.redacted source fieldName = claimant target source fieldName := by
    intro target
    simp [Resolution.claimant, List.find?_map, Function.comp_def]
  simp only [inverseNameOf, Option.bind_map, Function.comp_def, claimant]

/-- The join table that is filled in does not depend on texts. -/
theorem joinTableOf_redacted (source fieldName : String) (target : Option Model)
    (previous : Option Relation) (relation : Relation) :
    joinTableOf source fieldName (target.map Model.redacted) previous relation =
      joinTableOf source fieldName target previous relation := by
  -- The partner that shares the table is found by names as well.
  have shared : ∀ (target : Model) (name : String),
      sharedJoinTable target.redacted source fieldName name =
        sharedJoinTable target source fieldName name := by
    intro target name
    cases found : target.counterpartIndex? source fieldName name with
    | none => simp [sharedJoinTable, found]
    | some index =>
      -- The field at the place has the relation of the one it was made from.
      cases held : target.fields[index]? <;> simp [sharedJoinTable, found, held]
  simp only [joinTableOf, Option.bind_eq_bind, Option.bind_map, Function.comp_def, shared]

/-- The previous version of a relation does not depend on texts. -/
theorem previousRelation_redacted (fieldName target : String) :
    previousRelation (old.map Model.redacted) fieldName target =
      previousRelation old fieldName target := by
  -- The field of the name is found by its name, and its relation is no text.
  cases old with
  | none => rfl
  | some model =>
    cases found : model.field? fieldName <;> simp [previousRelation, found]

/-- What fills in a relation does not depend on texts. -/
theorem fillRelation_redacted (fieldName : String) (relation : Relation) :
    fillRelation context.redacted (old.map Model.redacted) snapshot.redacted fieldName relation =
      fillRelation context old snapshot fieldName relation := by
  -- The target is looked up alike, whether it is the model that is written or a known one.
  have target : (if relation.target = snapshot.redacted.name then some snapshot.redacted
      else context.redacted.known.find? relation.target) =
      (if relation.target = snapshot.name then some snapshot
        else context.known.find? relation.target).map Model.redacted := by
    rw [Model.name_redacted]
    split
    · rfl
    · exact Models.find?_redacted _ _
  unfold fillRelation
  dsimp only
  rw [target, previousRelation_redacted]
  simp only [inverseNameOf_redacted, joinTableOf_redacted]
  rfl

/-- A field is filled in alike with and without texts. -/
theorem fillField_redacted (field : Field) :
    fillField context.redacted (old.map Model.redacted) snapshot.redacted field.redacted =
      (fillField context old snapshot field).redacted := by
  unfold fillField
  -- Only the kind of a relation is filled in, and redaction leaves relations alone.
  cases kind : field.kind <;> simp [Field.redacted, kind, fillRelation_redacted]

/-- The filled-in definition is redacted when the versions are. -/
theorem filled_redacted :
    filled context.redacted (old.map Model.redacted) model.redacted =
      (filled context old model).redacted := by
  -- Every field is filled in from the snapshot, which is redacted on both sides.
  unfold filled
  rw [snapshot_redacted]
  simp [Model.redacted, ← fillField_redacted, Function.comp_def]

/-- Pairing a relation of a model to itself goes along with redaction. -/
theorem pairSelf_redacted (fieldName : String) :
    pairSelf model.redacted fieldName = (pairSelf model fieldName).map Model.redacted := by
  unfold pairSelf
  simp only [Model.field?_redacted]
  cases model.field? fieldName with
  | none => rfl
  | some field =>
    simp only [Option.map_some, Field.relation?_redacted, Field.counterpart?_redacted,
      Model.name_redacted, Field.name_redacted]
    rcases related : field.relation? with _ | relation
    · -- What is no relation is not paired.
      rfl
    · rw [Field.counterpart?_eq, related, Option.map_some]
      -- The counterpart has no texts of its own.
      have plain := Field.redacted_ofRelation (field.counterpartName model.name)
        (relation.facing model.name field.name)
      generalize Field.ofRelation (field.counterpartName model.name)
        (relation.facing model.name field.name) = counterpart at plain
      have placed := model.upsertCounterpart_redacted model.name field.name counterpart
      rw [plain] at placed
      dsimp only
      by_cases own : counterpart.name = field.name
      · -- A field that is its own counterpart is only checked.
        simp only [own, reduceIte]
        split <;> rfl
      · -- Otherwise its counterpart is put in place.
        simp only [own, reduceIte, placed]
        rfl

/-- Pairing goes along with redaction. -/
theorem pairSelves_redacted :
    pairSelves model.redacted = (pairSelves model).map Model.redacted := by
  -- The same names are paired in the same order, each step going along with redaction.
  have names : model.redacted.selfNames = model.selfNames := by
    simp [Model.selfNames, List.filter_map, Function.comp_def]
  rw [pairSelves_eq, pairSelves_eq, names]
  exact Outcome.foldlM_map pairSelf_redacted _ _

/-- The claims of a definition do not depend on texts. -/
theorem claims_redacted (system : SystemModels) :
    claims system model.redacted = claims system model := by
  -- The relations are the same, and a claim is made of names.
  simp [claims, Model.relations_redacted, List.filterMap_map]

end Resolution

/-- Resolution goes along with redaction. -/
theorem Context.resolve_redacted (context : Context) (old : Option Model) (model : Model) :
    context.redacted.resolve (old.map Model.redacted) model.redacted =
      (context.resolve old model).map Model.redacted := by
  rw [resolve_eq, resolve_eq, filled_redacted, pairSelves_redacted, Outcome.bind_map,
    Outcome.map_bind]
  -- Filling in, pairing and the check of claims go along with redaction one after the other.
  refine Outcome.bind_congr_of_ok fun paired _ => ?_
  rw [claims_redacted, Outcome.map_bind]
  rfl

end ModelCatalog
