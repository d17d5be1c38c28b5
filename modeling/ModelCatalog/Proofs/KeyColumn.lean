import ModelCatalog.Proofs.Formation
import ModelCatalog.Proofs.Refill

/-! The key column: a relation that bears its name, whether for the field, for the other side or for
a column, can come to take it or to leave a definition without it. Where no relation does,
resolution, writes and deletions bring none about, and every definition keeps its key in place. -/

namespace ModelCatalog

/-- A field spares the key unless it is a relation that bears the name of the key column, for
itself, for the other side or for its foreign key. -/
def Field.SparesKey (field : Field) : Prop :=
  ∀ relation, field.relation? = some relation →
    field.name ≠ idName ∧ relation.inverseName ≠ some idName ∧ relation.foreignKey ≠ some idName

instance (field : Field) : Decidable field.SparesKey :=
  inferInstanceAs (Decidable (∀ relation ∈ field.relation?,
    field.name ≠ idName ∧ relation.inverseName ≠ some idName ∧ relation.foreignKey ≠ some idName))

/-- Every relation of a model spares the key. -/
def Model.SparesKey (model : Model) : Prop := ∀ field ∈ model.fields, field.SparesKey

/-! ## Names that are made up -/

/-- The name of a counterpart that nobody has named is not that of the key column. -/
theorem defaultCounterpartName_ne_idName (source : String) :
    defaultCounterpartName source ≠ idName := by
  intro same
  -- It ends in another letter.
  have last := congrArg (fun name : String => name.toList.getLast?) same
  simp [defaultCounterpartName, idName] at last

/-- A column that nobody has named is not the key column. -/
theorem defaultColumnName_ne_idName (name : String) : name ++ "_id" ≠ idName := by
  intro same
  -- It is longer.
  have lengths := congrArg (fun name : String => name.toList.length) same
  simp [idName] at lengths

namespace Field

variable {field : Field} {relation : Relation}

/-- The counterpart of a relation that spares the key has another name. -/
theorem SparesKey.counterpartName_ne (spares : field.SparesKey)
    (related : field.relation? = some relation) (source : String) :
    field.counterpartName source ≠ idName := by
  -- The counterpart has the inverse name if one is given, and a default name otherwise.
  rw [counterpartName_eq related]
  cases given : relation.inverseName with
  | none => exact defaultCounterpartName_ne_idName source
  | some name =>
    rintro rfl
    exact (spares relation related).2.1 given

/-- The counterpart of a relation that spares the key spares it too. -/
theorem SparesKey.counterpart (spares : field.SparesKey)
    (related : field.relation? = some relation) (source : String) :
    (ofRelation (field.counterpartName source) (relation.facing source field.name)).SparesKey := by
  -- It is a relation whose inverse name is that of the field, and its column is left open.
  intro back backRelated
  rw [relation?_ofRelation, Option.some.injEq] at backRelated
  subst backRelated
  refine ⟨spares.counterpartName_ne related source, ?_, ?_⟩
  · simpa [Relation.facing] using (spares relation related).1
  · simp [Relation.facing]

/-- Bringing a field up to date takes over at most the foreign key from what was there. -/
theorem SparesKey.mergeInto {desired existing : Field} (spares : desired.SparesKey)
    (before : existing.SparesKey) : (desired.mergeInto existing).SparesKey := by
  intro merged related
  rw [relation?_eq_some] at related
  cases wanted : desired.kind with
  -- Either field may be a relation or not, and only two relations are mixed.
  | relation new =>
    obtain ⟨apart, inverse, foreignKey⟩ := spares new (relation?_eq_some.mpr wanted)
    cases held : existing.kind with
    | relation old =>
      have kept := (before old (relation?_eq_some.mpr held)).2.2
      simp only [Field.mergeInto, wanted, held, FieldKind.relation.injEq] at related
      subst related
      refine ⟨apart, inverse, ?_⟩
      -- The foreign key is the one that was there where there is a column, else the wanted one.
      dsimp only
      split <;> assumption
    | _ =>
      simp only [Field.mergeInto, wanted, held, FieldKind.relation.injEq] at related
      exact related ▸ ⟨apart, inverse, foreignKey⟩
  | _ =>
    -- What is desired is no relation, and so it is none afterwards.
    cases held : existing.kind <;> simp [Field.mergeInto, wanted, held] at related

/-- The column of a relation that spares the key is another one. -/
theorem SparesKey.columnName_ne (spares : field.SparesKey)
    (related : field.relation? = some relation) : relation.columnName field.name ≠ idName := by
  -- A column that is given spares the key, and no default name is that of the key.
  unfold Relation.columnName
  cases given : relation.foreignKey with
  | none => exact defaultColumnName_ne_idName field.name
  | some column =>
    rintro rfl
    exact (spares relation related).2.2 given

end Field

namespace Model

variable {model target : Model}

/-- Putting a counterpart in place that spares the key brings nothing about that does not. -/
theorem SparesKey.upsertCounterpart (spares : target.SparesKey) (source fieldName : String)
    {desired : Field} (placed : desired.SparesKey) :
    (target.upsertCounterpart source fieldName desired).target.SparesKey := by
  intro field present
  rcases mem_upsertCounterpart.mp present with rfl | ⟨before, -⟩
  · -- What is put in place is the counterpart itself, or merged into the first that pairs.
    rcases upsertCounterpart_cases target source fieldName desired with
      ⟨front, existing, back, fields, -, merged, -⟩ | ⟨-, same, -⟩
    · rw [merged]
      exact placed.mergeInto (spares existing (by simp [fields]))
    · rw [same]
      exact placed
  · exact spares field before

/-- A definition keeps its key in place when it keeps what is no relation, and no relation has borne
the name of the key or comes to take its column. -/
theorem Keyed.of_unrelated (keyed : target.Keyed)
    (same : ∀ field, field.relation? = none → (field ∈ model.fields ↔ field ∈ target.fields))
    (unborne : ∀ field ∈ target.fields, ∀ relation, field.relation? = some relation →
      field.name ≠ idName)
    (free : ∀ field ∈ model.fields, ∀ relation, field.relation? = some relation →
      field.columnName? ≠ some idName) : model.Keyed := by
  rcases keyed with ⟨field, present, named⟩ | without
  · -- The `id` field is no relation, and so it is still there.
    cases related : field.relation? with
    | none => exact Or.inl ⟨field, (same field related).mpr present, named⟩
    | some relation => exact absurd named (unborne field present relation related)
  · -- Nothing took the column of the key, and relations do not come to take it.
    refine Or.inr fun field present => ?_
    cases related : field.relation? with
    | none => exact without field ((same field related).mp present)
    | some relation =>
      refine ⟨?_, free field present relation related⟩
      simp [Field.isKey, Field.relation?_eq_some.mp related]

/-- Where relations spare the key, a definition keeps its key in place when it keeps what is no
relation. -/
theorem Keyed.of_plain (keyed : target.Keyed) (before : target.SparesKey) (spares : model.SparesKey)
    (same : ∀ field, field.relation? = none → (field ∈ model.fields ↔ field ∈ target.fields)) :
    model.Keyed := by
  refine keyed.of_unrelated same (fun field present relation related =>
    (before field present relation related).1) fun field present relation related => ?_
  -- A relation in the definition has a column of another name, or none.
  have apart := (spares field present).columnName_ne related
  simp only [Field.columnName?, Field.relation?_eq_some.mp related]
  split
  · simpa using apart
  · simp

end Model

/-! ## Resolution -/

/-- The relations of all models spare the key. -/
def Models.SparesKey (known : Models) : Prop :=
  ∀ name model, known.find? name = some model → model.SparesKey

namespace Resolution

variable {context : Context} {old : Option Model} {model : Model}

/-- No relation that spares the key claims another one as the field of that name. -/
theorem claimant_ne_idName {target : Model} (spares : target.SparesKey)
    (source fieldName : String) : claimant target source fieldName ≠ some idName := by
  -- What claims the name is a relation, and a relation that spares the key has another name.
  intro claimed
  obtain ⟨field, found, named⟩ := Option.map_eq_some_iff.mp claimed
  have claims := List.find?_some found
  rw [Bool.and_eq_true] at claims
  obtain ⟨relation, related, -⟩ := Field.invertsTo_iff.mp claims.2
  exact (spares field (List.mem_of_find?_eq_some found) relation related).1 named

/-- The previous version of a relation has come from a field that spared the key. -/
theorem inverseName_previousRelation_ne (oldSpares : ∀ before, old = some before → before.SparesKey)
    (fieldName target : String) :
    (previousRelation old fieldName target).bind Relation.inverseName ≠ some idName := by
  intro inherited
  obtain ⟨relation, previous, named⟩ := Option.bind_eq_some_iff.mp inherited
  -- Without an old version nothing is inherited.
  cases old with
  | none => cases previous
  | some before =>
    obtain ⟨field, present, -, related, -⟩ := exists_of_previousRelation previous
    exact (oldSpares before rfl field present relation related).2.1 named

/-- Wherever an inverse name comes from, it is not that of the key column. -/
theorem inverseNameOf_ne_idName {source fieldName : String} {target : Option Model}
    {previous : Option Relation} {relation : Relation} (given : relation.inverseName ≠ some idName)
    (inherited : previous.bind Relation.inverseName ≠ some idName)
    (spares : ∀ other, target = some other → other.SparesKey) :
    inverseNameOf source fieldName target previous relation ≠ some idName := by
  have claimed : (target.bind fun target => claimant target source fieldName) ≠ some idName := by
    intro found
    obtain ⟨other, isTarget, claims⟩ := Option.bind_eq_some_iff.mp found
    exact claimant_ne_idName (spares other isTarget) _ _ claims
  have made : some (defaultCounterpartName source) ≠ some idName := by
    simpa using defaultCounterpartName_ne_idName source
  -- The name is the first of four: given, inherited, claimed or made up.
  simp only [inverseNameOf, ne_eq, Option.or_eq_some_iff, not_or, not_and]
  exact ⟨⟨⟨given, fun _ => inherited⟩, fun _ => claimed⟩, fun _ => made⟩

/-- Fields that are filled in spare the key when all fields there are did so before. -/
theorem sparesKey_filled (spares : model.SparesKey)
    (oldSpares : ∀ before, old = some before → before.SparesKey)
    (knownSpares : context.known.SparesKey) : (filled context old model).SparesKey := by
  -- A definition and its snapshot have the same fields.
  have snapshotSpares : (snapshot old model).SparesKey :=
    fun field present => spares field ((fields_snapshot old model).subset present)
  intro field present relation related
  obtain ⟨before, inSnapshot, rfl⟩ := List.mem_map.mp present
  rw [relation?_fillField] at related
  obtain ⟨given, held, rfl⟩ := Option.map_eq_some_iff.mp related
  obtain ⟨apart, inverse, foreignKey⟩ := snapshotSpares before inSnapshot given held
  rw [fillRelation_eq]
  refine ⟨by rwa [name_fillField], ?_, foreignKey⟩
  -- Only the inverse name is filled in with a name that could be that of the key.
  dsimp only [filledName]
  split
  · exact inverse
  · refine inverseNameOf_ne_idName inverse (inverseName_previousRelation_ne oldSpares _ _)
      fun other isTarget => ?_
    unfold targetOf at isTarget
    split at isTarget
    · exact Option.some.inj isTarget ▸ snapshotSpares
    · exact knownSpares _ other isTarget

end Resolution

open Resolution

/-- Resolution brings no relation about that does not spare the key. -/
theorem Model.SparesKey.resolve {context : Context} {old : Option Model} {model resolved : Model}
    (spares : model.SparesKey) (oldSpares : ∀ before, old = some before → before.SparesKey)
    (knownSpares : context.known.SparesKey) (done : context.resolve old model = .ok resolved) :
    resolved.SparesKey := by
  -- Filling in spares the key, and so does every counterpart that pairing puts in place.
  refine of_pairSelves (fun reached field relation spares present related => ?_)
    (sparesKey_filled spares oldSpares knownSpares) (Context.resolve_eq_ok.mp done).1
  exact spares.upsertCounterpart _ _ ((spares field present).counterpart related _)

/-! ## Writing -/

namespace WritePlan

variable {context : Context} {old : Option Record} {plan : WritePlan} {target : Model}

/-- Insertions of counterparts that spare the key bring none about that does not. -/
theorem sparesKey_applyInsertions {source : String} {insertions : List Insertion}
    (spares : target.SparesKey)
    (placed : ∀ insertion ∈ insertions, insertion.counterpart.SparesKey) :
    (TargetEdit.applyInsertions source target insertions).1.SparesKey := by
  -- Insertions are put in place one by one, each as resolution does it.
  induction insertions generalizing target with
  | nil => exact spares
  | cons first rest ih =>
    exact ih (spares.upsertCounterpart source first.field (placed first List.mem_cons_self))
      fun insertion later => placed insertion (List.mem_cons_of_mem _ later)

/-- What a plan is to store spares the key when everything did that it was made from. -/
theorem sparesKey_of_planWrite {model : Model} (planned : context.planWrite old model = .ok plan)
    (spares : model.SparesKey)
    (oldSpares : ∀ record, old = some record → record.definition.SparesKey)
    (knownSpares : context.known.SparesKey) : plan.definition.SparesKey := by
  -- The plan stores what was resolved, over the stored version.
  obtain ⟨resolved, _, _, _, _, -, done, -, -, -, -, -, rfl⟩ := planWrite_eq_ok.mp planned
  refine spares.resolve (fun before isOld => ?_) knownSpares done
  obtain ⟨record, held, rfl⟩ := Option.map_eq_some_iff.mp isOld
  exact oldSpares record held

namespace Sound

/-- Where the new version spares the key, what a write makes of a target does as the target did. -/
theorem sparesKey_after (sound : plan.Sound context old) (spares : plan.definition.SparesKey)
    (before : target.SparesKey) : (sound.after target).SparesKey := by
  -- What is not removed was there before, and what is put in place faces a field of the new
  -- version.
  refine sparesKey_applyInsertions (fun field present => ?_) fun insertion listed => ?_
  · rw [TargetEdit.fields_applyRemovals, List.mem_filter] at present
    exact before field present.1
  · obtain ⟨field, inSource, relation, related, -, -, rfl⟩ :=
      mem_insertions.mp (mem_insertions_draft.mp listed)
    exact (spares field inSource).counterpart related _

/-- Where relations spare the key, a target keeps its key in place. -/
theorem keyed_after (sound : plan.Sound context old) (spares : plan.definition.SparesKey)
    (before : target.SparesKey) (keyed : target.Keyed) : (sound.after target).Keyed :=
  -- The key is a plain field, and those are not touched.
  keyed.of_plain before (sound.sparesKey_after spares before) fun _ plain =>
    sound.mem_after_of_not_targets (Field.not_targets_of_none plain)

end Sound

end WritePlan

/-! ## Catalogs -/

namespace Catalog

variable {configuration : Configuration} {catalog : Catalog}

/-- Every stored definition spares the key with its relations, and has the key in place. -/
def KeepsKey (catalog : Catalog) : Prop :=
  ∀ name definition, catalog.definition? name = some definition →
    definition.SparesKey ∧ definition.Keyed

/-- The write of a definition that spares the key leaves all keys in place. -/
theorem KeepsKey.applied (keeps : catalog.KeepsKey) {name : String} {declared : Model}
    {plan : WritePlan}
    (planned : (configuration.context catalog).planWrite (catalog.find? name) declared = .ok plan)
    (spares : declared.SparesKey) (now : Nat) : (catalog.applied plan now).KeepsKey := by
  have sound := WritePlan.sound_of_planWrite planned
  have valid := WritePlan.valid_of_planWrite planned
  -- What is stored is made of the definition that was given and of what was stored before.
  have planSpares : plan.definition.SparesKey := by
    refine WritePlan.sparesKey_of_planWrite planned spares (fun record stored => ?_)
      fun other definition known => ?_
    · exact (keeps name record.definition (definition?_of_find? stored)).1
    · rw [Configuration.find?_context] at known
      exact (keeps other definition known).1
  intro other definition found
  by_cases same : other = plan.definition.name
  · -- The new version was checked, unless the one from before stays.
    subst same
    obtain ⟨own, stored, isNew | ⟨-, before⟩⟩ := definition?_applied_self sound now
    all_goals
      rw [found, Option.some.injEq] at stored
      subst stored
    · exact isNew ▸ ⟨planSpares, (Model.validate_eq_ok.mp valid).2⟩
    · exact keeps _ _ before
  · -- Any other definition was edited, or is as it was.
    rw [definition?_applied sound same] at found
    obtain ⟨before, stored, rfl⟩ := Option.map_eq_some_iff.mp found
    obtain ⟨beforeSpares, keyed⟩ := keeps other before stored
    exact ⟨sound.sparesKey_after planSpares beforeSpares,
      sound.keyed_after planSpares beforeSpares keyed⟩

/-- A deletion leaves all other keys in place. -/
theorem KeepsKey.deleted (keeps : catalog.KeepsKey) (gone : String) (now : Nat) :
    (catalog.deleted gone now).KeepsKey := by
  intro name definition found
  rw [definition?_deleted] at found
  split at found
  · cases found
  obtain ⟨before, stored, rfl⟩ := Option.map_eq_some_iff.mp found
  obtain ⟨spares, keyed⟩ := keeps name before stored
  have left : (before.stripReferences gone).SparesKey :=
    fun field present => spares field (List.mem_filter.mp present).1
  refine ⟨left, keyed.of_plain spares left fun field plain => ?_⟩
  -- What is taken away leads to the deleted model, and so it is a relation.
  simp [Model.stripReferences, Field.not_targets_of_none plain]

end Catalog

end ModelCatalog
