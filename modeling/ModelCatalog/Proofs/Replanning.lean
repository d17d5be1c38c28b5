import ModelCatalog.Proofs.Columns
import ModelCatalog.Proofs.WritePlan

/-! Planning again: what can be planned once can be planned where part of it is done. -/

namespace ModelCatalog

/-- Whether a column can be added to a table depends on the table. -/
theorem Statement.exists_addColumnTo_congr {table : String} {column : Column}
    {statement : Statement} (done : addColumnTo table column = .ok statement) (other : Column) :
    ∃ again, addColumnTo table other = .ok again := by
  -- Only the name of the table is checked, and it is the same name.
  unfold addColumnTo at done ⊢
  cases checked : Identifier.check table with
  | ok name => exact ⟨_, rfl⟩
  | error error =>
    rw [checked] at done
    cases done

/-- The statement for a column can be made again where the column can be declared again. -/
theorem Statement.exists_ofColumn_congr {table : String}
    {first second : Except Error (Option Column)}
    {make : Option Column → Except Error (Option Statement)} {statement : Option Statement}
    (done : (first >>= make) = .ok statement)
    (again : ∀ declared, first = .ok declared →
      ∃ twin, second = .ok twin ∧ twin.isSome = declared.isSome)
    (onNone : make none = .ok none)
    (onSome : ∀ column, make (some column) = (addColumnTo table column >>= fun added =>
      pure (some added))) : ∃ remade, (second >>= make) = .ok remade := by
  obtain ⟨declared, isDeclared, made⟩ := Outcome.bind_eq_ok.mp done
  obtain ⟨twin, redeclared, alike⟩ := again declared isDeclared
  -- What was made for the first is made for the twin: nothing where there is no column, and
  -- otherwise an addition to the same table.
  cases twin with
  | none => exact ⟨none, Outcome.bind_eq_ok.mpr ⟨none, redeclared, onNone⟩⟩
  | some recolumn =>
    rw [Option.isSome_some] at alike
    obtain ⟨column, rfl⟩ := Option.isSome_iff_exists.mp alike.symm
    rw [onSome] at made
    obtain ⟨added, isAdded, -⟩ := Outcome.bind_eq_ok.mp made
    obtain ⟨readded, isReadded⟩ := exists_addColumnTo_congr isAdded recolumn
    refine ⟨some readded, Outcome.bind_eq_ok.mpr ⟨some recolumn, redeclared, ?_⟩⟩
    rw [onSome]
    exact Outcome.bind_eq_ok.mpr ⟨readded, isReadded, rfl⟩

namespace TargetEdit

variable {context other : Context} {source target : Model} {edit : TargetEdit}

/-- A counterpart in place collides with nothing. -/
theorem collision_of_placed {insertion : Insertion} (faces : insertion.Faces source.name)
    (distinct : (target.fields.map Field.name).Nodup)
    (placed : insertion.PlacedIn source.name target) :
    collision source target insertion = none := by
  -- The counterpart is there under its name and leads back, which is not a collision.
  obtain ⟨mate, present, current⟩ := placed.exists_mem
  have named : mate.name = insertion.counterpart.name := by
    rw [← current]
    rfl
  obtain ⟨relation, related, leads, inverse⟩ :=
    Field.invertsTo_iff.mp (faces.invertsTo_of_current current)
  have found := Model.field?_of_mem distinct present
  rw [named] at found
  simp [collision, found, related, leads, inverse]

/-- A settled edit collides with nothing. -/
theorem checkCollisions_of_settled (faces : ∀ insertion ∈ edit.insertions,
      insertion.Faces source.name)
    (distinct : (target.fields.map Field.name).Nodup)
    (settled : edit.SettledIn source.name target) :
    checkCollisions source target edit.insertions = .ok () := by
  -- The edit as a whole is not needed, only that each of its insertions is in place.
  have placed := settled.placed
  generalize edit.insertions = insertions at faces placed
  induction insertions with
  | nil => rfl
  | cons first rest ih =>
    rw [checkCollisions, collision_of_placed (faces first List.mem_cons_self) distinct
      (placed first List.mem_cons_self)]
    exact ih (fun insertion later => faces insertion (List.mem_cons_of_mem _ later))
      (fun insertion later => placed insertion (List.mem_cons_of_mem _ later))

/-- The fields of a target that stays as it is have no new columns. -/
theorem columnFor_self (context : Context) (source : String) (target : Model)
    (insertion : Insertion) : columnFor context source target target insertion = .ok none := by
  unfold columnFor
  -- A counterpart is only given a column when its own is not among those of the target before.
  cases found : target.counterpartIndex? source insertion.field insertion.counterpart.name with
  | none => rfl
  | some index =>
    cases there : target.fields[index]? with
    | none =>
      simp only [Option.bind_eq_bind, Option.bind_some, there]
      rfl
    | some field =>
      -- A column of the field is one of those of the target.
      have old : (field.columnName?.any fun column => !target.columnNames.contains column) =
          false := by
        cases named : field.columnName? with
        | none => rfl
        | some column =>
          have listed : column ∈ target.columnNames :=
            Model.mem_columnNames (List.mem_of_getElem? there) named
          simpa using listed
      simp only [Option.bind_eq_bind, Option.bind_some, there, old, Bool.false_eq_true, reduceIte]
      rfl

/-- A settled edit is complete where its target fits. -/
theorem complete_of_settled (context : Context) (orderly : edit.Orderly source.name)
    (settled : edit.SettledIn source.name target)
    (comparable : Field.sameList target.fields target.fields = true)
    (fits : checkFit source.name target = .ok ()) :
    ∃ done, edit.complete context source target = .ok done := by
  -- Applied to such a target the edit changes nothing, so the target is fit as it was.
  have unchanged := settled.apply_eq comparable
  obtain ⟨columns, made⟩ : ∃ columns, edit.insertions.mapM
      (columnFor context source.name target target) = .ok columns :=
    Outcome.exists_mapM_eq_ok fun insertion _ => ⟨none, columnFor_self _ _ _ _⟩
  refine ⟨_, complete_eq_ok.mpr ⟨?_, ?_, columns, ?_, rfl⟩⟩
  · exact checkCollisions_of_settled orderly.faces (checkFit_eq_ok.mp fits).2.1 settled
  · rw [unchanged]
    exact fits
  · rw [unchanged]
    exact made

/-- Whether an edit is complete does not depend on what is known of other models. -/
theorem exists_complete_congr {done : TargetEdit} (other : Context)
    (completed : edit.complete context source target = .ok done) :
    ∃ again, edit.complete other source target = .ok again := by
  obtain ⟨collisions, fits, columns, made, -⟩ := complete_eq_ok.mp completed
  obtain ⟨again, remade⟩ : ∃ again, edit.insertions.mapM
      (columnFor other source.name target (edit.apply source.name target).1) = .ok again := by
    -- The same fields need columns, and each that could be declared can be declared again.
    refine Outcome.exists_mapM_eq_ok fun insertion listed => ?_
    obtain ⟨column, -, compiled⟩ := Outcome.exists_of_mapM_eq_ok made listed
    unfold columnFor at compiled ⊢
    dsimp only at compiled ⊢
    -- The two cases without a column are the same for both contexts.
    split at compiled
    · exact ⟨none, rfl⟩
    · split at compiled
      · rename_i isNew
        rw [if_pos isNew]
        exact Statement.exists_ofColumn_congr compiled
          (fun _ isDeclared => Context.exists_column_congr other _ rfl isDeclared) rfl
          fun _ => rfl
      · rename_i isOld
        rw [if_neg isOld]
        exact ⟨none, rfl⟩
  exact ⟨_, complete_eq_ok.mpr ⟨collisions, fits, again, remade, rfl⟩⟩

end TargetEdit

namespace WritePlan

variable {context other : Context} {model : Model}

/-- Whether the columns of a new version can be added does not depend on what is known of other
models. -/
theorem exists_ownColumns_congr (other : Context) {old : Option Model}
    {statements : List Statement} (done : ownColumns context old model = .ok statements) :
    ∃ again, ownColumns other old model = .ok again := by
  -- A first version adds no columns, and another adds those of the fields that are new.
  cases old with
  | none => exact ⟨[], rfl⟩
  | some before =>
    obtain ⟨columns, made, -⟩ := Outcome.bind_eq_ok.mp done
    obtain ⟨again, remade⟩ := Outcome.exists_mapM_eq_ok
        fun field (listed : field ∈ model.fieldsWithNewColumns before) => by
      obtain ⟨statement, -, compiled⟩ := Outcome.exists_of_mapM_eq_ok made listed
      exact Statement.exists_ofColumn_congr compiled
        (fun _ isDeclared => Context.exists_column_congr other model rfl isDeclared) rfl
        fun _ => rfl
    exact ⟨_, Outcome.bind_eq_ok.mpr ⟨again, remade, rfl⟩⟩

/-- Edits can be planned when every draft for a known target is complete. -/
theorem exists_propagation {after : Context} {source : Model} {removed : List Field}
    (each : ∀ draft ∈ drafts context source removed, ∀ target,
      context.known.find? draft.target = some target →
        ∃ done, draft.complete after source target = .ok done) :
    ∃ edits, propagation context after source removed = .ok edits := by
  -- A target that is not known has nothing to complete.
  refine Outcome.exists_mapM_eq_ok fun draft drafted => ?_
  cases known : context.known.find? draft.target with
  | none => exact ⟨draft, rfl⟩
  | some target => exact each draft drafted target known

/-- A write that was planned once can be planned over another version and among other versions of
the models that are known, when the definition is resolved to one that is alike and what depends on
the versions can be planned. -/
theorem exists_planWrite (later : Context) {old : Option Record} (older : Option Record)
    {declared resolved : Model} {plan : WritePlan}
    (planned : context.planWrite old declared = .ok plan)
    (system : later.system = context.system)
    (known : ∀ name, name ≠ declared.name →
      later.known.contains name = context.known.contains name)
    (done : later.resolve (older.map Record.definition) declared = .ok resolved)
    (named : resolved.name = plan.definition.name)
    (alike : resolved.outline = plan.definition.outline) (finite : resolved.Finite)
    (drops : ∃ drops, (changes later.system older resolved).obsoleteTables.mapM
      Statement.dropTableOf = .ok drops)
    (columns : ∃ columns, ownColumns (later.withModel resolved) (older.map Record.definition)
      resolved = .ok columns)
    (edits : ∃ edits, propagation later (later.withModel resolved) resolved
      (changes later.system older resolved).removed = .ok edits) :
    ∃ again, later.planWrite older declared = .ok again ∧ again.definition = resolved := by
  obtain ⟨drops, dropped⟩ := drops
  obtain ⟨columns, added⟩ := columns
  obtain ⟨edits, propagated⟩ := edits
  obtain ⟨first, _, _, _, _, valid, firstDone, firstValid, -, -, -, -, rfl⟩ :=
    planWrite_eq_ok.mp planned
  -- The plan is put together from its parts again, and what is left are the three validations.
  have admitted := Model.admitted_of_validate valid
  have own : resolved.name = declared.name :=
    named.trans (Context.name_of_resolve admitted.distinct firstDone)
  -- The checks ask which other models are known, and that has not changed.
  have validAgain : declared.validate later.system later.known = .ok () := by
    rw [system, ← valid]
    exact Model.validate_congr rfl rfl admitted.finite admitted.finite known
  have firstFinite := (Model.admitted_of_validate firstValid).finite
  have resolvedValid : resolved.validate later.system later.known = .ok () := by
    rw [system, ← firstValid]
    exact Model.validate_congr named alike finite firstFinite fun name differ =>
      known name (own ▸ differ)
  -- To file the definition itself does not change which other models are known.
  have validAfter : resolved.validate (later.withModel resolved).system
      (later.withModel resolved).known = .ok () := by
    rw [← resolvedValid]
    refine Model.validate_congr rfl rfl finite finite fun name differ => ?_
    have inserted : Named.name resolved ≠ name := Ne.symm differ
    rw [Context.withModel, Roster.contains_eq, Roster.contains_eq, Roster.find?_insert,
      if_neg inserted]
  obtain ⟨synthesisAgain, madeAgain⟩ := Context.exists_synthesize_iff.mpr validAfter
  exact ⟨_, planWrite_eq_ok.mpr ⟨resolved, drops, synthesisAgain, columns, edits, validAgain, done,
    resolvedValid, dropped, madeAgain, added, propagated, rfl⟩, rfl⟩

end WritePlan

end ModelCatalog
