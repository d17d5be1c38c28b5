import ModelCatalog.Proofs.Validation
import ModelCatalog.Sql.Synthesis

/-! Compilation: whether a column can be declared depends on the outline of its field alone, and
every definition that is valid can be compiled. -/

namespace ModelCatalog

namespace Context

variable {context : Context} {model : Model} {field twin : Field}

/-- Whether a foreign-key column can be declared depends on the names. -/
theorem exists_foreignKeyColumn_congr (other : Context) (otherModel : Model)
    {relation : Relation} {column : Column} (name : field.name = twin.name)
    (done : context.foreignKeyColumn model field relation = .ok column) :
    ∃ again, other.foreignKeyColumn otherModel twin relation = .ok again := by
  unfold foreignKeyColumn at done ⊢
  -- The two names are checked, that of the column and that of the target, and they are the same.
  obtain ⟨columnName, named, done⟩ := Outcome.bind_eq_ok.mp done
  obtain ⟨table, targeted, -⟩ := Outcome.bind_eq_ok.mp done
  rw [name] at named
  exact ⟨_, Outcome.bind_eq_ok.mpr ⟨columnName, named,
    Outcome.bind_eq_ok.mpr ⟨table, targeted, rfl⟩⟩⟩

/-- Whether a column can be declared, and whether there is one, depends on the outline of the
field. -/
theorem exists_column_congr (other : Context) (otherModel : Model) {column : Option Column}
    (same : field.outline = twin.outline) (done : context.column model field = .ok column) :
    ∃ again, other.column otherModel twin = .ok again ∧ again.isSome = column.isSome := by
  simp only [Field.outline, Prod.mk.injEq] at same
  obtain ⟨name, kind⟩ := same
  unfold Context.column at done ⊢
  obtain ⟨identifier, named, done⟩ := Outcome.bind_eq_ok.mp done
  rw [name] at named
  rw [kind] at done
  -- Each kind of field has a column or none whatever the names are.
  cases held : twin.kind with
  | scalar type primary autoIncrement =>
    simp only [held] at done
    cases autoIncrement <;>
    · simp only [Bool.false_eq_true, reduceIte, Outcome.pure_eq_ok] at done
      exact ⟨_, Outcome.bind_eq_ok.mpr ⟨identifier, named, rfl⟩, by simp [← done]⟩
  | choice options =>
    simp only [held, Outcome.pure_eq_ok] at done
    exact ⟨_, Outcome.bind_eq_ok.mpr ⟨identifier, named, rfl⟩, by rw [← done]; rfl⟩
  | relation relation =>
    simp only [held] at done
    -- A relation has a column of its own where the foreign key is on its side.
    split at done
    · rename_i owned
      obtain ⟨key, made, done⟩ := Outcome.bind_eq_ok.mp done
      obtain ⟨again, remade⟩ := exists_foreignKeyColumn_congr other otherModel name made
      refine ⟨some again, Outcome.bind_eq_ok.mpr ⟨identifier, named, ?_⟩, ?_⟩
      · simp only
        rw [if_pos owned]
        exact Outcome.bind_eq_ok.mpr ⟨again, remade, rfl⟩
      · rw [← Outcome.pure_eq_ok.mp done]
        rfl
    · rename_i notOwned
      refine ⟨none, Outcome.bind_eq_ok.mpr ⟨identifier, named, ?_⟩, ?_⟩
      · simp only
        rw [if_neg notOwned]
        rfl
      · rw [← Outcome.pure_eq_ok.mp done]

/-- What is built from an identifier is built behind the check of its name. -/
theorem exists_of_check {α : Type} {name : String} (valid : isIdentifier name = true)
    {next : Identifier → Except Error α}
    (goes : ∀ identifier, ∃ result, next identifier = .ok result) :
    ∃ result, (Identifier.check name >>= next) = .ok result := by
  -- The name passes the check, and from its identifier on there is a result.
  obtain ⟨identifier, checked⟩ := Identifier.exists_checkAt_eq_ok.mpr valid
  obtain ⟨result, done⟩ := goes identifier
  exact ⟨result, Outcome.bind_eq_ok.mpr ⟨identifier, checked, done⟩⟩

/-- A formed field has its column declared, if it has one. -/
theorem exists_column_of_formed {system : SystemModels} {known : Models}
    (formed : field.Formed system known model.name) :
    ∃ column, context.column model field = .ok column := by
  refine exists_of_check formed.name fun name => ?_
  -- The name is checked in every case, and a relation that owns its column has that checked as
  -- well.
  cases kind : field.kind with
  | scalar type primary autoIncrement =>
    cases autoIncrement <;> exact ⟨_, rfl⟩
  | choice options => exact ⟨_, rfl⟩
  | relation relation =>
    have admitted := (formed.relation relation (Field.relation?_eq_some.mpr kind)).toAdmitted
    simp only
    split
    · rename_i owned
      obtain ⟨column, made⟩ :
          ∃ column, context.foreignKeyColumn model field relation = .ok column :=
        exists_of_check (admitted.column owned) fun _ =>
          exists_of_check admitted.target fun _ => ⟨_, rfl⟩
      exact ⟨some column, Outcome.bind_eq_ok.mpr ⟨column, made, rfl⟩⟩
    · exact ⟨none, rfl⟩

/-- A formed field has its join table declared, if it has one. -/
theorem exists_joinTable_of_formed {system : SystemModels} {known : Models}
    (owner : isIdentifier model.name = true) (formed : field.Formed system known model.name) :
    ∃ statement, context.joinTable model field = .ok statement := by
  unfold joinTable
  -- Five names are checked on the way, and the rules ask for each of them.
  cases kind : field.kind with
  | relation relation =>
    have admitted := (formed.relation relation (Field.relation?_eq_some.mpr kind)).toAdmitted
    simp only
    split
    · rename_i uses
      obtain ⟨table, left, right⟩ := admitted.joinTable uses
      exact exists_of_check left fun _ => exists_of_check right fun _ =>
        exists_of_check table fun _ => exists_of_check owner fun _ =>
          exists_of_check admitted.target fun _ => ⟨_, rfl⟩
    · exact ⟨none, rfl⟩
  | _ => exact ⟨none, rfl⟩

/-- A definition can be compiled exactly when it is valid. -/
theorem exists_synthesize_iff :
    (∃ synthesis, context.synthesize model = .ok synthesis) ↔
      model.validate context.system context.known = .ok () := by
  unfold synthesize
  simp only [Outcome.unit_bind_eq_ok, exists_and_left]
  -- What follows the check fails for no definition that has passed it.
  refine and_iff_left_of_imp fun valid => ?_
  have formed := (Model.validate_eq_ok.mp valid).1
  obtain ⟨columns, declared⟩ := Outcome.exists_mapM_eq_ok fun field present =>
    @exists_column_of_formed context model field _ _ (formed.fields field present)
  obtain ⟨joins, joined⟩ := Outcome.exists_mapM_eq_ok fun field present =>
    @exists_joinTable_of_formed context model field _ _ formed.name (formed.fields field present)
  exact exists_of_check formed.name fun table => ⟨_, Outcome.bind_eq_ok.mpr ⟨columns, declared,
    Outcome.bind_eq_ok.mpr ⟨joins, joined, rfl⟩⟩⟩

end Context

end ModelCatalog
