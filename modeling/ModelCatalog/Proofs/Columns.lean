import ModelCatalog.Proofs.Counterpart

/-! Columns and join tables: those of a model are those of its fields, and depend on the outline of
the model alone. -/

namespace ModelCatalog

/-- The join table of a field of a model, if it has one. -/
def Field.joinTable? (field : Field) (model : String) : Option String :=
  field.relation?.bind fun relation =>
    if relation.kind.usesJoinTable then some (relation.joinTableName model field.name) else none

namespace Model

variable {model twin : Model} {field : Field}

/-- The column of a field is one of those of its model. -/
theorem mem_columnNames {column : String} (present : field ∈ model.fields)
    (named : field.columnName? = some column) : column ∈ model.columnNames := by
  -- The key column may stand before those of the fields, but takes none of them away.
  have declared : column ∈ model.fields.filterMap Field.columnName? :=
    List.mem_filterMap.mpr ⟨field, present, named⟩
  unfold columnNames
  dsimp only
  split
  · exact List.mem_cons_of_mem _ declared
  · exact declared

/-- Every column of a model is the key column or that of a field. -/
theorem of_mem_columnNames {column : String} (listed : column ∈ model.columnNames) :
    column = idName ∨ ∃ field ∈ model.fields, field.columnName? = some column := by
  -- The key column is added only to a model without a field of that name.
  unfold columnNames at listed
  dsimp only at listed
  split at listed
  · exact (List.mem_cons.mp listed).imp id List.mem_filterMap.mp
  · exact Or.inr (List.mem_filterMap.mp listed)

/-- A model has the key column unless it has a relation of that name. -/
theorem idName_mem_columnNames
    (keyed : ∀ field ∈ model.fields, field.name = idName → field.relation? = none) :
    idName ∈ model.columnNames := by
  cases found : model.field? idName with
  -- Where no field has the name, the column is put in front.
  | none =>
    unfold columnNames
    rw [found]
    exact List.mem_cons_self
  | some field =>
    obtain ⟨present, named⟩ := mem_of_field? found
    -- A field that is no relation has a column of its own name.
    refine mem_columnNames present ?_
    have plain := keyed field present named
    unfold Field.relation? at plain
    unfold Field.columnName?
    split
    · simp only [*] at plain
      cases plain
    · rw [named]

/-- The join tables of a model are those of its fields. -/
theorem mem_joinTableNames {table : String} :
    table ∈ model.joinTableNames ↔
      ∃ field ∈ model.fields, field.joinTable? model.name = some table := by
  -- The relations are gathered first and their tables then, which comes to one gathering.
  simp only [joinTableNames, relations, List.filterMap_filterMap, List.mem_filterMap,
    Field.joinTable?]
  refine exists_congr fun field => and_congr_right fun _ => ?_
  cases field.relation? <;> rfl

/-- What is gathered from the outlines of fields is the same for models of one outline. -/
theorem filterMap_congr_of_outline {α : Type} {gather : Field → Option α}
    (depends : ∀ one other : Field, one.outline = other.outline → gather one = gather other)
    (same : model.outline = twin.outline) :
    model.fields.filterMap gather = twin.fields.filterMap gather := by
  have run : ∀ fields twins : List Field, fields.map Field.outline = twins.map Field.outline →
      fields.filterMap gather = twins.filterMap gather := by
    -- The two lists are as long as each other, since their outlines are the same list.
    intro fields
    induction fields with
    | nil =>
      intro twins same
      cases twins with
      | nil => rfl
      | cons _ _ => cases same
    | cons first rest ih =>
      intro twins same
      cases twins with
      | nil => cases same
      | cons second others =>
        -- The first fields have one outline, and so have the rest.
        rw [List.map_cons, List.map_cons, List.cons.injEq] at same
        rw [List.filterMap_cons, List.filterMap_cons, depends first second same.1,
          ih others same.2]
  exact run _ _ same

/-- Models of one outline have the same columns. -/
theorem columnNames_eq_of_outline_eq (same : model.outline = twin.outline) :
    model.columnNames = twin.columnNames := by
  -- The name and the kind of a field decide its column, and both are in the outline.
  have declared : model.fields.filterMap Field.columnName? =
      twin.fields.filterMap Field.columnName? := by
    refine filterMap_congr_of_outline (fun one other alike => ?_) same
    simp only [Field.outline, Prod.mk.injEq] at alike
    simp only [Field.columnName?, alike.1, alike.2]
  -- Whether the key column is added depends on the names of the fields alone.
  simp only [columnNames, declared, isNone_field?_of_outline_eq same]

/-- Models of one name and outline have the same join tables. -/
theorem joinTableNames_eq_of_outline_eq (name : model.name = twin.name)
    (same : model.outline = twin.outline) : model.joinTableNames = twin.joinTableNames := by
  -- The name of a join table is made from the model, the field and its relation.
  simp only [joinTableNames, relations, List.filterMap_filterMap, name]
  refine filterMap_congr_of_outline (fun one other alike => ?_) same
  rw [Field.relation?_eq_of_outline_eq alike]
  have named : one.name = other.name := congrArg Prod.fst alike
  cases other.relation? <;> simp [named]

end Model

end ModelCatalog
