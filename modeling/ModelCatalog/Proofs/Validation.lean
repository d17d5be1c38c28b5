import ModelCatalog.Model.Validation
import ModelCatalog.Proofs.Counterpart
import ModelCatalog.Proofs.Outcome

/-! What the check of a definition asks, rule by rule and as a whole, and on what it depends. -/

namespace ModelCatalog

/-- A name is admitted exactly when it is an identifier. -/
theorem Identifier.checkAt_eq_ok {place : Option Place} {name : String} {admitted : Identifier} :
    checkAt place name = .ok admitted ↔ isIdentifier name = true ∧ admitted.text = name := by
  unfold checkAt
  split
  · -- What is admitted is the name with its validity, and a proof of that adds nothing.
    rename_i valid
    rw [Except.ok.injEq]
    constructor
    · rintro rfl
      exact ⟨valid, rfl⟩
    · rintro ⟨-, rfl⟩
      rfl
  · rename_i invalid
    simp [invalid]

/-- Some identifier comes of a name exactly when it is one. -/
theorem Identifier.exists_checkAt_eq_ok {place : Option Place} {name : String} :
    (∃ admitted, checkAt place name = .ok admitted) ↔ isIdentifier name = true := by
  -- An identifier is its text with the proof that it is one, so a valid text makes one.
  constructor
  · rintro ⟨admitted, done⟩
    exact (checkAt_eq_ok.mp done).1
  · exact fun valid => ⟨⟨name, valid⟩, checkAt_eq_ok.mpr ⟨valid, rfl⟩⟩

/-- A check of a name passes on to the rest when the name is an identifier. -/
theorem Identifier.checkAt_bind_eq_ok {α : Type} {place : Option Place} {name : String}
    {rest : Except Error α} {result : α} :
    (checkAt place name >>= fun _ => rest) = .ok result ↔
      isIdentifier name = true ∧ rest = .ok result := by
  -- The identifier that comes of the check is not used by the rest.
  rw [Outcome.bind_eq_ok]
  constructor
  · rintro ⟨identifier, checked, done⟩
    exact ⟨(checkAt_eq_ok.mp checked).1, done⟩
  · rintro ⟨valid, done⟩
    exact ⟨⟨name, valid⟩, checkAt_eq_ok.mpr ⟨valid, rfl⟩, done⟩

/-- What the check of a relation makes sure of for what is built from it. -/
@[mk_iff]
structure Relation.Admitted (system : SystemModels) (known : Models) (model field : String)
    (relation : Relation) : Prop where
  target : isIdentifier relation.target = true
  present : relation.target = model ∨ system.contains relation.target = true ∨
    known.contains relation.target = true
  column : relation.kind.hasColumn = true → isIdentifier (relation.columnName field) = true
  joinTable : relation.kind.usesJoinTable = true →
    isIdentifier (relation.joinTableName model field) = true ∧
      isIdentifier (relation.joinColumnNames model field).1 = true ∧
      isIdentifier (relation.joinColumnNames model field).2 = true

/-- What the rules ask of a relation: that it is admitted, that an inverse name is an identifier,
and that the columns of a join table are different. -/
@[mk_iff]
structure Relation.Formed (system : SystemModels) (known : Models) (model field : String)
    (relation : Relation) : Prop extends Relation.Admitted system known model field relation where
  inverse : ∀ name, relation.inverseName = some name → isIdentifier name = true
  apart : relation.kind.usesJoinTable = true →
    (relation.joinColumnNames model field).1 ≠ (relation.joinColumnNames model field).2

/-- What the rules ask of a field, whatever the other fields are. -/
@[mk_iff]
structure Field.Formed (system : SystemModels) (known : Models) (model : String) (field : Field) :
    Prop where
  name : isIdentifier field.name = true
  finite : field.Finite
  options : ∀ options, field.kind = .choice options → options ≠ [] ∧ options.Nodup
  relation : ∀ relation, field.relation? = some relation →
    relation.Formed system known model field.name

/-! ## Folds over fields -/

/-- A step of a fold over fields refuses a field that does not pass, and one whose name or column is
taken; of any other it notes name and column down. -/
structure Taking {σ : Type} (step : σ → Field → Except Error σ) (passes : Field → Prop)
    (adding : σ → Field → σ) (names columns : σ → List String) : Prop where
  step_eq_ok : ∀ {taken after : σ} {field : Field}, step taken field = .ok after ↔
    passes field ∧ field.name ∉ names taken ∧
      (∀ column, field.columnName? = some column → column ∉ columns taken) ∧
      adding taken field = after
  names_adding : ∀ taken field, names (adding taken field) = field.name :: names taken
  columns_adding : ∀ taken field,
    columns (adding taken field) = field.columnName?.toList ++ columns taken

/-- Such a fold goes through when all fields pass, and none takes a name or a column that is
taken. -/
theorem Taking.foldlM_eq_ok {σ : Type} {step : σ → Field → Except Error σ} {passes : Field → Prop}
    {adding : σ → Field → σ} {names columns : σ → List String}
    (taking : Taking step passes adding names columns) {fields : List Field} {taken after : σ}
    (namesApart : (names taken).Nodup) (columnsApart : (columns taken).Nodup) :
    fields.foldlM step taken = .ok after ↔
      (∀ field ∈ fields, passes field) ∧ ((fields.map Field.name).reverse ++ names taken).Nodup ∧
        ((fields.filterMap Field.columnName?).reverse ++ columns taken).Nodup ∧
        fields.foldl adding taken = after := by
  -- The first field is noted down before the rest is looked at.
  induction fields generalizing taken with
  | nil => simp [namesApart, columnsApart, pure, Except.pure]
  | cons first rest ih =>
    -- The first field is free exactly when what was noted down still differs.
    have fresh : (first.name ∉ names taken ∧
        ∀ column, first.columnName? = some column → column ∉ columns taken) ↔
        (names (adding taken first)).Nodup ∧ (columns (adding taken first)).Nodup := by
      rw [taking.names_adding, taking.columns_adding]
      cases column : first.columnName? <;> simp [namesApart, columnsApart]
    have namesBehind : ((first :: rest).map Field.name).reverse ++ names taken =
        (rest.map Field.name).reverse ++ names (adding taken first) := by
      simp [taking.names_adding]
    have columnsBehind : ((first :: rest).filterMap Field.columnName?).reverse ++ columns taken =
        (rest.filterMap Field.columnName?).reverse ++ columns (adding taken first) := by
      rw [taking.columns_adding]
      cases column : first.columnName? <;> simp [column]
    rw [namesBehind, columnsBehind, Outcome.foldlM_cons_eq_ok, List.foldl_cons]
    simp only [taking.step_eq_ok, List.forall_mem_cons]
    constructor
    · rintro ⟨_, ⟨passes, name, column, rfl⟩, done⟩
      obtain ⟨freshNames, freshColumns⟩ := fresh.mp ⟨name, column⟩
      obtain ⟨others, last⟩ := (ih freshNames freshColumns).mp done
      exact ⟨⟨passes, others⟩, last⟩
    · -- Conversely, what differs in the end differed when the first field was noted down.
      rintro ⟨⟨passes, others⟩, namesLast, columnsLast, same⟩
      have freshNames := (List.nodup_append.mp namesLast).2.1
      have freshColumns := (List.nodup_append.mp columnsLast).2.1
      obtain ⟨name, column⟩ := fresh.mpr ⟨freshNames, freshColumns⟩
      exact ⟨_, ⟨passes, name, column, rfl⟩,
        (ih freshNames freshColumns).mpr ⟨others, namesLast, columnsLast, same⟩⟩

/-- From the beginning such a fold goes through when all fields pass and have names and columns of
their own. -/
theorem Taking.foldlM_start_eq_ok {σ : Type} {step : σ → Field → Except Error σ}
    {passes : Field → Prop} {adding : σ → Field → σ} {names columns : σ → List String}
    (taking : Taking step passes adding names columns) {fields : List Field} {start after : σ}
    (noNames : names start = []) (noColumns : columns start = []) :
    fields.foldlM step start = .ok after ↔
      (∀ field ∈ fields, passes field) ∧ (fields.map Field.name).Nodup ∧
        (fields.filterMap Field.columnName?).Nodup ∧ fields.foldl adding start = after := by
  -- Where nothing is taken yet, what was noted down in the end are the fields alone.
  have apart : ([] : List String).Nodup := List.nodup_nil
  rw [taking.foldlM_eq_ok (noNames ▸ apart) (noColumns ▸ apart), noNames, noColumns,
    List.append_nil, List.append_nil, List.nodup_reverse, List.nodup_reverse]

/-- What has been taken once a field was looked at as well. -/
def Claims.adding (claims : Claims) (field : Field) : Claims where
  names := field.name :: claims.names
  columns := field.columnName?.toList ++ claims.columns
  keys := if field.isKey then claims.keys ++ [field.name] else claims.keys

/-- What fields take in turn are their names and columns, and the names of those that are keys. -/
theorem Claims.foldl_adding (fields : List Field) (claims : Claims) :
    fields.foldl adding claims =
      { names := (fields.map Field.name).reverse ++ claims.names
        columns := (fields.filterMap Field.columnName?).reverse ++ claims.columns
        keys := claims.keys ++ (fields.filter Field.isKey).map Field.name } := by
  -- Names and columns are put in front, and keys behind.
  induction fields generalizing claims with
  | nil => simp
  | cons first rest ih =>
    rw [List.foldl_cons, ih]
    cases column : first.columnName? <;> cases key : first.isKey <;> simp [adding, column, key]

/-! ## The rules one by one -/

namespace Validation

variable {system : SystemModels} {known other : Models} {model : String}

/-- A relation passes the check when it is formed. -/
theorem checkRelation_eq_ok {field : String} {relation : Relation} :
    checkRelation system known model field relation = .ok () ↔
      relation.Formed system known model field := by
  -- A relation is refused when all three places to look for its target fail.
  have missing : (relation.target != model && !system.contains relation.target &&
      !known.contains relation.target) = true ↔ ¬(relation.target = model ∨
        system.contains relation.target = true ∨ known.contains relation.target = true) := by
    simp [and_assoc]
  rw [Relation.formed_iff, Relation.admitted_iff]
  unfold checkRelation
  -- Which of the names are there is decided by the kind of the relation.
  cases kind : relation.kind <;> cases inverse : relation.inverseName <;>
    simp only [RelationKind.hasColumn, RelationKind.usesJoinTable, Identifier.checkAt_bind_eq_ok,
      Outcome.throw_bind, Outcome.unless_throw_eq_ok, Outcome.pure_eq_ok, missing, not_not,
      reduceIte, decide_true, decide_false, reduceCtorEq, Bool.false_eq_true, Option.some.injEq,
      forall_eq', IsEmpty.forall_iff, forall_const, and_true, true_and, ne_eq, and_assoc,
      and_left_comm, and_comm]

/-- The check of a relation asks of the known models only whether another model is there. -/
theorem checkRelation_congr {field : String} {relation : Relation}
    (same : relation.target ≠ model →
      known.contains relation.target = other.contains relation.target) :
    checkRelation system known model field relation =
      checkRelation system other model field relation := by
  -- A relation to the model itself is not looked up.
  by_cases own : relation.target = model
  · simp [checkRelation, own]
  · simp only [checkRelation, same own]

/-- The options of a choice pass when there are some and all of them differ. -/
theorem checkOptions_eq_ok {field : String} {options : List String} :
    checkOptions model field options = .ok () ↔ options ≠ [] ∧ options.Nodup := by
  -- Options that were seen are kept aside, and none of them may come again.
  have run : ∀ options seen : List String, checkOptions.distinct model field seen options = .ok () ↔
      options.Nodup ∧ ∀ option ∈ options, option ∉ seen := by
    intro options
    induction options with
    | nil => simp [checkOptions.distinct]
    | cons first rest ih =>
      intro seen
      unfold checkOptions.distinct
      by_cases repeated : first ∈ seen
      · simp [repeated]
      · simp only [List.contains_iff_mem, repeated, if_false, ih]
        grind
  -- Nothing was seen before the first option.
  cases options with
  | nil => simp [checkOptions]
  | cons first rest => simpa [checkOptions] using run (first :: rest) []

/-- A column that is free is taken. -/
theorem claimColumn_eq_ok {field column : String} {claims after : Claims} :
    claimColumn model field column claims = .ok after ↔
      column ∉ claims.columns ∧ { claims with columns := column :: claims.columns } = after := by
  unfold claimColumn
  -- The list of columns is searched, and the column is put in front when it is not there.
  split
  · rename_i taken
    simp [List.contains_iff_mem.mp taken]
  · rename_i free
    rw [List.contains_iff_mem] at free
    simp [free]

/-- The look at the name and the default of a field passes when the name is new and an identifier
and the default is finite. -/
theorem checkHead_eq_ok {claims after : Claims} {field : Field} :
    checkHead model claims field = .ok after ↔
      isIdentifier field.name = true ∧ field.name ∉ claims.names ∧ field.Finite ∧
        { claims with names := field.name :: claims.names } = after := by
  unfold checkHead
  rw [Identifier.checkAt_bind_eq_ok]
  refine and_congr_right fun _ => ?_
  unfold Field.Finite
  -- Only a default that is a number can be refused.
  rcases field.default with _ | (_ | _ | number | _ | _) <;>
    simp only [Outcome.throw_bind, Outcome.unless_throw_eq_ok, Outcome.pure_eq_ok,
      List.contains_iff_mem, Bool.not_eq_true', Bool.not_eq_false, Option.some.injEq,
      DefaultValue.float.injEq, forall_eq', reduceCtorEq, IsEmpty.forall_iff, implies_true,
      true_and]

/-- A field passes when it is formed and takes a name and a column that nothing has taken. -/
theorem checkField_eq_ok {claims after : Claims} {field : Field} :
    checkField system known model claims field = .ok after ↔
      field.Formed system known model ∧ field.name ∉ claims.names ∧
        (∀ column, field.columnName? = some column → column ∉ claims.columns) ∧
        claims.adding field = after := by
  rw [Field.formed_iff]
  unfold checkField
  rw [Outcome.bind_eq_ok]
  simp only [checkHead_eq_ok]
  -- What is asked beside the head depends on the kind of the field, and so does the column.
  cases kind : field.kind with
  | scalar type primary autoIncrement =>
    cases keyed : primary || autoIncrement <;>
      simp [claimColumn_eq_ok, Field.relation?, Field.columnName?, Field.isKey, Claims.adding, kind,
        keyed, and_assoc, and_left_comm]
  | choice options =>
    simp [claimColumn_eq_ok, Outcome.unit_bind_eq_ok, checkOptions_eq_ok, Field.relation?,
      Field.columnName?, Field.isKey, Claims.adding, kind, and_assoc, and_left_comm]
  | relation relation =>
    cases owned : relation.kind.hasColumn <;>
      simp [-bind_pure_comp, claimColumn_eq_ok, Outcome.unit_bind_eq_ok, checkRelation_eq_ok,
        Field.relation?, Field.columnName?, Field.isKey, Claims.adding, kind, owned, and_assoc,
        and_left_comm]

/-- The check of the fields takes names and columns. -/
theorem taking_checkField (system : SystemModels) (known : Models) (model : String) :
    Taking (checkField system known model) (Field.Formed system known model) Claims.adding
      Claims.names Claims.columns where
  -- The equation is the one above; taking a field adds one name and, for a column, one column.
  step_eq_ok := checkField_eq_ok
  names_adding := fun _ _ => rfl
  columns_adding := fun _ _ => rfl

/-- The key passes when there is at most one, which is the `id` field, or none and nothing takes the
column of that name. -/
theorem checkKey_eq_ok {model : Model} {claims : Claims} :
    checkKey model claims = .ok () ↔
      ((model.field? idName).isNone = true → claims.keys = [] ∧ idName ∉ claims.columns) ∧
        claims.keys.length ≤ 1 := by
  unfold checkKey
  -- No key, one key and more are the cases that the check tells apart.
  rcases claims.keys with _ | ⟨first, _ | ⟨second, rest⟩⟩ <;>
    cases missing : (model.field? idName).isNone <;>
      simp [-bind_pure_comp, claimColumn_eq_ok, Outcome.bind_eq_ok, throw, throwThe,
        MonadExceptOf.throw]

/-- Fields that are alike to relations and have finite defaults are checked alike, whatever is
known beside the names of the other models. -/
theorem checkField_congr {claims : Claims} {one twin : Field} (same : one.outline = twin.outline)
    (finite : one.Finite) (twinFinite : twin.Finite)
    (known_eq : ∀ name, name ≠ model → known.contains name = other.contains name) :
    checkField system known model claims one = checkField system other model claims twin := by
  have head : ∀ {field : Field}, field.Finite → checkHead model claims field =
      (do
        let _ ← Identifier.checkAt (some ⟨model, some field.name⟩) field.name
        if claims.names.contains field.name then
          throw (.invalidDefinition model (some field.name) .repeatedField)
        return { claims with names := field.name :: claims.names }) := by
    -- A finite default passes, so what is left is the check of the name.
    intro field finite
    unfold checkHead
    rcases held : field.default with _ | (_ | _ | number | _ | _) <;> simp only
    rw [finite number held]
    simp only [Bool.not_true, Bool.false_eq_true, reduceIte]
  -- The names and the kinds are the same, and nothing else is looked at beside the defaults.
  simp only [Field.outline, Prod.mk.injEq] at same
  unfold checkField
  rw [head finite, head twinFinite, same.1, same.2]
  simp only [checkRelation_congr (known_eq _)]

end Validation

open Validation

/-- What the check of a definition makes sure of for what is built from it. -/
structure Model.Admitted (system : SystemModels) (known : Models) (model : Model) : Prop where
  name : isIdentifier model.name = true
  distinct : (model.fields.map Field.name).Nodup
  names : ∀ field ∈ model.fields, isIdentifier field.name = true
  finite : model.Finite
  relations : ∀ field ∈ model.fields, ∀ relation, field.relation? = some relation →
    relation.Admitted system known model.name field.name

/-- What the rules ask of a definition, apart from the place of its key. -/
structure Model.Formed (system : SystemModels) (known : Models) (model : Model) : Prop where
  name : isIdentifier model.name = true
  fields : ∀ field ∈ model.fields, field.Formed system known model.name
  names : (model.fields.map Field.name).Nodup
  columns : (model.fields.filterMap Field.columnName?).Nodup
  oneKey : (model.fields.filter Field.isKey).length ≤ 1

/-- A definition has an `id` field, or it has no key at all and leaves the column of that name to
the key column. -/
def Model.Keyed (model : Model) : Prop :=
  (∃ field ∈ model.fields, field.name = idName) ∨
    ∀ field ∈ model.fields, field.isKey = false ∧ field.columnName? ≠ some idName

instance (model : Model) : Decidable model.Keyed :=
  inferInstanceAs (Decidable ((∃ field ∈ model.fields, field.name = idName) ∨
    ∀ field ∈ model.fields, field.isKey = false ∧ field.columnName? ≠ some idName))

namespace Model

variable {system : SystemModels} {known other : Models} {model twin : Model}

/-- A definition without an `id` field has its key in place when it has no other key and no field
takes the column. -/
theorem keyed_iff : model.Keyed ↔ ((model.field? idName).isNone = true →
    (model.fields.filter Field.isKey).map Field.name = [] ∧
      idName ∉ model.fields.filterMap Field.columnName?) := by
  -- Both sides say that there is an `id` field, or that nothing is in the way of the key column.
  simp only [Keyed, Option.isNone_iff_eq_none, field?_eq_none, List.map_eq_nil_iff,
    List.filter_eq_nil_iff, Bool.not_eq_true, List.mem_filterMap, not_exists, not_and]
  constructor
  · rintro (⟨field, present, named⟩ | free) missing
    · exact absurd named (missing field present)
    · exact ⟨fun field present => (free field present).1,
        fun field present => (free field present).2⟩
  · intro free
    by_cases there : ∃ field ∈ model.fields, field.name = idName
    · exact Or.inl there
    · obtain ⟨plain, apart⟩ := free fun field present named => there ⟨field, present, named⟩
      exact Or.inr fun field present => ⟨plain field present, apart field present⟩

/-- A definition is valid exactly when it is formed and has its key in place. -/
theorem validate_eq_ok :
    model.validate system known = .ok () ↔ model.Formed system known ∧ model.Keyed := by
  have nothing : (Claims.mk [] [] []).names = [] := rfl
  unfold validate
  rw [Identifier.checkAt_bind_eq_ok, Outcome.bind_eq_ok]
  -- The fold over the fields has one condition for each, and the key is checked with what it took.
  simp only [(taking_checkField system known model.name).foldlM_start_eq_ok nothing rfl,
    Claims.foldl_adding, checkKey_eq_ok, keyed_iff]
  constructor
  · rintro ⟨name, _, ⟨fields, names, columns, rfl⟩, keyed, oneKey⟩
    refine ⟨⟨name, fields, names, columns, by simpa using oneKey⟩, by simpa using keyed⟩
  · rintro ⟨⟨name, fields, names, columns, oneKey⟩, keyed⟩
    exact ⟨name, _, ⟨fields, names, columns, rfl⟩, by simpa using keyed, by simpa using oneKey⟩

/-- A definition that passes the check is admitted. -/
theorem admitted_of_validate (passes : model.validate system known = .ok ()) :
    model.Admitted system known := by
  -- What is admitted is part of what is formed.
  have formed := (validate_eq_ok.mp passes).1
  exact {
    name := formed.name
    distinct := formed.names
    names := fun field present => (formed.fields field present).name
    finite := fun field present => (formed.fields field present).finite
    relations := fun field present relation related =>
      ((formed.fields field present).relation relation related).toAdmitted }

/-- Definitions that are alike to relations and have finite defaults are checked alike, whatever is
known beside the names of the other models. -/
theorem validate_congr (name : model.name = twin.name) (same : model.outline = twin.outline)
    (finite : model.Finite) (twinFinite : twin.Finite)
    (known_eq : ∀ name, name ≠ model.name → known.contains name = other.contains name) :
    model.validate system known = twin.validate system other := by
  -- The two lists of fields are checked in step, from the same claims on.
  have run : ∀ (fields twins : List Field) (claims : Claims),
      fields.map Field.outline = twins.map Field.outline →
      (∀ field ∈ fields, field.Finite) → (∀ field ∈ twins, field.Finite) →
      fields.foldlM (checkField system known model.name) claims =
        twins.foldlM (checkField system other model.name) claims := by
    intro fields
    induction fields with
    | nil =>
      intro twins claims same _ _
      cases twins with
      | nil => rfl
      | cons _ _ => cases same
    | cons first rest ih =>
      intro twins claims same finite twinFinite
      cases twins with
      | nil => cases same
      | cons second others =>
        rw [List.map_cons, List.map_cons, List.cons.injEq] at same
        rw [List.foldlM_cons, List.foldlM_cons,
          checkField_congr same.1 (finite _ List.mem_cons_self) (twinFinite _ List.mem_cons_self)
            known_eq]
        congr 1
        funext next
        exact ih others next same.2 (fun field later => finite field (List.mem_cons_of_mem _ later))
          (fun field later => twinFinite field (List.mem_cons_of_mem _ later))
  -- The key is looked for by name, and names are part of the outline.
  have key : ∀ claims, checkKey model claims = checkKey twin claims := by
    intro claims
    simp only [checkKey, isNone_field?_of_outline_eq same, name]
  unfold validate
  rw [run model.fields twin.fields _ same finite twinFinite, name]
  simp only [key]

end Model

end ModelCatalog
