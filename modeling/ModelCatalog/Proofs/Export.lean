import Mathlib.Tactic.MkIffOfInductiveProp
import ModelCatalog.Proofs.Counterpart
import ModelCatalog.Proofs.Reading

/-! Export and import: which definitions come back from the documents that state them, and that all
those do which came from a document. -/

namespace ModelCatalog

/-! ## Words -/

/-- A kind of relation is the one of its word. -/
@[simp] theorem RelationKind.ofLabel?_label (kind : RelationKind) :
    ofLabel? kind.label = some kind := by
  -- The words are compared one by one, and no two kinds share one.
  cases kind <;> rfl

/-- An action is the one of its words. -/
@[simp] theorem OnDelete.ofLabel?_sql (action : OnDelete) : ofLabel? action.sql = some action := by
  cases action <;> decide +kernel

/-- A scalar type is the one of its word. -/
@[simp] theorem ScalarType.ofLabel?_label (type : ScalarType) :
    ofLabel? type.label = some type := by
  cases type <;> decide

/-! ## Defaults -/

namespace DefaultValue

/-- A document can state the default: a number is a finite one, and a text is not the word for the
time of writing. -/
def Portable : DefaultValue → Prop
  | float number => number.isFinite = true
  | text word => word ≠ "now"
  | _ => True

instance : DecidablePred Portable := fun value =>
  match value with
  | float number => inferInstanceAs (Decidable (number.isFinite = true))
  | text word => inferInstanceAs (Decidable (word ≠ "now"))
  | now | integer _ | boolean _ => inferInstanceAs (Decidable True)

/-- The JSON value of a default is no number that JSON does not have. -/
theorem proper_toJson {value : DefaultValue} {number : JsonNumber}
    (same : value.toJson = .number number) : number.Proper := by
  -- Only whole and finite numbers become numbers of JSON: the others become null.
  cases value with
  | integer value =>
    obtain rfl := Json.number.inj same
    exact ⟨Int64.le_toInt value, Int.lt_trans (Int64.toInt_lt value) (by decide)⟩
  | float value =>
    simp only [toJson, Json.ofBinary64] at same
    split at same
    · rename_i finite
      obtain rfl := Json.number.inj same
      exact finite
    · cases same
  | _ => cases same

/-- A portable default comes back from its JSON value. -/
theorem ofJson?_toJson {value : DefaultValue} (portable : value.Portable) :
    ofJson? value.toJson = some value := by
  -- A whole number is in range for its type, a finite one is written as it is, and of the texts
  -- only the word for the time is read as something else.
  cases value with
  | now => rfl
  | integer value =>
    have range : -Int.pow 2 63 ≤ value.toInt ∧ value.toInt < Int.pow 2 63 :=
      ⟨Int64.le_toInt value, Int64.toInt_lt value⟩
    simp only [toJson, ofJson?, range, and_self, reduceIte, Int64.ofInt_toInt]
  | float value =>
    have finite : value.isFinite = true := portable
    simp only [toJson, Json.ofBinary64, finite, reduceIte, ofJson?]
  | boolean value => rfl
  | text value =>
    have apart : value ≠ "now" := portable
    simp only [toJson, ofJson?, apart, reduceIte]

/-- What a JSON value stands for is portable, if a number is one that JSON has. -/
theorem portable_of_ofJson? {json : Json} {value : DefaultValue}
    (proper : ∀ number, json = .number number → number.Proper)
    (done : ofJson? json = some value) : value.Portable := by
  -- The default is read off the JSON value, kind by kind.
  cases json with
  | string word =>
    obtain rfl := Option.some.inj done
    split
    · trivial
    · assumption
  | boolean _ =>
    obtain rfl := Option.some.inj done
    trivial
  | number number =>
    have isProper := proper number rfl
    cases number with
    | integer whole =>
      simp only [ofJson?] at done
      split at done <;> obtain rfl := Option.some.inj done
      · trivial
      · -- A whole number that is out of range has 64 bits still, and becomes a finite one.
        obtain ⟨least, greatest⟩ := isProper
        have within : whole.natAbs < 1 * 2 ^ 64 := by omega
        exact (Binary64.Within.ofRatio Nat.one_pos within (by decide)).isFinite (by decide)
    | float number =>
      obtain rfl := Option.some.inj done
      exact isProper
  | _ => cases done

end DefaultValue

/-! ## Fields -/

/-- A document can state the field: its default is portable, a choice has options, and a relation
has a target and no default. -/
@[mk_iff]
structure Field.Portable (field : Field) : Prop where
  default : ∀ value ∈ field.default, value.Portable
  options : field.kind ≠ .choice []
  target : ∀ relation ∈ field.relation?, relation.target ≠ ""
  plain : ∀ relation ∈ field.relation?, field.default = none

instance : DecidablePred Field.Portable := fun field => decidable_of_iff' _ field.portable_iff

namespace FieldDocument

variable {document : FieldDocument} {model : String} {field : Field}

/-- The document of a field has a proper default. -/
theorem proper_ofField (field : Field) : (ofField field).Proper := by
  -- Whatever the kind of the field, the document states its default and no other.
  intro number held
  have isDefault : (ofField field).default = field.default.map DefaultValue.toJson := by
    unfold ofField
    cases field.kind <;> rfl
  obtain ⟨value, -, same⟩ := Option.map_eq_some_iff.mp (isDefault ▸ held)
  exact DefaultValue.proper_toJson same

/-- A relation that a document states leads somewhere. -/
theorem target_of_toRelation {relation : Relation}
    (done : document.toRelation model = .ok relation) :
    relation.target ≠ "" := by
  unfold toRelation at done
  simp only [Outcome.throw_bind, pure_bind] at done
  -- Only a known kind, a target that is not empty and a known action get past the checks.
  split at done
  · split at done
    · split at done
      · split at done
        · cases done
        · rename_i target _ nonempty
          have same : relation.target = target := by
            -- The action is read last, and whatever it is the target is the one of the document.
            split at done
            · split at done
              · exact Outcome.pure_eq_ok.mp done ▸ rfl
              · cases done
            · exact Outcome.pure_eq_ok.mp done ▸ rfl
          simpa [same] using nonempty
      · cases done
    · cases done
  · cases done

/-- A kind of field that a document states has options where it is a choice, and a target where it
is a relation. -/
theorem of_toKind {kind : FieldKind} (done : document.toKind model = .ok kind) :
    kind ≠ .choice [] ∧ ∀ relation, kind = .relation relation → relation.target ≠ "" := by
  -- Choices, relations and scalars are the three things a type can say.
  unfold toKind at done
  split at done
  · split at done
    · obtain rfl := Outcome.pure_eq_ok.mp done
      simp
    · cases done
  · obtain ⟨relation, isRelation, done⟩ := Outcome.bind_eq_ok.mp done
    obtain rfl := Outcome.pure_eq_ok.mp done
    simpa using target_of_toRelation isRelation
  · split at done
    · obtain rfl := Outcome.pure_eq_ok.mp done
      simp
    · cases done

/-- A default that a proper document states is portable. -/
theorem portable_of_toDefault {kind : FieldKind} {default : Option DefaultValue}
    (proper : document.Proper) (done : document.toDefault model kind = .ok default) :
    ∀ value ∈ default, value.Portable := by
  -- There is no default for a relation or where none is stated, and otherwise it is read.
  unfold toDefault at done
  split at done
  · obtain rfl := Except.ok.inj done
    rintro value ⟨⟩
  · obtain rfl := Except.ok.inj done
    rintro value ⟨⟩
  · rename_i json held
    split at done
    · rename_i found isFound
      obtain rfl := Except.ok.inj done
      rintro value ⟨⟩
      exact DefaultValue.portable_of_ofJson?
        (fun number same => proper number (same ▸ held)) isFound
    · cases done

/-- A field that comes from a proper document can be stated by one. -/
theorem portable_of_toField (proper : document.Proper) (done : document.toField model = .ok field) :
    field.Portable := by
  obtain ⟨kind, isKind, done⟩ := Outcome.bind_eq_ok.mp done
  obtain ⟨default, isDefault, done⟩ := Outcome.bind_eq_ok.mp done
  obtain rfl := Outcome.pure_eq_ok.mp done
  obtain ⟨options, target⟩ := of_toKind isKind
  -- A relation is refused with a default, which settles the last part.
  refine ⟨portable_of_toDefault proper isDefault, options, fun relation related => ?_,
    fun relation related => ?_⟩ <;>
    obtain rfl : kind = .relation relation := Field.relation?_eq_some.mp related
  · exact target relation rfl
  · exact (Except.ok.inj isDefault).symm

/-- The default of a field that can be stated comes back from its document. -/
theorem toDefault_ofField (portable : field.Portable) :
    (ofField field).toDefault model field.kind = .ok field.default := by
  have stated : (ofField field).default = field.default.map DefaultValue.toJson := by
    unfold ofField
    cases field.kind <;> rfl
  -- Nothing is read where nothing is stated, and a relation states no default.
  cases held : field.default with
  | none => cases field.kind <;> simp [toDefault, stated, held]
  | some value =>
    have back := DefaultValue.ofJson?_toJson (portable.default value held)
    cases kind : field.kind with
    | relation relation =>
      rw [portable.plain relation (Field.relation?_eq_some.mpr kind)] at held
      cases held
    | _ => simp [toDefault, stated, held, back]

/-- A relation that leads somewhere comes back from the document of its field. -/
theorem toRelation_ofField {relation : Relation} (kind : field.kind = .relation relation)
    (target : relation.target ≠ "") : (ofField field).toRelation model = .ok relation := by
  -- The document of a relation is refused only when its target is empty.
  have leads : relation.target.isEmpty = false := by simpa using target
  simp only [toRelation, ofField, kind, RelationKind.ofLabel?_label, leads, pure_bind,
    Bool.false_eq_true, reduceIte]
  -- The action is optional, and where there is one it is read from its own words.
  cases action : relation.onDelete with
  | none => exact Outcome.pure_eq_ok.mpr (by rw [← action])
  | some given =>
    simp only [Option.map_some, OnDelete.ofLabel?_sql]
    exact Outcome.pure_eq_ok.mpr (by rw [← action])

/-- The kind of a field that can be stated comes back from its document. -/
theorem toKind_ofField (portable : field.Portable) :
    (ofField field).toKind model = .ok field.kind := by
  -- The word of the kind is read back, with its options or with its relation.
  cases kind : field.kind with
  | scalar type primary autoIncrement =>
    cases type <;> simp only [toKind, ofField, Field.typeLabel, kind] <;> rfl
  -- A choice between nothing cannot be stated.
  | choice options =>
    cases options with
    | nil => exact absurd kind portable.options
    | cons first rest => simp only [toKind, ofField, Field.typeLabel, kind, pure, Except.pure]
  -- The word of a relation is its own, and the rest of it is read apart.
  | relation relation =>
    have made : (ofField field).toRelation model = .ok relation :=
      toRelation_ofField kind (portable.target relation (Field.relation?_eq_some.mpr kind))
    have label : (ofField field).type = "relation" := by
      simp only [ofField, Field.typeLabel, kind]
    unfold toKind
    rw [label]
    exact Outcome.bind_eq_ok.mpr ⟨relation, made, rfl⟩

/-- A field that a document can state comes back from the one that does. -/
theorem toField_ofField (portable : field.Portable) :
    (ofField field).toField model = .ok field := by
  -- The kind and the default come back one after the other, and the flags are copied.
  refine Outcome.bind_eq_ok.mpr ⟨_, toKind_ofField portable,
    Outcome.bind_eq_ok.mpr ⟨_, toDefault_ofField portable, Outcome.pure_eq_ok.mpr ?_⟩⟩
  obtain ⟨name, required, unique, default, kind⟩ := field
  cases kind <;> rfl

end FieldDocument

/-! ## Models -/

/-- A document can state every field of a model. -/
def Model.Portable (model : Model) : Prop := ∀ field ∈ model.fields, field.Portable

instance : DecidablePred Model.Portable := fun model =>
  inferInstanceAs (Decidable (∀ field ∈ model.fields, field.Portable))

namespace ModelDocument

variable {document : ModelDocument} {model : Model}

/-- The document of a model has proper defaults. -/
theorem proper_ofModel (model : Model) : (ofModel model).Proper := by
  intro document present
  -- Each field document of the model is made from one of its fields.
  obtain ⟨field, -, rfl⟩ := List.mem_map.mp present
  exact FieldDocument.proper_ofField field

/-- A model that comes from a proper document can be stated by one. -/
theorem portable_of_toModel (proper : document.Proper) (done : document.toModel = .ok model) :
    model.Portable := by
  -- Each field of the model is read from one of the documents, and this one is proper.
  obtain ⟨fields, areFields, done⟩ := Outcome.bind_eq_ok.mp done
  obtain rfl := Outcome.pure_eq_ok.mp done
  intro field present
  obtain ⟨stated, isStated, isField⟩ := Outcome.exists_input_of_mapM_eq_ok areFields present
  exact FieldDocument.portable_of_toField (proper stated isStated) isField

/-- A model that a document can state comes back from the one that does. -/
theorem toModel_ofModel (portable : model.Portable) : (ofModel model).toModel = .ok model := by
  -- The fields come back one by one, since each of them can be stated.
  have fields : (model.fields.map FieldDocument.ofField).mapM
      (fun field => field.toField model.name) = .ok model.fields :=
    Outcome.mapM_eq_ok.mpr (List.forall₂_map_left_iff.mpr (List.forall₂_same.mpr
      fun field present => FieldDocument.toField_ofField (portable field present)))
  exact Outcome.bind_eq_ok.mpr ⟨_, fields, rfl⟩

/-- A definition comes back from the document that states it exactly when a document can state it:
when every default is portable, choices have options, and relations have targets and no defaults. So
does every definition that comes from a document whose numbers are those of JSON, as they are when
it is read from a text. -/
theorem toModel_ofModel_iff (model : Model) :
    ((ofModel model).toModel = .ok model ↔ model.Portable) ∧
      (∀ document : ModelDocument, document.Proper → document.toModel = .ok model →
        (ofModel model).toModel = .ok model) ∧
      ∀ text document, ofText text = .ok document → document.toModel = .ok model →
        (ofModel model).toModel = .ok model := by
  -- Reading leaves only fields that a document can state, and what a document can state survives.
  have survives : ∀ document : ModelDocument, document.Proper → document.toModel = .ok model →
      (ofModel model).toModel = .ok model := fun document proper done =>
    toModel_ofModel (portable_of_toModel proper done)
  exact ⟨⟨portable_of_toModel (proper_ofModel model), toModel_ofModel⟩, survives,
    fun text document read => survives document (proper_of_ofText read)⟩

/-- A tag with fields of every kind. -/
def tag : Model where
  name := "Tag"
  fields := [
    .withDefault (.ofScalar "title" .text) (.text "new"),
    .withDefault (.ofScalar "created" .timestamp) .now,
    .withDefault (.ofScalar "weight" .float) (.float (.ofRatio true 1 2)),
    .withDefault (.ofKind "state" (.choice ["draft", "live"])) (.text "draft"),
    .ofRelation "posts" { Relation.to .manyToMany "Post" with
      inverseName := some "tags", joinTable := some "Tag_posts_Post", onDelete := some .setNull }]

/-- A note whose title is the word for the time of writing. -/
def note : Model where
  name := "Note"
  fields := [.withDefault (.ofScalar "title" .text) (.text "now")]

/-- A document with a whole number that has more than 63 bits. -/
def counter : ModelDocument where
  collectionName := "Counter"
  fields := [{ name := "limit", type := "bigint", default := some (.ofNat (2 ^ 63)) }]

/-- The tag comes back and the note does not; what the counter states comes back as well. -/
theorem toModel_ofModel_iff_tag :
    tag.Portable ∧ (ofModel tag).toModel = .ok tag ∧
      ¬note.Portable ∧ (ofModel note).toModel ≠ .ok note ∧
      counter.Proper ∧
        ∃ model, counter.toModel = .ok model ∧ (ofModel model).toModel = .ok model := by
  -- The three are decided as they stand; the counter has one field, so one default to look at.
  have portable : tag.Portable := by decide +kernel
  have bare : ¬note.Portable := by decide +kernel
  have proper : counter.Proper := by
    intro field present
    obtain rfl := List.mem_singleton.mp present
    rintro number ⟨⟩
    decide
  exact ⟨portable, (toModel_ofModel_iff tag).1.mpr portable, bare,
    fun same => bare ((toModel_ofModel_iff note).1.mp same), proper, _, rfl,
    (toModel_ofModel_iff _).2.1 counter proper rfl⟩

end ModelDocument

end ModelCatalog
