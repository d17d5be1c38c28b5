import Mathlib.Data.List.Forall2
import ModelCatalog.Model.Columns

/-! Equality of definitions up to the spelling of numbers, and what it leaves alone. -/

namespace ModelCatalog

namespace Binary64

/-- What is finite is a number. -/
theorem isNaN_of_isFinite {value : Binary64} (finite : value.isFinite = true) :
    value.isNaN = false := by
  -- Magnitudes below that of infinity are finite, and only those above it are no numbers.
  simp only [isFinite, isNaN, decide_eq_true_eq, decide_eq_false_iff_not] at finite ⊢
  omega

/-- What equals a finite number is finite. -/
theorem isFinite_of_equals {one other : Binary64} (same : one.equals other = true)
    (finite : one.isFinite = true) : other.isFinite = true := by
  simp only [equals, Bool.and_eq_true, Bool.or_eq_true, beq_iff_eq] at same
  -- Equal numbers have one spelling, or both are zero, which is finite.
  rcases same.2 with equal | zeros
  · exact equal ▸ finite
  · simp [isFinite, zeros.2, infinite]

/-- What equals a number other than zero has the same bits. -/
theorem eq_of_equals {one other : Binary64} (same : one.equals other = true)
    (nonzero : one.magnitude ≠ 0) : one = other := by
  -- Two numbers are equal when their bits are, or when both are zeros.
  simp only [equals, Bool.and_eq_true, Bool.or_eq_true, beq_iff_eq] at same
  exact same.2.resolve_right fun zeros => nonzero zeros.1

end Binary64

namespace Field

/-- A default that is a number is a finite one. -/
def Finite (field : Field) : Prop :=
  ∀ value, field.default = some (.float value) → value.isFinite = true

/-- A field without a default has none that is infinite. -/
theorem finite_of_plain {field : Field} (plain : field.default = none) : field.Finite := by
  -- There is no default to be infinite.
  simp [Finite, plain]

/-- A default that is a floating-point value stands for a number, be it an infinite one. -/
def Comparable (field : Field) : Prop :=
  ∀ value, field.default = some (.float value) → value.isNaN = false

/-- A finite default stands for a number. -/
theorem Finite.comparable {field : Field} (finite : field.Finite) : field.Comparable :=
  -- What is finite is a number.
  fun value held => Binary64.isNaN_of_isFinite (finite value held)

/-- A field equals itself when its default stands for a number. -/
theorem Comparable.sameAs_self {field : Field} (comparable : field.Comparable) :
    field.sameAs field = true := by
  -- Only a default that is not a number differs from itself.
  cases held : field.default with
  | none => simp [sameAs, held]
  | some value =>
    have same : value.sameAs value = true := by
      cases value with
      | float number => simp [DefaultValue.sameAs, Binary64.equals, comparable number held]
      | _ => simp [DefaultValue.sameAs]
    simp [sameAs, held, same]

/-- Equal fields agree in everything but the spelling of their defaults. -/
theorem eq_of_sameAs {one other : Field} (same : one.sameAs other = true) :
    one = { other with default := one.default } := by
  -- The attributes are compared one by one, and only the default is compared as a number.
  cases one
  cases other
  simp_all [sameAs]

/-- Equal fields have equal names. -/
theorem name_eq_of_sameAs {one other : Field} (same : one.sameAs other = true) :
    one.name = other.name := by
  -- The name is none of the things that may differ.
  rw [eq_of_sameAs same]

/-- Equal fields have equal kinds. -/
theorem kind_eq_of_sameAs {one other : Field} (same : one.sameAs other = true) :
    one.kind = other.kind := by
  -- The kind is none of the things that may differ.
  rw [eq_of_sameAs same]

/-- A default that is a floating-point value is not zero, the one number with two spellings. -/
def Unambiguous (field : Field) : Prop :=
  ∀ value, field.default = some (.float value) → value.magnitude ≠ 0

/-- A field without a default has none that could be spelled differently. -/
theorem unambiguous_of_plain {field : Field} (plain : field.default = none) :
    field.Unambiguous := by
  -- There is no default to be spelled.
  simp [Unambiguous, plain]

/-- A field that equals one whose default has one spelling is that field. -/
theorem Unambiguous.eq_of_sameAs {one other : Field} (unambiguous : one.Unambiguous)
    (same : one.sameAs other = true) : one = other := by
  have agree : one.default = other.default := by
    -- Both have a default or neither has.
    cases held : one.default <;> cases kept : other.default <;>
      simp only [sameAs, held, kept, Bool.and_eq_true, Bool.and_false, Bool.false_eq_true] at same
    · rfl
    · -- Only numbers are compared by value, and all but zero have one spelling.
      congr 1
      rename_i value other
      cases value with
      | float number =>
        cases other with
        | float twin => rw [Binary64.eq_of_equals same.2 (unambiguous number held)]
        | _ => simp [DefaultValue.sameAs] at same
      | _ => simpa [DefaultValue.sameAs] using same.2
  rw [Field.eq_of_sameAs same, agree]

/-- A field that equals one without a default is that field. -/
theorem eq_of_sameAs_plain {one other : Field} (plain : one.default = none)
    (same : one.sameAs other = true) : one = other :=
  -- Where nothing can be spelled differently, equal fields are the same.
  (unambiguous_of_plain plain).eq_of_sameAs same

/-- A field that equals one without a default is that field. -/
theorem eq_of_sameAs_of_plain {one other : Field} (plain : other.default = none)
    (same : one.sameAs other = true) : one = other := by
  -- Without a default on the one side there is none on the other.
  have missing : one.default = none := by
    cases held : one.default with
    | none => rfl
    | some value => simp [sameAs, plain, held] at same
  exact eq_of_sameAs_plain missing same

/-- What equals a field with a finite default has one. -/
theorem Finite.of_sameAs {one other : Field} (finite : one.Finite)
    (same : one.sameAs other = true) : other.Finite := by
  intro value held
  -- Equal fields have both a default or both none, and numbers only equal numbers.
  cases before : one.default with
  | none => simp [sameAs, before, held] at same
  | some first =>
    simp only [sameAs, before, held, Bool.and_eq_true] at same
    cases first with
    | float number => exact Binary64.isFinite_of_equals same.2 (finite number before)
    | _ => simp [DefaultValue.sameAs] at same

/-- Equality of lists of fields goes field by field. -/
theorem sameList_iff {one other : List Field} :
    sameList one other = true ↔
      List.Forall₂ (fun left right => left.sameAs right = true) one other := by
  -- The lists are compared pair by pair, and end together.
  induction one generalizing other with
  | nil => cases other <;> simp [sameList]
  | cons first rest ih =>
    cases other with
    | nil => simp [sameList]
    | cons second others =>
      have step : sameList (first :: rest) (second :: others) =
          (first.sameAs second && sameList rest others) := rfl
      rw [step, Bool.and_eq_true, ih, List.forall₂_cons]

/-- Equal lists of fields have equal lengths. -/
theorem length_eq_of_sameList {one other : List Field} (same : sameList one other = true) :
    one.length = other.length := (sameList_iff.mp same).length_eq

/-- Where equal lists of fields part in the middle, the fields there are equal. -/
theorem sameAs_of_sameList_append {front back : List Field} {one other : Field}
    (same : sameList (front ++ one :: back) (front ++ other :: back) = true) :
    one.sameAs other = true := by
  rw [sameList_iff] at same
  -- Dropping what comes before leaves the two fields at the front.
  have later := List.forall₂_drop front.length same
  rw [List.drop_left, List.drop_left, List.forall₂_cons] at later
  exact later.1

/-- A list of fields equals itself when their defaults stand for numbers. -/
theorem sameList_self_of_comparable {fields : List Field}
    (comparable : ∀ field ∈ fields, field.Comparable) : sameList fields fields = true :=
  -- Lists are compared position by position, and each field meets itself.
  sameList_iff.mpr (List.forall₂_same.mpr fun field present =>
    (comparable field present).sameAs_self)

/-- A list of fields equals itself when their defaults are finite. -/
theorem sameList_self {fields : List Field} (finite : ∀ field ∈ fields, field.Finite) :
    sameList fields fields = true :=
  -- A finite default stands for a number.
  sameList_self_of_comparable fun field present => (finite field present).comparable

/-- What relations are concerned with of a field: its name and its kind. -/
def outline (field : Field) : String × FieldKind := (field.name, field.kind)

/-- Equal fields have one outline. -/
theorem outline_eq_of_sameAs {one other : Field} (same : one.sameAs other = true) :
    one.outline = other.outline := by
  -- An outline is a name with a kind, and both are equal.
  rw [outline, outline, name_eq_of_sameAs same, kind_eq_of_sameAs same]

/-- Equal lists of fields have equal outlines. -/
theorem map_outline_eq_of_sameList {one other : List Field} (same : sameList one other = true) :
    one.map outline = other.map outline := by
  -- Each pair of equal fields has one outline.
  induction sameList_iff.mp same with
  | nil => rfl
  | cons head tail ih =>
    rw [List.map_cons, List.map_cons, ih (sameList_iff.mpr tail), outline_eq_of_sameAs head]

/-- Of equal lists of fields a choice by outlines keeps equal lists. -/
theorem sameList_filter {one other : List Field} (same : sameList one other = true)
    {kept : Field → Bool}
    (outlines : ∀ first second : Field, first.outline = second.outline →
      kept first = kept second) :
    sameList (one.filter kept) (other.filter kept) = true := by
  -- At each position the choice falls alike, because the outlines are the same there.
  refine sameList_iff.mpr (List.rel_filter (fun first second alike => ?_) (sameList_iff.mp same))
  simp only [outlines first second (outline_eq_of_sameAs alike)]

/-- Every field of a list equals one of an equal list. -/
theorem exists_sameAs_of_mem {one other : List Field} (same : sameList one other = true)
    {field : Field} (present : field ∈ other) : ∃ before ∈ one, before.sameAs field = true := by
  -- The field stands beside the one that it equals.
  induction sameList_iff.mp same with
  | nil => cases present
  | cons head tail ih =>
    rcases List.mem_cons.mp present with rfl | later
    · exact ⟨_, List.mem_cons_self, head⟩
    · obtain ⟨before, earlier, alike⟩ := ih (sameList_iff.mpr tail) later
      exact ⟨before, List.mem_cons_of_mem _ earlier, alike⟩

/-- Fields with one outline stand for the same relation. -/
theorem relation?_eq_of_outline_eq {one other : Field} (same : one.outline = other.outline) :
    one.relation? = other.relation? := by
  -- The relation of a field is read off its kind, which the outline has.
  simp only [outline, Prod.mk.injEq] at same
  simp [relation?, same.2]

end Field

namespace Model

/-- Every default that is a number is a finite one. -/
def Finite (model : Model) : Prop := ∀ field ∈ model.fields, field.Finite

/-- Every default that is a floating-point value stands for a number. -/
def Comparable (model : Model) : Prop := ∀ field ∈ model.fields, field.Comparable

/-- A model equals itself when its defaults stand for numbers. -/
theorem Comparable.sameAs_self {model : Model} (comparable : model.Comparable) :
    model.sameAs model = true := by
  -- The name equals itself, and so do the fields.
  simp [sameAs, Field.sameList_self_of_comparable comparable]

/-- What relations are concerned with of a model: the outlines of its fields, in order. -/
def outline (model : Model) : List (String × FieldKind) := model.fields.map Field.outline

/-- A model equals itself when its defaults are finite. -/
theorem sameAs_self {model : Model} (finite : model.Finite) : model.sameAs model = true :=
  -- Finite defaults stand for numbers.
  Comparable.sameAs_self fun field present => (finite field present).comparable

/-- Equal models have equal names. -/
theorem name_eq_of_sameAs {one other : Model} (same : one.sameAs other = true) :
    one.name = other.name := by
  -- The name is the first thing that is compared.
  simp only [sameAs, Bool.and_eq_true, beq_iff_eq] at same
  exact same.1

/-- Equal models have equal lists of fields. -/
theorem sameList_of_sameAs {one other : Model} (same : one.sameAs other = true) :
    Field.sameList one.fields other.fields = true := by
  -- The fields are the second thing that is compared.
  simp only [sameAs, Bool.and_eq_true] at same
  exact same.2

/-- Equal models have one outline. -/
theorem outline_eq_of_sameAs {one other : Model} (same : one.sameAs other = true) :
    one.outline = other.outline :=
  -- The outline of a model is that of its fields, position by position.
  Field.map_outline_eq_of_sameList (sameList_of_sameAs same)

/-- A model that equals one with finite defaults has finite defaults. -/
theorem Finite.of_sameAs {one other : Model} (finite : one.Finite)
    (same : one.sameAs other = true) : other.Finite := by
  intro field present
  -- Each field of the other model has an equal one in this, whose default is finite.
  obtain ⟨before, earlier, alike⟩ :=
    Field.exists_sameAs_of_mem (sameList_of_sameAs same) present
  exact (finite before earlier).of_sameAs alike

/-- A field of one model has its outline among the fields of another of the same outline. -/
theorem exists_of_outline_eq {one other : Model} (same : one.outline = other.outline)
    {field : Field} (present : field ∈ one.fields) :
    ∃ twin ∈ other.fields, twin.outline = field.outline := by
  -- The outline is a list of outlines, and so the one in question is in both.
  have listed : field.outline ∈ other.outline := same ▸ List.mem_map_of_mem present
  exact List.mem_map.mp listed

/-- Models of one outline list the same names. -/
theorem names_eq_of_outline_eq {one other : Model} (same : one.outline = other.outline) :
    one.fields.map Field.name = other.fields.map Field.name := by
  -- A name is the first part of an outline.
  have listed := congrArg (List.map Prod.fst) same
  simpa [outline, List.map_map, Function.comp_def, Field.outline] using listed

/-- Models of one outline miss the same names. -/
theorem isNone_field?_of_outline_eq {one other : Model} (same : one.outline = other.outline)
    {name : String} : (one.field? name).isNone = (other.field? name).isNone := by
  -- Whether a name is missing can be told from the list of the names.
  have missing : ∀ model : Model,
      (model.field? name).isNone = !(model.fields.map Field.name).contains name := by
    intro model
    rw [Bool.eq_iff_iff, Option.isNone_iff_eq_none, field?, List.find?_eq_none]
    simp
  rw [missing, missing, names_eq_of_outline_eq same]

/-- Models of one outline relate to the same models. -/
theorem references_eq_of_outline_eq {one other : Model} (same : one.outline = other.outline)
    (target : String) : one.references target = other.references target := by
  -- Whether a model relates to the target can be told from the outlines of its fields.
  have byOutline : ∀ model : Model, model.references target =
      model.outline.any fun outline => (Field.ofKind outline.1 outline.2).targets target := by
    intro model
    rw [outline, List.any_map]
    rfl
  rw [byOutline, byOutline, same]

end Model

end ModelCatalog
