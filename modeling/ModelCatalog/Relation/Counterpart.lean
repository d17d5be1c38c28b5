import ModelCatalog.Model.Basic
import ModelCatalog.Text.Lowercase

/-! Counterparts: the fields that stand for the other side of a relation.

An inverse name is symmetric: on either side of a relation it names the field on the other. A
field of one model is paired with the field of its target that relates back and bears its inverse
name, or, after a renaming, with one that bears its name as inverse name. -/

namespace ModelCatalog

/-- The name of the counterpart of a relation that names none: a plain plural of the model. -/
def defaultCounterpartName (source : String) : String := Text.lowercase source ++ "s"

/-- The name of the counterpart of a field on a source model. -/
def Field.counterpartName (field : Field) (source : String) : String :=
  (field.relation?.bind Relation.inverseName).getD (defaultCounterpartName source)

/-- The counterpart that the target should carry for a relation field on a source model. -/
def Field.counterpart? (field : Field) (source : String) : Option Field :=
  field.relation?.map fun relation =>
    let kind := relation.kind.inverse
    Field.ofRelation (field.counterpartName source) {
      kind := kind
      target := source
      inverseName := some field.name
      foreignKey := none
      joinTable := if kind.usesJoinTable then relation.joinTable else none
      onDelete := none }

/-- The field relates to the source and bears this inverse name. -/
def Field.invertsTo (field : Field) (source fieldName : String) : Bool :=
  match field.relation? with
  | some relation => relation.target == source && relation.inverseName == some fieldName
  | none => false

/-- The field pairs with a field of the source, by its name or by its inverse name. -/
def Field.pairsWith (field : Field) (source fieldName name : String) : Bool :=
  field.targets source && (field.name == name || field.invertsTo source fieldName)

/-- The position of the counterpart of a source field: by name first, then by inverse name. -/
def Model.counterpartIndex? (target : Model) (source fieldName name : String) : Option Nat :=
  (target.fields.findIdx? fun field => field.name == name && field.targets source).or
    (target.fields.findIdx? fun field => field.invertsTo source fieldName)

/-- Bring an existing counterpart up to date. The pairing comes from the desired field, and the
attributes of the column stay with the owner of the target. -/
def Field.mergeInto (desired existing : Field) : Field :=
  { desired with
    required := existing.required
    unique := existing.unique
    kind :=
      match existing.kind, desired.kind with
      | .relation old, .relation new =>
        .relation { new with
          foreignKey := if new.kind.hasColumn then old.foreignKey else new.foreignKey
          onDelete := old.onDelete }
      | _, kind => kind }

/-- What became of a target when its counterpart was put in place. -/
structure Upsert where
  /-- The target with the counterpart in place. -/
  target : Model
  /-- The counterpart itself. -/
  field : Field
  /-- The fields of the target are not what they were. -/
  changed : Bool

/-- Put the counterpart of a source field in place: over the existing one, of which duplicates
are removed, or at the end. -/
def Model.upsertCounterpart (target : Model) (source fieldName : String) (desired : Field) :
    Upsert :=
  let placed : List Field × Field :=
    match target.counterpartIndex? source fieldName desired.name with
    | none => (target.fields ++ [desired], desired)
    | some index =>
      match target.fields[index]? with
      | none => (target.fields ++ [desired], desired)
      | some existing =>
        let merged := desired.mergeInto existing
        -- Everything else that pairs would be a second counterpart of the same relation.
        let unpaired := fun (field : Field) => !field.pairsWith source fieldName desired.name
        ((target.fields.take index).filter unpaired ++
          merged :: (target.fields.drop (index + 1)).filter unpaired, merged)
  { target := { target with fields := placed.1 }
    field := placed.2
    changed := !Field.sameList placed.1 target.fields }

/-- The field would be removed as the counterpart of a source field: by its inverse name, or by
its name when it has none. -/
def Field.isRemovedWith (field : Field) (source fieldName name : String) : Bool :=
  match field.relation? with
  | some relation =>
    relation.target == source &&
      -- An inverse name tells the pairing, and only without one the name of the field counts.
      (relation.inverseName == some fieldName ||
        (field.name == name && relation.inverseName.isNone))
  | none => false

/-- Remove the counterparts of a source field. -/
def Model.removeCounterpart (target : Model) (source fieldName name : String) : Model :=
  { target with
    fields := target.fields.filter fun field => !field.isRemovedWith source fieldName name }

/-- Remove every relation to a model. -/
def Model.stripReferences (model : Model) (target : String) : Model :=
  { model with fields := model.fields.filter fun field => !field.targets target }

/-- Two versions of a model differ in the number of their fields. -/
def Model.lostFields (before after : Model) : Bool :=
  after.fields.length != before.fields.length

end ModelCatalog
