import ModelCatalog.Model.Columns
import ModelCatalog.Model.System

/-! What changes in the relations of a model from one version to the next. -/

namespace ModelCatalog

/-- The changes in the relations of a model, which are matched by name and target. -/
structure RelationChange where
  /-- The relations that are new or different. -/
  added : List Field
  /-- The relations that are gone. -/
  removed : List Field
  /-- The join tables that no relation uses any more. -/
  obsoleteTables : List String

namespace RelationChange

/-- Two fields stand for the same relation, whatever its attributes. -/
def isSame (left right : Field) : Bool :=
  match left.relation?, right.relation? with
  | some one, some other => left.name == right.name && one.target == other.target
  | _, _ => false

/-- The fields that stand for relations. -/
def relationFields (model : Model) : List Field := model.relations.map Prod.fst

/-- The join tables of a version that the next one does not use, apart from those shared with
system models. -/
def obsolete (system : SystemModels) (old new : Model) : List String :=
  let tables := old.relations.filterMap fun (field, relation) =>
    -- The tables of system models are not ours to drop.
    if relation.kind.usesJoinTable && !system.contains relation.target then
      some (relation.joinTableName old.name field.name)
    else none
  distinctBy id (tables.filter fun table => !new.joinTableNames.contains table)

/-- The changes from an old version, if there is one, to a new one. -/
def between (system : SystemModels) (old : Option Model) (new : Model) : RelationChange :=
  let before := (old.map relationFields).getD []
  { added := (relationFields new).filter fun field =>
      match before.find? fun previous => isSame previous field with
      -- A relation with other attributes is added, while its old version is not removed.
      | some previous => !previous.sameAs field
      | none => true
    removed := before.filter fun previous =>
      !(relationFields new).any fun field => isSame previous field
    obsoleteTables :=
      match old with
      | some old => obsolete system old new
      | none => [] }

/-- Nothing changes. -/
def isEmpty (change : RelationChange) : Bool :=
  change.added.isEmpty && change.removed.isEmpty && change.obsoleteTables.isEmpty

end RelationChange

end ModelCatalog
