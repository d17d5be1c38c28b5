import ModelCatalog.Relation.Change
import ModelCatalog.Relation.Counterpart
import ModelCatalog.Sql.Synthesis

/-! Resolution: every relation of a definition gets its inverse name and its join table.

What a definition leaves out comes from the previous version of the field, then from an existing
counterpart on the target, then from the naming defaults. -/

namespace ModelCatalog

namespace Resolution

/-- Take along the counterparts of the self-relations that the new version gives up. -/
def dropSelfCounterparts (old new : Model) : Model :=
  (old.relations.filter fun pair => pair.2.target == new.name).foldl
    (fun model pair =>
      match model.field? pair.1.name with
      | some kept =>
        -- The field may have been kept under its name, and then only its target counts.
        if kept.targets new.name then model
        else model.removeCounterpart new.name pair.1.name (pair.1.counterpartName new.name)
      | none =>
        model.removeCounterpart new.name pair.1.name (pair.1.counterpartName new.name))
    new

/-- The field of the target, other than the field itself, that claims it as its inverse. -/
def claimant (target : Model) (source fieldName : String) : Option String :=
  (target.fields.find? fun field =>
    field.name != fieldName && field.invertsTo source fieldName).map Field.name

/-- The join table that an existing counterpart on the target already uses. -/
def sharedJoinTable (target : Model) (source fieldName name : String) : Option String := do
  let index ← target.counterpartIndex? source fieldName name
  let field ← target.fields[index]?
  let other ← field.relation?
  if other.kind.usesJoinTable then other.joinTable else none

/-- The previous version of a relation, if it had the same target. -/
def previousRelation (old : Option Model) (fieldName target : String) : Option Relation := do
  let model ← old
  let field ← model.field? fieldName
  let relation ← field.relation?
  -- A relation to another target hands nothing down.
  if relation.target = target then some relation else none

/-- The inverse name of a relation to a model of the catalog, filled in where it is missing. -/
def inverseNameOf (source fieldName : String) (target : Option Model)
    (previous : Option Relation) (relation : Relation) : Option String :=
  relation.inverseName
    |>.or (previous.bind Relation.inverseName)
    |>.or (target.bind fun target => claimant target source fieldName)
    |>.or (some (defaultCounterpartName source))

/-- The join table of a many-to-many relation, filled in where it is missing. -/
def joinTableOf (source fieldName : String) (target : Option Model)
    (previous : Option Relation) (relation : Relation) : Option String :=
  let inherited := previous.bind fun previous =>
    if previous.kind.usesJoinTable then previous.joinTable else none
  let shared := do
    sharedJoinTable (← target) source fieldName (← relation.inverseName)
  relation.joinTable
    |>.or inherited
    |>.or shared
    |>.or (some (relation.joinTableName source fieldName))

/-- A relation with its inverse name and join table filled in. -/
def fillRelation (context : Context) (old : Option Model) (snapshot : Model)
    (fieldName : String) (relation : Relation) : Relation :=
  let source := snapshot.name
  let target :=
    if relation.target = source then some snapshot else context.known.find? relation.target
  let previous := previousRelation old fieldName relation.target
  let named :=
    -- A relation to a system model has no other side that could be named.
    if context.system.contains relation.target then relation
    else { relation with
      inverseName := inverseNameOf source fieldName target previous relation }
  if named.kind.usesJoinTable then
    { named with joinTable := joinTableOf source fieldName target previous named }
  else named

/-- A field with its relation, if it has one, filled in. -/
def fillField (context : Context) (old : Option Model) (snapshot : Model) (field : Field) :
    Field :=
  match field.kind with
  | .relation relation =>
    { field with kind := .relation (fillRelation context old snapshot field.name relation) }
  | _ => field

/-- Put the counterpart of one self-relation in place within the model. -/
def pairSelf (model : Model) (fieldName : String) : Except Error Model :=
  match model.field? fieldName with
  | none => .ok model
  | some field =>
    match field.relation?, field.counterpart? model.name with
    | some relation, some counterpart =>
      if counterpart.name = field.name then
        -- A field that is its own counterpart must look the same from both sides.
        if relation.kind.inverse = relation.kind then .ok model
        else .error (.invalidDefinition model.name (some fieldName) .asymmetricSelfInverse)
      else .ok (model.upsertCounterpart model.name field.name counterpart).target
    | _, _ => .ok model

/-- Put the counterparts of all self-relations in place. -/
def pairSelves (model : Model) : Except Error Model :=
  let names := (model.relations.filter fun pair => pair.2.target == model.name).map
    fun pair => pair.1.name
  names.foldlM pairSelf model

/-- The counterpart a relation claims: the target and the name there. -/
structure Claim where
  target : String
  name : String
  field : String

/-- No two relations claim the same counterpart on the same target. -/
def checkClaims (model : String) : List Claim → List Claim → Except Error Unit
  | _, [] => .ok ()
  | earlier, claim :: rest =>
    match earlier.find? fun other => other.target == claim.target && other.name == claim.name with
    | some other =>
      .error (.invalidDefinition model (some claim.field)
        (.inverseTaken claim.target claim.name other.field))
    | none => checkClaims model (claim :: earlier) rest

/-- The counterparts that the relations of a model claim on other models of the catalog. -/
def claims (system : SystemModels) (model : Model) : List Claim :=
  model.relations.filterMap fun (field, relation) =>
    if system.contains relation.target || relation.target == model.name then none
    else some ⟨relation.target, field.counterpartName model.name, field.name⟩

end Resolution

open Resolution in
/-- Fill in inverse names and join tables, and pair the relations of a model to itself. -/
def Context.resolve (context : Context) (old : Option Model) (model : Model) :
    Except Error Model := do
  -- The counterparts of relations that are given up go before anything is filled in.
  let snapshot :=
    match old with
    | some old => dropSelfCounterparts old model
    | none => model
  let filled :=
    { snapshot with fields := snapshot.fields.map (fillField context old snapshot) }
  let paired ← pairSelves filled
  -- Self-relations are paired by now, so only claims on other models can clash.
  checkClaims model.name [] (claims context.system paired)
  return paired

end ModelCatalog
