import ModelCatalog.Model.Basic

/-! Models that live outside the catalog and are only ever the target of relations. -/

namespace ModelCatalog

/-- The system models: their names and the column type of their keys. -/
structure SystemModels where
  names : NameSet
  keyType : String

namespace SystemModels

/-- The column type of the keys, unless another is given. -/
def defaultKeyType : String := "VARCHAR(255)"

/-- No system models. -/
def empty : SystemModels := ⟨∅, defaultKeyType⟩

/-- The same system models and one more. -/
def withModel (system : SystemModels) (name : String) : SystemModels :=
  { system with names := system.names.insert name }

/-- The same system models with another column type of their keys. -/
def withKeyType (system : SystemModels) (keyType : String) : SystemModels :=
  { system with keyType := keyType }

/-- The system models unless others are given. -/
def standard : SystemModels := ["User", "UserGroup", "Role"].foldl withModel empty

/-- The name belongs to a system model. -/
def contains (system : SystemModels) (name : String) : Bool := system.names.contains name

end SystemModels

end ModelCatalog
