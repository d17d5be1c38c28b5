import ModelCatalog.Proofs.History

/-! The relation graph invariant: in every state reached, relations between models of the catalog
come in pairs. -/

namespace ModelCatalog

namespace Reachable

variable {configuration : Configuration} {database : Database}

/-- Where no call is about a system model, every relation of a stored model to another model of the
catalog leads to one that is stored, and exactly one field there stands for its other side: it
inverts the kind, either bears the inverse name of the other, and a join table is shared. -/
theorem relation_mated
    (reached : Reachable configuration (configuration.system.contains · = false) database)
    {name : String} {record : Record} (stored : database.store.get name = .ok (some record))
    {field : Field} (present : field ∈ record.definition.fields) {relation : Relation}
    (related : field.relation? = some relation) (apart : relation.target ≠ name)
    (inCatalog : configuration.system.contains relation.target = false) :
    ∃ other mate back, database.store.get relation.target = .ok (some other) ∧
      other.definition.fields.filter (fun again => again.invertsTo name field.name) = [mate] ∧
      mate.relation? = some back ∧ back.kind = relation.kind.inverse ∧
      relation.inverseName = some mate.name ∧
      (relation.kind = .manyToMany → ∃ table, relation.joinTable = some table ∧
        back.joinTable = some table) := by
  -- Of a reached state, the records form a symmetric catalog.
  obtain ⟨catalog, holds, -, symmetric⟩ := reached.exists_symmetric
  rw [holds, Catalog.get_store] at stored
  have found : catalog.find? name = some record := Except.ok.inj stored
  have known : catalog.models.find? name = some record.definition := by
    rw [Catalog.find?_models, Catalog.definition?_of_find? found]
  -- The other side is there, and it is the mate of the field.
  obtain ⟨target, targetKnown, mate, matePresent, mates⟩ :=
    symmetric.mated name record.definition known field present relation related ⟨apart, inCatalog⟩
  rw [Catalog.find?_models] at targetKnown
  obtain ⟨other, otherFound, isTarget⟩ := Option.map_eq_some_iff.mp targetKnown
  subst isTarget
  have otherKnown : catalog.models.find? relation.target = some other.definition := by
    rw [Catalog.find?_models, targetKnown]
  have named : other.definition.name = relation.target := Roster.name_of_find? otherKnown
  rw [named] at mates
  obtain ⟨held, back, heldRelation, backRelation, -, -, inverse, -, kind, joined⟩ := mates.sides
  rw [related, Option.some.injEq] at heldRelation
  subst heldRelation
  refine ⟨other, mate, back, ?_, ?_, backRelation, kind, inverse, ?_⟩
  · rw [holds, Catalog.get_store, otherFound]
  · refine Model.filter_eq_singleton (symmetric.tidy _ _ otherKnown).distinct matePresent
      -- Another field that inverts to this one would be a mate as well, and there is one of that
      -- name only.
      mates.symm.invertsTo fun again listed inverts => ?_
    exact symmetric.eq_of_invertsTo known otherKnown (Ne.symm apart) present mates matePresent
      listed inverts
  · -- A many-to-many relation has its join table from resolution.
    intro isManyToMany
    have uses : relation.kind.usesJoinTable = true := by rw [isManyToMany]; rfl
    obtain ⟨table, given⟩ := Option.isSome_iff_exists.mp
      (((symmetric.tidy _ _ known).resolved field present relation related).joined uses)
    exact ⟨table, given, (joined uses).trans given⟩

/-- A state in which a model of tags was defined. -/
def tagged : Database :=
  ((Call.change (.define "Tag" [])).run (registryWith .idle .standard) (.empty false 0)).2

/-- A state in which a model of posts that bear tags was defined after one of tags. -/
def posted : Database :=
  ((Call.change (.define "Post" [.ofRelation "tags" (.to .manyToMany "Tag")])).run
    (registryWith .idle .standard) tagged).2

/-- The relation of the posts to their tags, once it is resolved. -/
def tagging : Relation where
  kind := .manyToMany
  target := "Tag"
  inverseName := some "posts"
  foreignKey := none
  joinTable := some "Post_tags_Tag"
  onDelete := none

/-- The relation of the tags to the posts that bear them, which they got with the posts. -/
def bearing : Relation where
  kind := .manyToMany
  target := "Post"
  inverseName := some "tags"
  foreignKey := none
  joinTable := some "Post_tags_Tag"
  onDelete := none

/-- The call that defines the posts leaves their record and that of the tags, of which it has made
the second version. -/
theorem posted_run : (Call.change (.define "Post" [.ofRelation "tags" (.to .manyToMany "Tag")])).run
      (registryWith .idle .standard) tagged =
    (.ok (), { Database.empty false 0 with
      store := Roster.ofList [.intact ⟨⟨"Post", [.ofRelation "tags" tagging]⟩, 1, 0, 0⟩,
        .intact ⟨⟨"Tag", [.ofRelation "posts" bearing]⟩, 2, 0, 0⟩]
      journal := ⟨[], 2⟩ }) := by
  rfl

/-- The state of posts and tags, written out. -/
theorem posted_eq : posted =
    { Database.empty false 0 with
      store := Roster.ofList [.intact ⟨⟨"Post", [.ofRelation "tags" tagging]⟩, 1, 0, 0⟩,
        .intact ⟨⟨"Tag", [.ofRelation "posts" bearing]⟩, 2, 0, 0⟩]
      journal := ⟨[], 2⟩ } :=
  congrArg Prod.snd posted_run

/-- The records of posts and tags. -/
theorem members_posted : posted.store.members =
    [.intact ⟨⟨"Post", [.ofRelation "tags" tagging]⟩, 1, 0, 0⟩,
      .intact ⟨⟨"Tag", [.ofRelation "posts" bearing]⟩, 2, 0, 0⟩] := by
  -- The call was worked out above, and its records are read off.
  rw [posted_eq]
  rfl

/-- The state of tags is one of those reached. -/
theorem reached_tagged :
    Reachable .standard (Configuration.standard.system.contains · = false) tagged := by
  -- The call is a success from the empty database, and `Tag` is no system name.
  refine of_success (.empty false 0) .idle (.change (.define "Tag" [])) ?_ (by rfl)
  show Configuration.standard.system.contains "Tag" = false
  decide +kernel

/-- The state of posts and tags is one of those reached. -/
theorem reached_posted :
    Reachable .standard (Configuration.standard.system.contains · = false) posted := by
  -- The call is a success from the state of the tags, and `Post` is no system name.
  refine of_success reached_tagged .idle
    (.change (.define "Post" [.ofRelation "tags" (.to .manyToMany "Tag")])) ?_
    (congrArg Prod.fst posted_run)
  show Configuration.standard.system.contains "Post" = false
  decide +kernel

/-- The tags of posts have the posts of tags for their other side. -/
theorem relation_mated_posted :
    Reachable .standard (Configuration.standard.system.contains · = false) posted ∧
      posted.store.get "Post" =
        .ok (some (.first ⟨"Post", [.ofRelation "tags" tagging]⟩ 0)) ∧
      tagging.target ≠ "Post" ∧ Configuration.standard.system.contains tagging.target = false ∧
      ∃ other mate back, posted.store.get "Tag" = .ok (some other) ∧
        other.definition.fields.filter (fun again => again.invertsTo "Post" "tags") = [mate] ∧
        mate.relation? = some back ∧ back.kind = .manyToMany ∧ some "posts" = some mate.name ∧
        (RelationKind.manyToMany = .manyToMany → ∃ table, some "Post_tags_Tag" = some table ∧
          back.joinTable = some table) := by
  -- The record is the one that the call has left, with the relation as it was resolved.
  have stored : posted.store.get "Post" =
      .ok (some (.first ⟨"Post", [.ofRelation "tags" tagging]⟩ 0)) := by
    rw [posted_eq]
    rfl
  have apart : tagging.target ≠ "Post" := by decide +kernel
  have inCatalog : Configuration.standard.system.contains tagging.target = false := by
    decide +kernel
  exact ⟨reached_posted, stored, apart, inCatalog,
    @relation_mated .standard posted reached_posted "Post" _ stored _ List.mem_cons_self tagging
      rfl apart inCatalog⟩

end Reachable

end ModelCatalog
