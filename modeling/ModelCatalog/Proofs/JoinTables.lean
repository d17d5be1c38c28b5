import ModelCatalog.Proofs.KeyTypes
import ModelCatalog.Proofs.StoredValidity

/-! Join tables: what is declared of one, and that both sides of a relation declare the same, with
the two columns in opposite order. -/

namespace ModelCatalog

/-- Identifiers of one text are the same. -/
theorem Identifier.eq_of_text_eq {one other : Identifier} (same : one.text = other.text) :
    one = other := by
  -- An identifier is its text, with a proof that it is admitted.
  cases one
  cases other
  cases same
  rfl

namespace Context

variable {context : Context} {model other : Model} {field mate : Field} {relation back : Relation}

/-! ## Declarations -/

/-- Columns of join tables are the same when their names, their types and the tables that they refer
to are. -/
theorem joinColumn_congr {name again table referred : Identifier} {type other : String}
    (names : name.text = again.text) (types : type = other)
    (tables : table.text = referred.text) :
    joinColumn name type table = joinColumn again other referred := by
  -- Equal texts are equal identifiers, and a column is made of its identifiers and its type.
  rw [Identifier.eq_of_text_eq names, types, Identifier.eq_of_text_eq tables]

/-- The join table of a many-to-many relation has a column for the key of the model and one for that
of the target, each in the type of the key that it refers to. -/
theorem exists_names_of_joinTable {statement : Option Statement}
    (related : field.relation? = some relation) (uses : relation.kind.usesJoinTable = true)
    (done : context.joinTable model field = .ok statement) :
    ∃ table left right owner target : Identifier,
      table.text = relation.joinTableName model.name field.name ∧
      left.text = (relation.joinColumnNames model.name field.name).1 ∧
      right.text = (relation.joinColumnNames model.name field.name).2 ∧
      owner.text = model.name ∧ target.text = relation.target ∧
      statement = some (.createJoinTable table
        (joinColumn left (context.keyType model model.name) owner)
        (joinColumn right (context.keyType model relation.target) target)) := by
  -- The statement was compiled from the relation, unless that has no join table.
  cases joined_of_joinTable done with
  | table other otherRelated _ table left right owner target named isLeft isRight owns leads =>
    rw [related, Option.some.injEq] at otherRelated
    subst otherRelated
    exact ⟨table, left, right, owner, target, named, isLeft, isRight, owns, leads, rfl⟩
  | unjoined unused =>
    rw [unused relation related] at uses
    cases uses

/-! ## Both sides -/

/-- Mates in different models that are both known declare one join table: the name is shared, and
each declares the columns of the other, that of its own model first. -/
theorem joinTable_of_mates {first second : Option Statement}
    (listed : model ∈ context.known.members) (otherListed : other ∈ context.known.members)
    (apart : other.name ≠ model.name) (mates : field.Mates model.name other.name mate)
    (related : field.relation? = some relation) (uses : relation.kind.usesJoinTable = true)
    (joined : relation.joinTable.isSome = true)
    (done : context.joinTable model field = .ok first)
    (otherDone : context.joinTable other mate = .ok second) :
    ∃ table left right, some table.text = relation.joinTable ∧
      first = some (.createJoinTable table left right) ∧
      second = some (.createJoinTable table right left) ∧
      left.name.text = model.name ++ "_id" ∧ left.references = [model.name] ∧
      right.name.text = other.name ++ "_id" ∧ right.references = [other.name] := by
  obtain ⟨held, back, heldRelated, backRelated, leads, returns, -, -, kind, shared⟩ := mates.sides
  rw [related, Option.some.injEq] at heldRelated
  subst heldRelated
  have backUses : back.kind.usesJoinTable = true := by
    rw [kind, RelationKind.usesJoinTable_inverse, uses]
  -- The table has a name on either side, since mates share it.
  obtain ⟨name, recorded⟩ := Option.isSome_iff_exists.mp joined
  have backRecorded : back.joinTable = some name := (shared uses).trans recorded
  obtain ⟨table, left, right, owner, target, isTable, isLeft, isRight, isOwner, isTarget, rfl⟩ :=
    exists_names_of_joinTable related uses done
  obtain ⟨otherTable, otherLeft, otherRight, otherOwner, otherTarget, isOtherTable, isOtherLeft,
    isOtherRight, isOtherOwner, isOtherTarget, rfl⟩ :=
    exists_names_of_joinTable backRelated backUses otherDone
  -- Neither side relates to itself, so either names its second column after the other model.
  simp only [Relation.joinTableName, recorded, backRecorded, Option.getD_some]
    at isTable isOtherTable
  simp only [Relation.joinColumnNames, leads, returns, apart, Ne.symm apart, if_false]
    at isLeft isRight isOtherLeft isOtherRight
  have sameTable : otherTable = table := Identifier.eq_of_text_eq (isOtherTable.trans isTable.symm)
  -- The two models are known to each other, so they look up the same two keys.
  have ownType : context.keyType other back.target = context.keyType model model.name := by
    rw [returns]
    exact keyType_of_known otherListed (Roster.mem_iff_find?.mp listed)
  have otherType : context.keyType other other.name = context.keyType model relation.target := by
    rw [leads]
    exact (keyType_of_known listed (Roster.mem_iff_find?.mp otherListed)).symm
  -- So the columns agree crosswise: the first of one is the second of the other.
  have ownColumn := joinColumn_congr (isOtherRight.trans isLeft.symm) ownType
    (isOtherTarget.trans (returns.trans isOwner.symm))
  have otherColumn := joinColumn_congr (isOtherLeft.trans isRight.symm) otherType
    (isOtherOwner.trans (leads.symm.trans isTarget.symm))
  refine ⟨table, _, _, by rw [isTable, recorded], rfl, by rw [sameTable, ownColumn, otherColumn],
    isLeft, ?_, isRight, ?_⟩
  · rw [references_joinColumn, isOwner]
  · rw [references_joinColumn, isTarget, leads]

end Context

/-- In a symmetric graph a field that relates its model to another one that is known has one mate
there, which is the only field that inverts to it. -/
theorem Symmetric.exists_only_mate {system : SystemModels} {known : Models}
    (symmetric : Symmetric system known) {model other : Model} {field : Field} {relation : Relation}
    (found : known.find? model.name = some model) (otherFound : known.find? other.name = some other)
    (apart : other.name ≠ model.name) (present : field ∈ model.fields)
    (related : field.relation? = some relation) (leads : relation.target = other.name) :
    ∃ mate ∈ other.fields, field.Mates model.name other.name mate ∧
      other.fields.filter (fun again => again.invertsTo model.name field.name) = [mate] := by
  -- The mate is there as the graph is symmetric; another field that inverts would be its double.
  obtain ⟨target, targetFound, mate, matePresent, mates⟩ := symmetric.mated _ _ found field present
    relation related ⟨leads ▸ apart, leads ▸ symmetric.inCatalog _ _ otherFound⟩
  rw [leads] at targetFound
  obtain rfl : other = target := Option.some.inj (otherFound.symm.trans targetFound)
  refine ⟨mate, matePresent, mates, Model.filter_eq_singleton
    (symmetric.tidy _ _ otherFound).distinct matePresent mates.symm.invertsTo ?_⟩
  exact fun again listed inverts =>
    symmetric.eq_of_invertsTo found otherFound (Ne.symm apart) present mates matePresent listed
      inverts

/-! ## States reached -/

namespace Lineage

variable {configuration : Configuration} {subjects : String → Prop} {database : Database}

/-- Changes that all succeed are calls of which none stops partway. -/
theorem reachable (lineage : Lineage configuration (fun request => subjects request.subject)
    database) : Reachable configuration subjects database := by
  -- Whatever succeeds does not stop partway.
  induction lineage with
  | empty transactional now => exact .empty transactional now
  | change executor request _ permitted ran ih =>
    exact .call executor (.change request) ih permitted ran nofun
  | beside _ same ih => exact .beside ih same

/-- After changes that have all succeeded, none of them of a system model, the stored definitions
can be read, and the graph of what is read is symmetric and of formed definitions. -/
theorem exists_symmetric (lineage : Lineage configuration
      (fun request => configuration.system.contains request.subject = false) database)
    (executor : Executor) :
    ∃ known, (registryWith executor configuration).knownModels database = (.ok known, database) ∧
      Symmetric configuration.system known ∧
      ∀ definition ∈ known.members, definition.Formed configuration.system known := by
  obtain ⟨known, read, kept⟩ := lineage.exists_knownModels executor
  obtain ⟨catalog, holds, -, symmetric⟩ := lineage.reachable.exists_symmetric
  -- There is one store, so there is one thing to be read.
  have again := (Registry.shows_database executor configuration holds).knownModels
  rw [read, Prod.mk.injEq, Except.ok.injEq] at again
  exact ⟨known, read, again.1.symm ▸ symmetric, fun definition listed => (kept definition listed).1⟩

/-- After changes that have all succeeded, none of them of a system model, every many-to-many field
by which one stored model relates to another has one counterpart there, and of the two the same join
table is declared from either definition: of the same name, and with the same two columns, each of
which refers to its table in the same type. -/
theorem joinTable_agrees (lineage : Lineage configuration
      (fun request => configuration.system.contains request.subject = false) database)
    (executor : Executor) :
    ∃ known, (registryWith executor configuration).knownModels database = (.ok known, database) ∧
      ∀ model ∈ known.members, ∀ field ∈ model.fields, ∀ relation,
        field.relation? = some relation → relation.kind = .manyToMany →
        ∀ other ∈ known.members, relation.target = other.name → other.name ≠ model.name →
          ∃ mate back table left right,
            other.fields.filter (fun again => again.invertsTo model.name field.name) = [mate] ∧
            mate.relation? = some back ∧ back.kind = .manyToMany ∧
            relation.inverseName = some mate.name ∧
            Context.joinTable ⟨configuration.system, known⟩ model field =
              .ok (some (.createJoinTable table left right)) ∧
            Context.joinTable ⟨configuration.system, known⟩ other mate =
              .ok (some (.createJoinTable table right left)) ∧
            left.name.text = model.name ++ "_id" ∧ left.references = [model.name] ∧
            right.name.text = other.name ++ "_id" ∧ right.references = [other.name] := by
  obtain ⟨known, read, symmetric, formed⟩ := lineage.exists_symmetric executor
  refine ⟨known, read, fun model listed field present relation related manyToMany other otherListed
    leads apart => ?_⟩
  have found := Roster.mem_iff_find?.mp listed
  have otherFound := Roster.mem_iff_find?.mp otherListed
  have uses : relation.kind.usesJoinTable = true := by rw [manyToMany]; rfl
  obtain ⟨mate, matePresent, mates, only⟩ :=
    symmetric.exists_only_mate found otherFound apart present related leads
  obtain ⟨held, back, heldRelated, backRelated, -, -, named, -, kind, -⟩ := mates.sides
  rw [related, Option.some.injEq] at heldRelated
  subst heldRelated
  -- Both definitions are formed, so both sides can be declared.
  have owned := formed model listed
  have otherOwned := formed other otherListed
  obtain ⟨first, done⟩ := @Context.exists_joinTable_of_formed ⟨configuration.system, known⟩ model
    field _ _ owned.name (owned.fields field present)
  obtain ⟨second, otherDone⟩ := @Context.exists_joinTable_of_formed ⟨configuration.system, known⟩
    other mate _ _ otherOwned.name (otherOwned.fields mate matePresent)
  -- The relation is resolved in the graph, so that its join table has a name.
  have resolved := (symmetric.tidy _ _ found).resolved field present relation related
  obtain ⟨table, left, right, -, rfl, rfl, columns⟩ := Context.joinTable_of_mates listed otherListed
    apart mates related uses (resolved.joined uses) done otherDone
  exact ⟨mate, back, table, left, right, only, backRelated, by rw [kind, manyToMany]; rfl, named,
    done, otherDone, columns⟩

/-- The key of tags that are told apart by texts. -/
def textKey : Field := .asPrimaryKey (.ofScalar "id" .text)

/-- Tags are defined, then posts that bear them, and then the tags are updated to list these posts
under another name. -/
def relabelling : List Change := [
  .define "Tag" [textKey],
  .define "Post" [.ofRelation "tags" (.to .manyToMany "Tag")],
  .update "Tag" [textKey, .ofRelation "articles" { Relation.to .manyToMany "Post" with
    inverseName := some "tags" }]]

/-- The state that these changes lead to. -/
def relabelled : Database :=
  relabelling.foldl (fun database request =>
    (request.run (registryWith .idle .standard) database).2) (.empty false 0)

/-- None of these changes is of a system model, and they all succeed. -/
theorem lineage_relabelled : Lineage .standard
    (fun request => Configuration.standard.system.contains request.subject = false)
    relabelled := by
  -- From the empty database on, each change is permitted and succeeds.
  refine of_success (of_success (of_success (.empty false 0) .idle _ ?_ ?_) .idle _ ?_ ?_)
    .idle _ ?_ ?_ <;> decide +kernel

/-- The posts and the tags agree on the join table that the posts gave its name, although it would
have another one if the tags had. -/
theorem joinTable_agrees_relabelled :
    Lineage .standard
      (fun request => Configuration.standard.system.contains request.subject = false)
      relabelled ∧
    ∃ known post tag table left right,
      (registryWith .idle .standard).knownModels relabelled = (.ok known, relabelled) ∧
      known.members = [post, tag] ∧
      tag.fields = [textKey, .ofRelation "articles" { Relation.to .manyToMany "Post" with
        inverseName := some "tags", joinTable := some "Post_tags_Tag" }] ∧
      Context.joinTable ⟨Configuration.standard.system, known⟩ tag
        (.ofRelation "articles" { Relation.to .manyToMany "Post" with
          inverseName := some "tags", joinTable := some "Post_tags_Tag" }) =
        .ok (some (.createJoinTable table left right)) ∧
      Context.joinTable ⟨Configuration.standard.system, known⟩ post
        (.ofRelation "tags" { Relation.to .manyToMany "Tag" with
          inverseName := some "articles", joinTable := some "Post_tags_Tag" }) =
        .ok (some (.createJoinTable table right left)) ∧
      left.name.text = "Tag_id" ∧ left.references = ["Tag"] ∧
      right.name.text = "Post_id" ∧ right.references = ["Post"] := by
  obtain ⟨known, read, agree⟩ := joinTable_agrees lineage_relabelled .idle
  -- The definitions that are read are evaluated; that they agree is an instance of the theorem.
  have members : ((registryWith .idle .standard).knownModels relabelled).1.map (·.members) =
      .ok [⟨"Post", [.ofRelation "tags" { Relation.to .manyToMany "Tag" with
          inverseName := some "articles", joinTable := some "Post_tags_Tag" }]⟩,
        ⟨"Tag", [textKey, .ofRelation "articles" { Relation.to .manyToMany "Post" with
          inverseName := some "tags", joinTable := some "Post_tags_Tag" }]⟩] := by
    decide +kernel
  rw [read] at members
  have members := Except.ok.inj members
  obtain ⟨mate, back, table, left, right, only, -, -, -, done, otherDone, columns⟩ :=
    agree _ (members ▸ List.mem_cons_of_mem _ List.mem_cons_self) _
      (List.mem_cons_of_mem _ List.mem_cons_self) _ rfl rfl _ (members ▸ List.mem_cons_self) rfl
      (by decide)
  -- The one field of the posts that inverts to the articles is that of the tags.
  obtain rfl := List.singleton_inj.mp only
  exact ⟨lineage_relabelled, known, _, _, table, left, right, read, members, rfl, done, otherDone,
    columns⟩

end Lineage

end ModelCatalog
