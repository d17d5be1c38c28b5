import ModelCatalog.Proofs.JoinTables

/-! The owners of join tables: of the fields of a model that come to one join table, the first
declares it, and the others get it as it is. -/

namespace ModelCatalog

/-- Of the members of one key the first is kept. -/
theorem filter_distinctBy {α : Type} (key : α → String) (name : String) (members : List α) :
    (distinctBy key members).filter (fun member => key member == name) =
      (members.find? fun member => key member == name).toList := by
  induction members with
  | nil => rfl
  | cons first rest ih =>
    rw [distinctBy, List.filter_cons, List.filter_filter, List.find?_cons]
    cases own : key first == name with
    | true =>
      -- Behind the first member nothing else of its key is left.
      have none : (distinctBy key rest).filter
          (fun other => key other == name && key other != key first) = [] := by
        rw [List.filter_eq_nil_iff]
        simp [beq_iff_eq.mp own]
      rw [none, if_pos rfl]
      rfl
    | false =>
      -- A member of another key takes nothing away of what is asked for.
      have kept : ∀ other ∈ distinctBy key rest,
          (key other == name && key other != key first) = (key other == name) := by
        intro other _
        by_cases same : key other = name <;> simp [same, Ne.symm (beq_eq_false_iff_ne.mp own)]
      rw [List.filter_congr kept, if_neg Bool.false_ne_true, ih]

/-- A field comes to a join table when it is a many-to-many relation of that table. -/
theorem Field.joinTable?_eq_some {field : Field} {model table : String} :
    field.joinTable? model = some table ↔ ∃ relation, field.relation? = some relation ∧
      relation.kind.usesJoinTable = true ∧ relation.joinTableName model field.name = table := by
  -- The name of the table is worked out only for a many-to-many relation.
  rw [joinTable?, Option.bind_eq_some_iff]
  refine exists_congr fun relation => and_congr_right fun _ => ?_
  rw [ite_eq_iff]
  simp

namespace Model

variable {model : Model} {field : Field} {table : String}

/-- The first field of a model that comes to a join table. -/
def joinTableOwner? (model : Model) (table : String) : Option Field :=
  model.fields.find? fun field => field.joinTable? model.name == some table

/-- The owner of a join table comes to it. -/
theorem joinTable?_of_owner (owns : model.joinTableOwner? table = some field) :
    field.joinTable? model.name = some table := by
  -- The owner was found by looking for that table.
  unfold joinTableOwner? at owns
  simpa using List.find?_some owns

/-- A join table that a field comes to has an owner. -/
theorem exists_joinTableOwner (present : field ∈ model.fields)
    (joins : field.joinTable? model.name = some table) :
    ∃ first, model.joinTableOwner? table = some first := by
  -- The field itself would be found, unless one before it is.
  rw [← Option.isSome_iff_exists, joinTableOwner?, List.find?_isSome]
  exact ⟨field, present, by simp [joins]⟩

end Model

namespace Context

variable {context : Context} {model : Model} {field first : Field} {relation : Relation}

/-- The first statement for a join table is that of the first field that has it. -/
theorem find?_joinTables {fields : List Field} {joins : List (Option Statement)} {table : String}
    (done : fields.mapM (context.joinTable model) = .ok joins)
    (found : fields.find? (fun other => other.joinTable? model.name == some table) = some first) :
    ∃ statement, context.joinTable model first = .ok (some statement) ∧
      (joins.filterMap id).find? (fun other => other.table.text == table) = some statement := by
  -- Fields and statements are walked side by side until the first field is reached.
  induction Outcome.mapM_eq_ok.mp done with
  | nil => cases found
  | @cons head joined fields joins made rest ih =>
    -- Fields without a join table are passed over on both sides.
    rw [List.find?_cons] at found
    cases joined with
    | none =>
      rw [joinTable?_of_joinTable made] at found
      exact ih (Outcome.mapM_eq_ok.mpr rest) found
    | some statement =>
      -- The statement bears the name of the table that its field comes to.
      obtain ⟨own, left, right, rfl, isOwn, -⟩ := of_joinTable made
      rw [isOwn, Option.some_beq_some] at found
      rw [List.filterMap_cons_some (f := id) rfl, List.find?_cons, Statement.table]
      cases same : own.text == table with
      | true =>
        rw [same] at found
        cases found
        exact ⟨_, made, rfl⟩
      | false =>
        rw [same] at found
        exact ih (Outcome.mapM_eq_ok.mpr rest) found

/-- The join table of a many-to-many relation refers to its model and its target. -/
theorem references_of_joinTable {statement : Statement} (related : field.relation? = some relation)
    (uses : relation.kind.usesJoinTable = true)
    (done : context.joinTable model field = .ok (some statement)) :
    statement.references = [model.name, relation.target] := by
  -- The statement is the one made of the two names.
  obtain ⟨table, left, right, owner, target, -, -, -, isOwner, isTarget, same⟩ :=
    exists_names_of_joinTable related uses done
  cases same
  simp [Statement.references, isOwner, isTarget]

/-- Two many-to-many fields that relate a model to the same other one and come to the same join
table have the same declared. -/
theorem joinTable_eq_of_target {twin : Relation} {one other : Option Statement}
    (related : field.relation? = some relation) (uses : relation.kind.usesJoinTable = true)
    (twinRelated : first.relation? = some twin) (twinUses : twin.kind.usesJoinTable = true)
    (apart : relation.target ≠ model.name) (leads : twin.target = relation.target)
    (shared : first.joinTable? model.name = field.joinTable? model.name)
    (done : context.joinTable model field = .ok one)
    (otherDone : context.joinTable model first = .ok other) : other = one := by
  simp only [Field.joinTable?, related, twinRelated, Option.bind_some, uses, twinUses, if_true,
    Option.some.injEq] at shared
  -- Either statement is made of the names of its table, its columns and its two models.
  obtain ⟨table, left, right, owner, target, isTable, isLeft, isRight, isOwner, isTarget, rfl⟩ :=
    exists_names_of_joinTable related uses done
  obtain ⟨again, leftAgain, rightAgain, ownerAgain, targetAgain, isTableAgain, isLeftAgain,
    isRightAgain, isOwnerAgain, isTargetAgain, rfl⟩ :=
    exists_names_of_joinTable twinRelated twinUses otherDone
  -- Only where a model relates to itself the second column depends on the field.
  simp only [Relation.joinColumnNames, leads, apart, if_false]
    at isLeft isRight isLeftAgain isRightAgain
  have sameTable : again = table :=
    Identifier.eq_of_text_eq (isTableAgain.trans (shared.trans isTable.symm))
  have ownColumn := joinColumn_congr (isLeftAgain.trans isLeft.symm)
    (Eq.refl (context.keyType model model.name)) (isOwnerAgain.trans isOwner.symm)
  have targetColumn := joinColumn_congr (isRightAgain.trans isRight.symm)
    (congrArg (context.keyType model) leads) (isTargetAgain.trans (leads.trans isTarget.symm))
  rw [sameTable, ownColumn, targetColumn]

/-- Of a model that can be compiled, every many-to-many field to another model has exactly one
statement for its join table. It is the statement of the first field that comes to this table, and
so it is that of the field itself, and refers to the model and to the target of the field, exactly
when the first field has the same target. -/
theorem joinTable_own_iff {synthesis : Synthesis} (done : context.synthesize model = .ok synthesis)
    (present : field ∈ model.fields) (related : field.relation? = some relation)
    (manyToMany : relation.kind = .manyToMany) (apart : relation.target ≠ model.name) :
    ∃ first statement,
      model.joinTableOwner? (relation.joinTableName model.name field.name) = some first ∧
      context.joinTable model first = .ok (some statement) ∧
      synthesis.joinTables.filter (fun other =>
        other.table.text == relation.joinTableName model.name field.name) = [statement] ∧
      (context.joinTable model field = .ok (some statement) ↔
        first.targets relation.target = true) ∧
      (statement.references = [model.name, relation.target] ↔
        first.targets relation.target = true) := by
  obtain ⟨-, -, joins, -, -, joinsDone, rfl⟩ := exists_parts_of_synthesize done
  have uses : relation.kind.usesJoinTable = true := by rw [manyToMany]; rfl
  have isTable : field.joinTable? model.name =
      some (relation.joinTableName model.name field.name) :=
    Field.joinTable?_eq_some.mpr ⟨relation, related, uses, rfl⟩
  -- The field itself comes to the table, so there is a first one that does.
  obtain ⟨first, owns⟩ := Model.exists_joinTableOwner present isTable
  have comes := Model.joinTable?_of_owner owns
  obtain ⟨twin, twinRelated, twinUses, -⟩ := Field.joinTable?_eq_some.mp comes
  obtain ⟨statement, declared, kept⟩ := find?_joinTables joinsDone owns
  obtain ⟨joined, -, fieldDone⟩ := Outcome.exists_of_mapM_eq_ok joinsDone present
  have refers := references_of_joinTable twinRelated twinUses declared
  refine ⟨first, statement, owns, declared, ?_, ?_, ?_⟩
  · -- Of each table the first statement is kept, and that is the one of the owner.
    rw [filter_distinctBy (fun other : Statement => other.table.text), kept]
    rfl
  · rw [Field.targets_eq twinRelated, beq_iff_eq]
    constructor
    · -- Statements that are one refer to the same target.
      intro ownDone
      have own := references_of_joinTable related uses ownDone
      rw [refers] at own
      simpa using own
    · -- A first field with the same target gives the very statement.
      intro leads
      rw [fieldDone, ← joinTable_eq_of_target related uses twinRelated twinUses apart leads
        (comes.trans isTable.symm) fieldDone declared]
  · -- The statement refers to the target of the first field.
    rw [Field.targets_eq twinRelated, beq_iff_eq, refers]
    simp

/-- Tags and topical tags are known. -/
def topical : Context where
  system := .standard
  known := Roster.ofList [{ name := "Tag", fields := [] }, { name := "topic_Tag", fields := [] }]

/-- Posts whose labels are kept with their tags. -/
def labelledPost : Model where
  name := "Post"
  fields := [
    .ofRelation "topics" (.to .manyToMany "topic_Tag"),
    .ofRelation "tags" { Relation.to .manyToMany "Tag" with joinTable := some "marks" },
    .ofRelation "labels" { Relation.to .manyToMany "Tag" with joinTable := some "marks" }]

/-- The labels of posts have one statement, which is that of the tags and their own. -/
theorem joinTable_own_iff_labelled :
    ∃ synthesis statement, topical.synthesize labelledPost = .ok synthesis ∧
      synthesis.joinTables.filter (fun other => other.table.text == "marks") = [statement] ∧
      topical.joinTable labelledPost
        (.ofRelation "labels" { Relation.to .manyToMany "Tag" with joinTable := some "marks" }) =
          .ok (some statement) ∧
      statement.references = ["Post", "Tag"] := by
  obtain ⟨synthesis, done⟩ := @Outcome.exists_of_isOk _ _ (topical.synthesize labelledPost)
    (by decide +kernel)
  obtain ⟨first, statement, owns, -, only, isOwn, refers⟩ := joinTable_own_iff done
    (show Field.ofRelation "labels" { Relation.to .manyToMany "Tag" with
      joinTable := some "marks" } ∈ labelledPost.fields by decide) rfl rfl (by decide)
  -- The labels come to the table that the tags own, whose target is theirs.
  have tags : labelledPost.joinTableOwner? "marks" = some (.ofRelation "tags"
      { Relation.to .manyToMany "Tag" with joinTable := some "marks" }) := by decide
  obtain rfl := Option.some.inj (owns.symm.trans tags)
  exact ⟨synthesis, statement, done, only, isOwn.mpr (by decide), refers.mpr (by decide)⟩

/-- Posts whose two relations come to one join table, as their names run into those of their
targets. -/
def crossedPost : Model where
  name := "Post"
  fields := [
    .ofRelation "related" (.to .manyToMany "topic_Tag"),
    .ofRelation "related_topic" (.to .manyToMany "Tag")]

/-- Both relations of these posts come to one join table. It is declared once, for the first of
them, and so nothing is declared that joins posts to tags. -/
theorem joinTable_other_crossed :
    ∃ synthesis, topical.synthesize crossedPost = .ok synthesis ∧
      (∀ field ∈ crossedPost.fields,
        field.joinTable? crossedPost.name = some "Post_related_topic_Tag") ∧
      synthesis.joinTables.map Statement.references = [["Post", "topic_Tag"]] ∧
      ∃ field ∈ crossedPost.fields, ∃ relation, field.relation? = some relation ∧
        relation.kind = .manyToMany ∧ relation.target ≠ crossedPost.name ∧
        ¬∃ statement, synthesis.joinTables.filter (fun other =>
            other.table.text == relation.joinTableName crossedPost.name field.name) =
              [statement] ∧
          statement.references = [crossedPost.name, relation.target] := by
  have declared : (topical.synthesize crossedPost).map
      (fun synthesis => synthesis.joinTables.map Statement.references) =
        .ok [["Post", "topic_Tag"]] := by
    decide +kernel
  obtain ⟨synthesis, done, refers⟩ := Outcome.map_eq_ok.mp declared
  refine ⟨synthesis, done, by decide, refers, _, List.mem_cons_of_mem _ List.mem_cons_self, _, rfl,
    rfl, by decide, ?_⟩
  rintro ⟨statement, only, joins⟩
  -- Whatever statement it is, it refers to other tables.
  have listed : statement ∈ synthesis.joinTables :=
    (List.mem_filter.mp (only ▸ List.mem_singleton_self statement)).1
  have among : statement.references ∈ [["Post", "topic_Tag"]] :=
    refers ▸ List.mem_map_of_mem listed
  rw [joins] at among
  exact absurd among (by decide)

end Context

end ModelCatalog
