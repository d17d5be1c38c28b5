import ModelCatalog.Proofs.Settled

/-! Consistent models: stored definitions that pass the check and agree with each other are left
alone by a repair, unless they say what they have no use for. -/

namespace ModelCatalog

open Resolution WritePlan RepairPlan

variable {system : SystemModels} {models : Models}

/-- Models are consistent when none of them is a system model, each passes the check, every relation
to a model of the catalog has its mate there, and many-to-many relations name their join tables. -/
structure Consistent (system : SystemModels) (models : Models) : Prop where
  inCatalog : ∀ name model, models.find? name = some model → system.contains name = false
  valid : ∀ name model, models.find? name = some model → model.validate system models = .ok ()
  mated : ∀ name model, models.find? name = some model → ∀ field ∈ model.fields, ∀ relation,
    field.relation? = some relation → system.contains relation.target = false →
      ∀ target, models.find? relation.target = some target → target.HasMate name field
  joined : ∀ name model, models.find? name = some model → ∀ field ∈ model.fields, ∀ relation,
    field.relation? = some relation → relation.kind.usesJoinTable = true →
      relation.joinTable.isSome = true

/-- Consistent models are settled. -/
theorem Consistent.settled (consistent : Consistent system models) : Settled system models := by
  have admitted : ∀ name model, models.find? name = some model → model.Admitted system models :=
    fun name model found => Model.admitted_of_validate (consistent.valid name model found)
  -- A relation of a model to itself leads into the catalog, since the model is part of it.
  have selves : ∀ name model, models.find? name = some model → model.SelvesHaveMates := by
    intro name model found field present targets
    have own : model.name = name := Roster.name_of_find? found
    subst own
    obtain ⟨relation, related, leads⟩ := Field.targets_iff.mp targets
    exact consistent.mated _ model found field present relation related
      (leads ▸ consistent.inCatalog _ model found) model (leads ▸ found)
  -- The check has found the target of every relation.
  have reached : ∀ name model, models.find? name = some model → ∀ field ∈ model.fields,
      ∀ relation, field.relation? = some relation → system.contains relation.target = false →
        ∃ target, models.find? relation.target = some target ∧ target.HasMate name field := by
    intro name model found field present relation related inCatalog
    have own : model.name = name := Roster.name_of_find? found
    have there : ∃ target, models.find? relation.target = some target := by
      rcases ((admitted name model found).relations field present relation related).present with
        self | outside | known
      · -- The model relates to itself.
        exact ⟨model, by rw [self, own, found]⟩
      · -- The target is a system model, which was excluded.
        exact absurd (inCatalog.symm.trans outside) Bool.false_ne_true
      · -- The target is one of the known models.
        exact Option.isSome_iff_exists.mp (by rw [← Roster.contains_eq]; exact known)
    obtain ⟨target, targetFound⟩ := there
    exact ⟨target, targetFound,
      consistent.mated name model found field present relation related inCatalog target targetFound⟩
  refine { inCatalog := consistent.inCatalog, tidy := fun name model found => ?_,
           mated := fun name model found field present relation related out =>
             reached name model found field present relation related out.2,
           selves := selves
           equal := fun name model found => Model.sameAs_self (admitted name model found).finite }
  -- What is left are names, resolved relations and closed self-relations.
  refine ⟨(admitted name model found).distinct, fun field present relation related => ?_,
    (selves name model found).closed⟩
  refine ⟨fun inCatalog => ?_, consistent.joined name model found field present relation related⟩
  -- A relation that has a mate names it.
  obtain ⟨target, -, mate, -, mates⟩ :=
    reached name model found field present relation related inCatalog
  obtain ⟨held, -, again, -, -, -, named, -⟩ := mates.sides
  rw [related, Option.some.injEq] at again
  rw [again, named]
  rfl

/-! ## Deciding consistency -/

instance (source target : String) (field mate : Field) :
    Decidable (field.Mates source target mate) :=
  decidable_of_iff
    (∃ relation ∈ field.relation?, ∃ back ∈ mate.relation?, relation.target = target ∧
      back.target = source ∧ relation.inverseName = some mate.name ∧
      back.inverseName = some field.name ∧ back.kind = relation.kind.inverse ∧
      (relation.kind.usesJoinTable = true → back.joinTable = relation.joinTable)) <| by
    constructor
    · rintro ⟨relation, related, back, backRelated, sides⟩
      exact ⟨relation, back, related, backRelated, sides⟩
    · rintro ⟨relation, back, related, backRelated, sides⟩
      exact ⟨relation, related, back, backRelated, sides⟩

instance (target : Model) (source : String) (field : Field) :
    Decidable (target.HasMate source field) :=
  inferInstanceAs (Decidable (∃ mate ∈ target.fields, field.Mates source target.name mate))

/-- Whether models are consistent is told from their members. -/
theorem consistent_iff : Consistent system models ↔ ∀ model ∈ models.members,
    system.contains model.name = false ∧ model.validate system models = .ok () ∧
      ∀ pair ∈ model.relations,
        (system.contains pair.2.target = false → ∀ target ∈ models.members,
          target.name = pair.2.target → target.HasMate model.name pair.1) ∧
        (pair.2.kind.usesJoinTable = true → pair.2.joinTable.isSome = true) := by
  -- Models are found under their names exactly when they are members.
  constructor
  · intro consistent model listed
    have found := Roster.mem_iff_find?.mp listed
    -- Both conditions on a relation were stated for fields that have one.
    refine ⟨consistent.inCatalog _ model found, consistent.valid _ model found, ?_⟩
    rintro ⟨field, relation⟩ paired
    obtain ⟨present, related⟩ := Model.mem_relations.mp paired
    refine ⟨fun inCatalog target targetListed leads => ?_,
      consistent.joined _ model found field present relation related⟩
    exact consistent.mated _ model found field present relation related inCatalog target
      (leads ▸ Roster.mem_iff_find?.mp targetListed)
  · intro each
    have own : ∀ {name : String} {model : Model}, models.find? name = some model →
        model ∈ models.members ∧ model.name = name :=
      fun found => ⟨Roster.mem_of_find? found, Roster.name_of_find? found⟩
    -- The four parts are those of the condition on each member.
    refine ⟨fun name model found => ?_, fun name model found => ?_, ?_, ?_⟩
    · obtain ⟨listed, rfl⟩ := own found
      exact (each model listed).1
    · exact (each model (own found).1).2.1
    · -- A target that is found is a member of its own name.
      intro name model found field present relation related inCatalog target targetFound
      obtain ⟨listed, rfl⟩ := own found
      obtain ⟨targetListed, leads⟩ := own targetFound
      exact ((each model listed).2.2 (field, relation) (Model.mem_relations.mpr
        ⟨present, related⟩)).1 inCatalog target targetListed leads
    · -- A relation with a join table has it stated.
      intro name model found field present relation related
      exact ((each model (own found).1).2.2 (field, relation) (Model.mem_relations.mpr
        ⟨present, related⟩)).2

instance : Decidable (Consistent system models) := decidable_of_iff' _ consistent_iff

/-- Whether each relation that is paired has a property is told from the members. -/
theorem Models.eachPaired_iff {holds : Field → Relation → Prop} :
    models.EachPaired system holds ↔ ∀ model ∈ models.members, ∀ pair ∈ model.relations,
      system.contains pair.2.target = false → pair.1.invertsTo model.name pair.1.name = false →
        holds pair.1 pair.2 := by
  -- The relations of a model are its fields that have one.
  constructor
  · rintro each model listed ⟨field, relation⟩ paired
    obtain ⟨present, related⟩ := Model.mem_relations.mp paired
    exact each _ model (Roster.mem_iff_find?.mp listed) field present relation related
  · intro each name model found field present relation related inCatalog foreign
    have own : model.name = name := Roster.name_of_find? found
    subst own
    exact each model (Roster.mem_of_find? found) (field, relation)
      (Model.mem_relations.mpr ⟨present, related⟩) inCatalog foreign

instance {holds : Field → Relation → Prop} [∀ field relation, Decidable (holds field relation)] :
    Decidable (models.EachPaired system holds) := decidable_of_iff' _ Models.eachPaired_iff

namespace RepairPlan

variable {records : List Record}

/-- A repair of consistent records has nothing to do exactly when no relation between them says
anything it has no use for: a default, a foreign key where there is no column, or a join table where
there is none. A relation that is its own inverse may say so. -/
theorem idle_iff_of_consistent (distinct : (records.map Record.name).Nodup)
    (consistent : Consistent system (scanned records)) :
    ofRecords system records false = .ok (idle records.length) ↔
      (scanned records).EachPaired system fun field relation =>
        field.default = none ∧ relation.Fits := by
  -- A relation at rest is cleared already, which is to say that it has nothing of no use.
  rw [ofRecords_eq_idle_iff distinct, consistent.settled.atRest_iff]
  constructor
  · intro cleared name model found field present relation related inCatalog foreign
    exact (Field.cleared_eq_self_iff related).mp
      (cleared name model found field present relation related inCatalog foreign)
  · intro bare name model found field present relation related inCatalog foreign
    exact (Field.cleared_eq_self_iff related).mpr
      (bare name model found field present relation related inCatalog foreign)

/-- The first version of a model. -/
def stored (name : String) (fields : List Field) : Record := .first ⟨name, fields⟩ 0

/-- Posts with their comments, their tags and the posts they answer; what the owner of a model may
say about a column is said on either side. -/
def posts : List Record :=
  [stored "Comment" [
      .asRequired (.ofRelation "post"
        { Relation.to .manyToOne "Post" with
          inverseName := some "comments", foreignKey := some "on_post",
          onDelete := some .cascade }),
      .ofRelation "by" (.to .manyToOne "User")],
    stored "Post" [
      .ofRelation "comments"
        { Relation.to .oneToMany "Comment" with
          inverseName := some "post", onDelete := some .restrict },
      .asUnique (.ofRelation "tags"
        { Relation.to .manyToMany "Tag" with
          inverseName := some "posts", joinTable := some "tagged" }),
      .ofRelation "answers"
        { Relation.to .manyToOne "Post" with
          inverseName := some "answered", foreignKey := some "answers_post" },
      .ofRelation "answered"
        { Relation.to .oneToMany "Post" with inverseName := some "answers" },
      .withDefault (.ofRelation "twin"
        { Relation.to .oneToOne "Post" with inverseName := some "twin", joinTable := some "twins" })
        .now],
    stored "Tag" [
      .ofRelation "posts"
        { Relation.to .manyToMany "Post" with
          inverseName := some "tags", joinTable := some "tagged" }]]

/-- The posts are left alone. -/
theorem idle_posts :
    (posts.map Record.name).Nodup ∧ Consistent .standard (scanned posts) ∧
      ofRecords .standard posts false = .ok (idle 3) := by
  -- Names and consistency are decided, and so is the condition of the theorem.
  have distinct : (posts.map Record.name).Nodup := by decide
  have consistent : Consistent .standard (scanned posts) := by decide +kernel
  exact ⟨distinct, consistent, (idle_iff_of_consistent distinct consistent).mpr (by decide +kernel)⟩

/-- A post and its comments, of which the post names a foreign key it has no column for. -/
def keyedPosts : List Record :=
  [stored "Comment" [.ofRelation "post"
      { Relation.to .manyToOne "Post" with inverseName := some "comments" }],
    stored "Post" [.ofRelation "comments"
      { Relation.to .oneToMany "Comment" with
        inverseName := some "post", foreignKey := some "post_key" }]]

/-- Consistent posts are written anew, and counted as updated, when they name a foreign key they
have no column for. -/
theorem not_idle_keyedPosts :
    (keyedPosts.map Record.name).Nodup ∧ Consistent .standard (scanned keyedPosts) ∧
      (ofRecords .standard keyedPosts false).map (fun plan => (plan.updates, plan.report)) =
        .ok ([(⟨"Post", [.ofRelation "comments"
            { Relation.to .oneToMany "Comment" with inverseName := some "post" }]⟩, 1)],
          { RepairReport.untouched 2 with fieldsUpdated := 1, modelsUpdated := 1 }) ∧
      ofRecords .standard keyedPosts false ≠ .ok (idle keyedPosts.length) := by
  have done : (ofRecords .standard keyedPosts false).map (fun plan => (plan.updates, plan.report)) =
      .ok ([(⟨"Post", [.ofRelation "comments"
          { Relation.to .oneToMany "Comment" with inverseName := some "post" }]⟩, 1)],
        { RepairReport.untouched 2 with fieldsUpdated := 1, modelsUpdated := 1 }) := by
    decide +kernel
  -- The plan is worked out, and it writes the posts.
  refine ⟨by decide, by decide +kernel, done, fun isIdle => ?_⟩
  -- An idle plan has no updates.
  rw [isIdle] at done
  cases done

end RepairPlan

end ModelCatalog
