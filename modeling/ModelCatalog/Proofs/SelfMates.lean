import ModelCatalog.Proofs.RelationGraph
import ModelCatalog.Proofs.WritePlan

/-! The relations of a model to itself come in pairs when no two of them name one inverse.

Pairing puts one counterpart in place after the other, and a later one may take the place of an
earlier one. What is kept is that from every self-relation that is done, following the counterparts
comes to a pair. -/

namespace ModelCatalog

namespace Field

/-- Two fields of a model stand for the two sides of one relation of the model to itself: each is
the counterpart of the other, the kinds are inverse, and a join table is shared. A relation that
names no inverse goes by the default. -/
structure Answers (home : String) (field mate : Field) : Prop where
  sides : ∃ relation back, field.relation? = some relation ∧ mate.relation? = some back ∧
    relation.target = home ∧ back.target = home ∧ back.kind = relation.kind.inverse ∧
    (relation.kind.usesJoinTable = true → back.joinTable = relation.joinTable)
  named : mate.name = field.counterpartName home
  inverse : mate.counterpartName home = field.name

variable {home : String} {field mate : Field}

/-- The sides may be looked at in either order. -/
theorem Answers.symm (answers : field.Answers home mate) : mate.Answers home field := by
  -- The inverse of the inverse is the kind itself.
  obtain ⟨relation, back, related, backRelated, leads, returns, kind, joined⟩ := answers.sides
  refine ⟨⟨back, relation, backRelated, related, returns, leads, ?_, ?_⟩, answers.inverse.symm,
    answers.named.symm⟩
  · rw [kind]
    cases relation.kind <;> rfl
  · rw [kind, RelationKind.usesJoinTable_inverse]
    exact fun uses => (joined uses).symm

/-- Both sides target the model. -/
theorem Answers.targets (answers : field.Answers home mate) : field.targets home = true := by
  -- Where the field leads is one of the sides.
  obtain ⟨relation, -, related, -, leads, -⟩ := answers.sides
  exact targets_iff.mpr ⟨relation, related, leads⟩

/-- The two sides of a resolved relation of a model of the catalog to itself are mates. -/
theorem Answers.mates {system : SystemModels} (answers : field.Answers home mate)
    (resolved : field.Resolved system) (mateResolved : mate.Resolved system)
    (inCatalog : system.contains home = false) : field.Mates home home mate := by
  obtain ⟨relation, back, related, backRelated, leads, returns, kind, joined⟩ := answers.sides
  -- Resolved relations of the catalog have their inverse names written out.
  obtain ⟨name, given⟩ := Option.isSome_iff_exists.mp
    ((resolved relation related).named (leads ▸ inCatalog))
  obtain ⟨backName, backGiven⟩ := Option.isSome_iff_exists.mp
    ((mateResolved back backRelated).named (returns ▸ inCatalog))
  refine ⟨relation, back, related, backRelated, leads, returns, ?_, ?_, kind, joined⟩
  · rw [answers.named, given, counterpartName_of_inverse related given]
  · rw [← answers.inverse, backGiven, counterpartName_of_inverse backRelated backGiven]

/-- A field is its own other side when it is its own counterpart and looks alike from both. -/
theorem answers_self {relation : Relation} (related : field.relation? = some relation)
    (leads : relation.target = home) (own : field.counterpartName home = field.name)
    (symmetric : relation.kind.inverse = relation.kind) : field.Answers home field where
  -- The one relation stands on both sides.
  sides := ⟨relation, relation, related, related, leads, leads, symmetric.symm, fun _ => rfl⟩
  named := own.symm
  inverse := own

/-- The counterpart that is put in place for a self-relation is its other side. -/
theorem answers_upsertCounterpart (model : Model) {relation : Relation}
    (related : field.relation? = some relation) (leads : relation.target = home) :
    field.Answers home (model.upsertCounterpart home field.name
      (ofRelation (field.counterpartName home) (relation.facing home field.name))).field := by
  generalize wanted : ofRelation (field.counterpartName home)
    (relation.facing home field.name) = desired
  have wantedRelation : desired.relation? = some (relation.facing home field.name) := by
    rw [← wanted]
    rfl
  -- Of a relation that was there only the foreign key and the rule for deletions may be kept.
  obtain ⟨foreignKey, onDelete, merged⟩ := relation?_mergeInto wantedRelation
    (model.upsertCounterpart home field.name desired).field
  rw [Model.mergeInto_upsertCounterpart] at merged
  refine ⟨⟨relation, _, related, merged, leads, rfl, rfl, fun uses => ?_⟩, ?_, ?_⟩
  · simp [Relation.facing, uses]
  · rw [Model.name_field_upsertCounterpart, ← wanted]
    rfl
  · exact counterpartName_of_inverse merged rfl home

end Field

namespace Resolution

variable {start model next : Model} {name home : String} {todo : List String}

/-- A self-relation that is its own counterpart is passed over only when it looks alike from both
sides. -/
theorem kind_of_pairSelf {field : Field} {relation : Relation}
    (done : pairSelf model name = .ok next) (found : model.field? name = some field)
    (related : field.relation? = some relation)
    (own : field.counterpartName model.name = field.name) :
    relation.kind.inverse = relation.kind := by
  have same : (Field.ofRelation (field.counterpartName model.name)
      (relation.facing model.name field.name)).name = field.name := own
  -- The step was not refused, and it is refused unless the kind is its own inverse.
  unfold pairSelf at done
  simp only [found, related, Field.counterpart?_eq, Option.map_some, if_pos same] at done
  split at done
  · assumption
  · cases done

/-- From a self-relation, following counterparts comes to a pair, over self-relations that take
none for their counterpart that is still to come. -/
inductive Leads (home : String) (model : Model) (todo : List String) : Field → Prop where
  | mated {field mate : Field} (listed : mate ∈ model.fields)
      (answers : field.Answers home mate) : Leads home model todo field
  | onward {field between : Field} (listed : between ∈ model.fields)
      (targets : between.targets home = true)
      (named : between.name = field.counterpartName home)
      (done : between.counterpartName home ∉ todo)
      (later : Leads home model todo between) : Leads home model todo field

/-- What leads to a pair still does with less to come. -/
theorem Leads.tail {field : Field} (leads : Leads home model (name :: todo) field) :
    Leads home model todo field := by
  -- The induction is on the way that leads to the pair.
  induction leads with
  | mated listed answers => exact .mated listed answers
  | onward listed targets named done _ ih =>
    exact .onward listed targets named (fun later => done (List.mem_cons_of_mem _ later)) ih

/-- What leads to a pair still does when the first relation to come gets its counterpart: where
that takes the place of a field on the way, the way ends there. -/
theorem Leads.place {first placed field : Field}
    (placement : Placement start model first placed next)
    (answers : first.Answers start.name placed)
    (present : first ∈ model.fields) (once : first.name ∉ todo)
    (only : ∀ one ∈ model.fields, one.name = first.name → one = first)
    (leads : Leads start.name model (first.name :: todo) field) (listed : field ∈ model.fields) :
    Leads start.name next todo field := by
  have stays : first ∈ next.fields := placement.stays present
  have isPlaced : placed ∈ next.fields := placement.listed.mpr (Or.inl rfl)
  -- A field whose counterpart is the one that was put in place leads there.
  have reaches : ∀ one : Field, first.counterpartName start.name = one.counterpartName start.name →
      Leads start.name next todo one := fun one same =>
    .onward isPlaced placement.targets (placement.named.trans same)
      (placement.claim.symm ▸ once) (.mated stays answers.symm)
  -- The induction is on the way. It stands unless one of its fields pairs with the relation, which
  -- then leads to what was put in place.
  induction leads with
  | @mated one mate mateListed pair =>
    cases pairs : mate.pairsWith start.name first.name (first.counterpartName start.name) with
    | false => exact .mated (placement.listed.mpr (Or.inr ⟨mateListed, pairs⟩)) pair
    | true =>
      rcases (Field.pairsWith_iff.mp pairs).2 with sameName | inverts
      · exact reaches one (sameName.symm.trans pair.named)
      · -- The one side of a pair went because the other is the relation itself.
        have claim := Field.counterpartName_of_invertsTo inverts start.name
        rw [only one listed (pair.inverse.symm.trans claim)]
        exact .mated isPlaced answers
  | @onward one between betweenListed targets named done _ ih =>
    cases pairs : between.pairsWith start.name first.name (first.counterpartName start.name) with
    | false =>
      exact .onward (placement.listed.mpr (Or.inr ⟨betweenListed, pairs⟩)) targets named
        (fun later => done (List.mem_cons_of_mem _ later)) (ih betweenListed)
    | true =>
      rcases (Field.pairsWith_iff.mp pairs).2 with sameName | inverts
      · exact reaches one (sameName.symm.trans named)
      · -- A field on the way that inverts to the relation was to come, and it was not.
        rw [Field.counterpartName_of_invertsTo inverts] at done
        exact absurd List.mem_cons_self done

/-- Every self-relation that is done leads to a pair. -/
def Led (home : String) (todo : List String) (model : Model) : Prop :=
  ∀ field ∈ model.fields, field.targets home = true → field.name ∉ todo →
    Leads home model todo field

/-- One step of pairing keeps it that every self-relation that is done leads to a pair. -/
theorem Led.step (led : Led start.name (name :: todo) model)
    (pairing : Pairing start (name :: todo) model)
    (distinct : (start.fields.map Field.name).Nodup) (declared : name ∈ start.selfNames)
    (once : name ∉ todo) (done : pairSelf model name = .ok next) :
    Led start.name todo next := by
  rcases pairSelf_cases done with ⟨rfl, own⟩ | ⟨first, relation, found, related, differ, rfl⟩
  · intro field present targets notTodo
    by_cases same : field.name = name
    · -- The relation that was passed over is its own other side.
      have found := pairing.field?_of_name distinct declared present same
      obtain ⟨relation, related, leads⟩ := Field.targets_iff.mp targets
      have itself := own field relation found related
      have symmetric := kind_of_pairSelf done found related itself
      rw [pairing.name] at itself
      exact .mated present (Field.answers_self related leads itself symmetric)
    · exact (led field present targets (by simp [same, notTodo])).tail
  · obtain ⟨present, rfl⟩ := Model.mem_of_field? found
    rw [pairing.name] at differ ⊢
    have targets := pairing.targets_of_name distinct present declared
    have leads : relation.target = start.name := by
      simpa [Field.targets_eq related] using targets
    have placement := pairing.placement relation differ
    have answers := Field.answers_upsertCounterpart model related leads
    have only : ∀ one ∈ model.fields, one.name = first.name → one = first := by
      intro one before same
      have twice := pairing.field?_of_name distinct declared before same
      rw [found, Option.some.injEq] at twice
      exact twice.symm
    intro field listed back notTodo
    -- Fields that were there before are led as before, but for the relation itself, which is mated
    -- now.
    rcases placement.listed.mp listed with rfl | ⟨before, -⟩
    · exact .mated (placement.stays present) answers.symm
    by_cases same : field.name = first.name
    · rw [only field before same]
      exact .mated (placement.listed.mpr (Or.inl rfl)) answers
    · exact Leads.place placement answers present once only
        (led field before back (by simp [same, notTodo])) before

/-- Once pairing has succeeded, every self-relation leads to a pair. -/
theorem led_of_pairSelves (distinct : (start.fields.map Field.name).Nodup)
    (done : pairSelves start = .ok model) : Led start.name [] model := by
  refine (pairSelves_induction (Led start.name) distinct ?_
    (fun _ _ _ _ pairing declared once done led =>
      led.step pairing distinct declared once done) done).2
  -- At the beginning no self-relation is done.
  intro field present targets notTodo
  exact absurd (Model.mem_selfNames.mpr ⟨field, present, targets, rfl⟩) notTodo

end Resolution

namespace Model

/-- No two relations of a model to itself have one counterpart. -/
def SelfInversesApart (model : Model) : Prop :=
  ∀ one ∈ model.fields, ∀ other ∈ model.fields, one.targets model.name = true →
    other.targets model.name = true →
    one.counterpartName model.name = other.counterpartName model.name → one = other

instance (model : Model) : Decidable model.SelfInversesApart :=
  inferInstanceAs (Decidable (∀ one ∈ model.fields, ∀ other ∈ model.fields, _ → _ → _ → _))

/-- Every relation of a model to itself has its other side among the fields. -/
def SelfMated (model : Model) : Prop :=
  ∀ field ∈ model.fields, field.targets model.name = true →
    ∃ mate ∈ model.fields, field.Answers model.name mate

/-- A self-relation that has a field for its counterpart is the other side of that field. -/
theorem SelfInversesApart.eq_of_answers {model : Model} (apart : model.SelfInversesApart)
    {field mate other : Field} (listed : mate ∈ model.fields)
    (answers : field.Answers model.name mate) (present : other ∈ model.fields)
    (targets : other.targets model.name = true)
    (claims : other.counterpartName model.name = field.name) : other = mate :=
  -- Both are the counterparts of the field, and no two self-relations claim the same one.
  apart other present mate listed targets answers.symm.targets (claims.trans answers.inverse.symm)

/-- Where no two self-relations have one counterpart, those that lead to a pair are in one. -/
theorem selfMated_of_led {model : Model} (apart : model.SelfInversesApart)
    (led : Resolution.Led model.name [] model) : model.SelfMated := by
  intro field present targets
  have leads := led field present targets (by simp)
  -- The way is walked back from the pair, which no other field shares the counterpart with.
  induction leads with
  | mated listed answers => exact ⟨_, listed, answers⟩
  | @onward field between listed back named done later ih =>
    obtain ⟨mate, mateListed, answers⟩ := ih listed back
    -- The field on the way and its mate have one counterpart.
    have same : mate = field := by
      refine apart mate mateListed field present answers.symm.targets targets ?_
      rw [answers.inverse, named]
    exact ⟨between, listed, same ▸ answers.symm⟩

/-- A field of a resolved model of the catalog whose other side is among the fields has its mate
there. -/
theorem SelfMated.hasMate {system : SystemModels} {model : Model} (mated : model.SelfMated)
    (resolved : model.Resolved system) (inCatalog : system.contains model.name = false)
    {field : Field} (present : field ∈ model.fields) (targets : field.targets model.name = true) :
    model.HasMate model.name field := by
  -- Answering makes mates of resolved fields.
  obtain ⟨mate, listed, answers⟩ := mated field present targets
  exact ⟨mate, listed, answers.mates (resolved field present) (resolved mate listed) inCatalog⟩

end Model

namespace WritePlan

variable {context : Context} {old : Option Record} {model : Model} {plan : WritePlan}

/-- The self-relations of a planned definition lead to pairs. -/
theorem led_of_planWrite (planned : context.planWrite old model = .ok plan) :
    Resolution.Led plan.definition.name [] plan.definition := by
  -- The resolved model was filled in before its self-relations were paired.
  obtain ⟨distinct, resolved⟩ := resolve_of_planWrite planned
  have filled := @Resolution.nodup_names_filled context (old.map Record.definition) _ distinct
  have done := (Context.resolve_eq_ok.mp resolved).1
  rw [(Resolution.pairing_of_pairSelves filled done).name]
  exact Resolution.led_of_pairSelves filled done

/-- The relations of a planned model to itself come in pairs when no two of them have one
counterpart: to each there is one that has it for its counterpart, which is its other side. In a
model of the catalog all inverse names are written out, so that the two are mates by name. -/
theorem self_relations_paired (planned : context.planWrite old model = .ok plan) :
    let home := plan.definition.name
    (context.system.contains home = false →
      (∀ field ∈ plan.definition.fields, ∀ relation, field.relation? = some relation →
        relation.target = home → relation.inverseName.isSome = true) ∧
      (plan.definition.SelfInversesApart →
        ∀ field ∈ plan.definition.fields, field.targets home = true →
          ∃ mate, plan.definition.fields.filter (fun other => other.invertsTo home field.name) =
            [mate] ∧ field.Mates home home mate)) ∧
    (plan.definition.SelfInversesApart →
      ∀ field ∈ plan.definition.fields, field.targets home = true →
        ∃ mate, plan.definition.fields.filter (fun other =>
          other.targets home && other.counterpartName home == field.name) = [mate] ∧
          field.Answers home mate) := by
  intro home
  have led := led_of_planWrite planned
  have distinct := (Model.admitted_of_validate (valid_of_planWrite planned)).distinct
  have resolved := Context.resolved_of_resolve (resolve_of_planWrite planned).2
  refine ⟨fun inCatalog => ⟨fun field present relation related leads => ?_,
    fun apart field present targets => ?_⟩, fun apart field present targets => ?_⟩
  · exact (resolved field present relation related).named (leads ▸ inCatalog)
  · -- The mate is alone in inverting to the field, since what inverts to it has one counterpart
    -- with the mate.
    obtain ⟨mate, listed, answers⟩ := Model.selfMated_of_led apart led field present targets
    have mates := answers.mates (resolved field present) (resolved mate listed) inCatalog
    refine ⟨mate, Model.filter_eq_singleton distinct listed mates.symm.invertsTo ?_, mates⟩
    intro other otherPresent inverts
    exact apart.eq_of_answers listed answers otherPresent (Field.targets_of_invertsTo inverts)
      (Field.counterpartName_of_invertsTo inverts home)
  · obtain ⟨mate, listed, answers⟩ := Model.selfMated_of_led apart led field present targets
    refine ⟨mate, Model.filter_eq_singleton distinct listed ?_ ?_, answers⟩
    · simp [home, answers.symm.targets, answers.inverse]
    · intro other otherPresent claims
      simp only [Bool.and_eq_true, beq_iff_eq] at claims
      exact apart.eq_of_answers listed answers otherPresent claims.1 claims.2

/-- Categories in a tree and in a sequence, some of which are related. -/
def category : Model where
  name := "Category"
  fields := [
    .ofRelation "parent" (.to .manyToOne "Category"),
    .ofRelation "related" { Relation.to .manyToMany "Category" with inverseName := some "related" },
    .ofRelation "next" { Relation.to .oneToOne "Category" with inverseName := some "previous" }]

/-- Categories as they are planned, with the counterparts that were missing. -/
def plannedCategory : Model where
  name := "Category"
  fields := [
    .ofRelation "parent"
      { Relation.to .manyToOne "Category" with inverseName := some "categorys" },
    .ofRelation "related"
      { Relation.to .manyToMany "Category" with
        inverseName := some "related", joinTable := some "Category_related_Category" },
    .ofRelation "next" { Relation.to .oneToOne "Category" with inverseName := some "previous" },
    .ofRelation "categorys"
      { Relation.to .oneToMany "Category" with inverseName := some "parent" },
    .ofRelation "previous" { Relation.to .oneToOne "Category" with inverseName := some "next" }]

/-- The relations of categories to categories come in pairs, one of them with itself. -/
theorem self_relations_paired_category :
    ∃ plan, (Context.mk .standard ∅).planWrite none category = .ok plan ∧
      plan.definition = plannedCategory ∧
      ∀ field ∈ plannedCategory.fields,
        ∃ mate, plannedCategory.fields.filter
            (fun other => other.invertsTo "Category" field.name) = [mate] ∧
          field.Mates "Category" "Category" mate := by
  obtain ⟨plan, planned, isPlanned⟩ := Outcome.map_eq_ok.mp
    (show ((Context.mk .standard ∅).planWrite none category).map definition =
      .ok plannedCategory by decide +kernel)
  have paired := self_relations_paired planned
  rw [isPlanned] at paired
  obtain ⟨-, mated⟩ := paired.1 (by decide +kernel)
  -- The fields of categories all relate to categories, and no two of them have one counterpart.
  exact ⟨plan, planned, isPlanned, fun field present =>
    mated (by decide) field present ((by decide : ∀ field ∈ plannedCategory.fields,
      field.targets "Category" = true) field present)⟩

/-- The parent of a user. -/
def parent : Field := .ofRelation "parent" (.to .manyToOne "User")

/-- The manager of a member of the staff, as it is planned. -/
def managed : Field :=
  .ofRelation "manager" { Relation.to .manyToOne "Staff" with inverseName := some "staffs" }

/-- Two relations of a model to itself that are planned without a field that inverts to them. By
design a relation to a system model takes no inverse name, also where the model that has it bears
that name itself. The other is no such rule: of two relations to itself that name one inverse the
later takes the counterpart over, where two relations to another model that name one inverse there
are refused. -/
theorem self_relation_without_mate :
    (∃ plan, (Context.mk .standard ∅).planWrite none ⟨"User", [parent]⟩ = .ok plan ∧
      parent ∈ plan.definition.fields ∧ parent.targets plan.definition.name = true ∧
      parent.relation?.bind Relation.inverseName = none) ∧
    ∃ plan, (Context.mk .standard ∅).planWrite none
        ⟨"Staff", [.ofRelation "manager" (.to .manyToOne "Staff"),
          .ofRelation "mentor" (.to .manyToOne "Staff")]⟩ = .ok plan ∧
      managed ∈ plan.definition.fields ∧ managed.targets plan.definition.name = true ∧
      plan.definition.fields.filter
        (fun other => other.invertsTo plan.definition.name managed.name) = [] := by
  constructor
  · obtain ⟨plan, planned, isPlanned⟩ := Outcome.map_eq_ok.mp
      -- A relation to a system model takes no inverse name, also where the model bears that name.
      (show ((Context.mk .standard ∅).planWrite none ⟨"User", [parent]⟩).map definition =
        .ok ⟨"User", [parent, .ofRelation "users"
          { Relation.to .oneToMany "User" with inverseName := some "parent" }]⟩ by decide +kernel)
    refine ⟨plan, planned, ?_⟩
    rw [isPlanned]
    decide
  · obtain ⟨plan, planned, isPlanned⟩ := Outcome.map_eq_ok.mp
      -- The later relation takes the counterpart over.
      (show ((Context.mk .standard ∅).planWrite none
          ⟨"Staff", [.ofRelation "manager" (.to .manyToOne "Staff"),
            .ofRelation "mentor" (.to .manyToOne "Staff")]⟩).map definition =
        .ok ⟨"Staff", [managed,
          .ofRelation "mentor" { Relation.to .manyToOne "Staff" with inverseName := some "staffs" },
          .ofRelation "staffs"
            { Relation.to .oneToMany "Staff" with inverseName := some "mentor" }]⟩
      by decide +kernel)
    refine ⟨plan, planned, ?_⟩
    rw [isPlanned]
    decide

end WritePlan

end ModelCatalog
