import ModelCatalog.Proofs.Settled

/-! Contention: where no two relations claim one name, and none a name that something else has,
pruning and resolution leave models fit to be mended, with all self-relations in pairs. -/

namespace ModelCatalog

open Resolution WritePlan RepairPlan

variable {system : SystemModels}

/-- What is filed are the member that came last and the others of different names. -/
theorem Roster.mem_insert {α : Type} [Named α] {roster : Roster α} {member other : α} :
    other ∈ (roster.insert member).members ↔
      other = member ∨ other ∈ roster.members ∧ Named.name other ≠ Named.name member := by
  rw [mem_iff_find?, find?_insert, mem_iff_find?]
  -- The name asked for is that of the new member, or another one.
  by_cases same : Named.name member = Named.name other
  · simp [same, eq_comm]
  · rw [if_neg same]
    constructor
    · exact fun found => Or.inr ⟨found, Ne.symm same⟩
    · rintro (rfl | ⟨found, -⟩)
      · exact absurd rfl same
      · exact found

/-- A counterpart that was put in place is cleared. -/
theorem Field.cleared_mergeInto (relation : Relation) (source fieldName name : String)
    (existing : Field) :
    ((ofRelation name (relation.facing source fieldName)).mergeInto existing).cleared =
      (ofRelation name (relation.facing source fieldName)).mergeInto existing := by
  -- A counterpart has what its kind has use for, whatever was there before.
  cases held : existing.kind <;> cases column : relation.kind.inverse.hasColumn <;>
    cases table : relation.kind.usesJoinTable <;>
    simp [cleared, mergeInto, held, ofRelation, ofKind, Relation.facing, Relation.cleared, column,
      table]

/-! ## Pairing -/

/-- Self-relations that are fit to be paired: they name their inverses, no two of them have one
counterpart, and one that is its own counterpart looks alike from both sides. -/
structure Model.Pairable (home : String) (model : Model) : Prop where
  named : ∀ field ∈ model.fields, field.targets home = true →
    field.invertsTo home (field.counterpartName home) = true
  apart : ∀ one ∈ model.fields, ∀ other ∈ model.fields, one.targets home = true →
    other.targets home = true → one.counterpartName home = other.counterpartName home → one = other
  symmetric : ∀ field ∈ model.fields, ∀ relation, field.relation? = some relation →
    relation.target = home → field.counterpartName home = field.name →
      relation.kind.inverse = relation.kind

namespace Resolution

variable {start model next : Model} {name : String} {todo : List String}

/-- Self-relations stay fit to be paired when the counterpart of one of them is put in place. -/
theorem Placement.pairable {field placed : Field}
    (placement : Placement start model field placed next)
    (pairable : model.Pairable start.name) : next.Pairable start.name := by
  have inverts : placed.invertsTo start.name (placed.counterpartName start.name) = true := by
    rw [placement.claim]
    exact placement.inverts
  -- A field from before with the claim of the counterpart would have been replaced by it.
  have alone : ∀ one ∈ model.fields, one.targets start.name = true →
      one.pairsWith start.name field.name (field.counterpartName start.name) = false →
      one.counterpartName start.name ≠ placed.counterpartName start.name := by
    intro one present targets unpaired same
    have back := pairable.named one present targets
    rw [same, placement.claim] at back
    rw [Field.pairsWith_of_invertsTo back] at unpaired
    cases unpaired
  refine ⟨fun one listed targets => ?_,
    fun one listed other otherListed targets otherTargets same => ?_,
    fun one listed relation related leads own => ?_⟩
  · rcases placement.listed.mp listed with rfl | ⟨before, -⟩
    · exact inverts
    · exact pairable.named one before targets
  · -- The pair may be the counterpart twice, the counterpart and one from before, or two from
    -- before.
    rcases placement.listed.mp listed with rfl | ⟨before, unpaired⟩ <;>
      rcases placement.listed.mp otherListed with rfl | ⟨otherBefore, otherUnpaired⟩
    · rfl
    · exact absurd same.symm (alone other otherBefore otherTargets otherUnpaired)
    · exact absurd same (alone one before targets unpaired)
    · exact pairable.apart one before other otherBefore targets otherTargets same
  · rcases placement.listed.mp listed with rfl | ⟨before, -⟩
    · -- The counterpart is not its own, since the relation is not.
      rw [placement.claim, placement.named] at own
      exact absurd own.symm placement.differ
    · exact pairable.symmetric one before relation related leads own

/-- A step of pairing succeeds where self-relations are fit for it; fields that were not there are
cleared. -/
theorem Pairing.exists_step (pairing : Pairing start (name :: todo) model)
    (distinct : (start.fields.map Field.name).Nodup) (declared : name ∈ start.selfNames)
    (pairable : model.Pairable start.name) :
    ∃ next, pairSelf model name = .ok next ∧ next.Pairable start.name ∧
      ∀ field ∈ next.fields, field ∈ model.fields ∨ field.cleared = field := by
  -- The field has been replaced on the way, or it is there and still relates to the model.
  cases found : model.field? name with
  | none => exact ⟨model, by simp [pairSelf, found], pairable, fun _ => Or.inl⟩
  | some field =>
    obtain ⟨present, rfl⟩ := Model.mem_of_field? found
    obtain ⟨relation, related, leads⟩ :=
      Field.targets_iff.mp (pairing.targets_of_name distinct present declared)
    have counterpartName : (Field.ofRelation (field.counterpartName start.name)
        (relation.facing start.name field.name)).name = field.counterpartName start.name := rfl
    unfold pairSelf
    simp only [found, related, Field.counterpart?_eq, Option.map_some, pairing.name,
      counterpartName]
    -- A self-relation that is its own counterpart has to look alike from both sides.
    by_cases own : field.counterpartName start.name = field.name
    · have symmetric := pairable.symmetric field present relation related leads own
      exact ⟨model, by simp [own, symmetric], pairable, fun _ => Or.inl⟩
    · have placement := pairing.placement relation own
      refine ⟨_, by rw [if_neg own], placement.pairable pairable, fun one listed => ?_⟩
      rcases placement.listed.mp listed with rfl | ⟨before, -⟩
      · -- The counterpart that was put in place is cleared.
        rw [← Model.mergeInto_upsertCounterpart]
        exact Or.inr (Field.cleared_mergeInto _ _ _ _ _)
      · exact Or.inl before

/-- Pairing succeeds where self-relations are fit for it; fields that were not there are cleared. -/
theorem exists_pairSelves (distinct : (start.fields.map Field.name).Nodup)
    (pairable : start.Pairable start.name) :
    ∃ model, pairSelves start = .ok model ∧ model.Pairable start.name ∧
      ∀ field ∈ model.fields, field ∈ start.fields ∨ field.cleared = field := by
  rw [pairSelves_eq]
  -- The induction is on the names to come, each of which is that of a self-relation.
  have run : ∀ (todo : List String) (reached : Model), Pairing start todo reached → todo.Nodup →
      (∀ name ∈ todo, name ∈ start.selfNames) → reached.Pairable start.name →
      ∃ model, todo.foldlM pairSelf reached = .ok model ∧ model.Pairable start.name ∧
        ∀ field ∈ model.fields, field ∈ reached.fields ∨ field.cleared = field := by
    intro todo
    induction todo with
    | nil => exact fun reached _ _ _ pairable => ⟨reached, rfl, pairable, fun _ => Or.inl⟩
    | cons first rest ih =>
      intro reached pairing once declared pairable
      obtain ⟨fresh, restOnce⟩ := List.nodup_cons.mp once
      have isDeclared := declared first List.mem_cons_self
      obtain ⟨next, head, nextPairable, new⟩ :=
        pairing.exists_step distinct isDeclared pairable
      obtain ⟨model, tail, modelPairable, later⟩ := ih next
        (pairing.step distinct isDeclared fresh head) restOnce
        (fun name listed => declared name (List.mem_cons_of_mem _ listed)) nextPairable
      refine ⟨model, Outcome.foldlM_cons_eq_ok.mpr ⟨next, head, tail⟩, modelPairable,
        fun field present => ?_⟩
      -- What the later steps have left was there after this one, or it is new and cleared.
      rcases later field present with before | cleared
      · exact new field before
      · exact Or.inr cleared
  exact run _ _ (Pairing.refl distinct) (distinct.sublist (List.filter_sublist.map Field.name))
    (fun _ listed => listed) pairable

end Resolution

/-! ## Models fit for repair -/

/-- A model that is fit for repair: it is no system model, its fields have different names, the
names that its relations go by are written out, a self-relation that is its own counterpart looks
alike from both sides, and no relation to a model of the catalog, but one that is its own inverse,
says anything it has no use for. -/
structure Model.Repairable (system : SystemModels) (model : Model) : Prop where
  inCatalog : system.contains model.name = false
  distinct : (model.fields.map Field.name).Nodup
  resolved : model.Resolved system
  symmetric : ∀ field ∈ model.fields, ∀ relation, field.relation? = some relation →
    relation.target = model.name → field.counterpartName model.name = field.name →
      relation.kind.inverse = relation.kind
  bare : ∀ field ∈ model.fields, ∀ relation, field.relation? = some relation →
    system.contains relation.target = false → field.invertsTo model.name field.name = false →
      field.default = none ∧ relation.Fits

/-- Models that do not contend for names, each fit for repair. -/
structure Models.Repairable (system : SystemModels) (models : Models) : Prop where
  each : ∀ model ∈ models.members, model.Repairable system
  /-- No two relations claim one name on one model. -/
  once : ∀ model ∈ models.members, ∀ field ∈ model.fields, ∀ other ∈ models.members,
    ∀ rival ∈ other.fields, ∀ target ∈ models.members, field.targets target.name = true →
      rival.targets target.name = true →
        rival.counterpartName other.name = field.counterpartName model.name →
          other.name = model.name ∧ rival = field
  /-- The name that a relation claims belongs to no field that leads elsewhere than back. -/
  free : ∀ model ∈ models.members, ∀ field ∈ model.fields, ∀ target ∈ models.members,
    field.targets target.name = true →
      target.bars model.name (field.counterpartName model.name) = false

namespace Model

variable {before after : Model}

/-- A model of which the self-relations were paired: each has a mate and a name that was that of a
self-relation or claimed by one, and the other fields are those that were there. -/
structure PairedFrom (system : SystemModels) (before after : Model) : Prop where
  name : after.name = before.name
  distinct : (after.fields.map Field.name).Nodup
  resolved : after.Resolved system
  others : ∀ field : Field, field.targets before.name = false →
    (field ∈ after.fields ↔ field ∈ before.fields)
  declared : ∀ field ∈ after.fields, field.targets before.name = true →
    ∃ earlier ∈ before.fields, earlier.targets before.name = true ∧
      (earlier.name = field.name ∨ earlier.counterpartName before.name = field.name)
  mated : after.SelvesHaveMates
  cleared : ∀ field ∈ after.fields, field ∈ before.fields ∨ field.cleared = field

/-- What is filed after pairing is the model that was paired, or another one that was there. -/
theorem PairedFrom.of_mem_insert (paired : before.PairedFrom system after) {models : Models}
    {model : Model} (inModels : model ∈ (Roster.insert after models).members) :
    model = after ∨ model ∈ models.members ∧ model.name ≠ before.name := by
  -- The paired model takes the place of the one of its name, and the others stay.
  rcases Roster.mem_insert.mp inModels with same | ⟨earlier, apart⟩
  · exact Or.inl same
  · exact Or.inr ⟨earlier, paired.name ▸ apart⟩

/-- A relation to another model than the one that was paired was there before. -/
theorem PairedFrom.exists_of_elsewhere (paired : before.PairedFrom system after) {models : Models}
    (listed : before ∈ models.members) {model : Model}
    (inModels : model ∈ (Roster.insert after models).members) {field : Field}
    (present : field ∈ model.fields) (elsewhere : field.targets before.name = false) :
    ∃ first ∈ models.members, first.name = model.name ∧ field ∈ first.fields := by
  -- Pairing touches only the fields that lead to the model itself.
  rcases paired.of_mem_insert inModels with rfl | ⟨inModels, -⟩
  · exact ⟨before, listed, paired.name.symm, (paired.others field elsewhere).mp present⟩
  · exact ⟨model, inModels, rfl, present⟩

/-- A model is fit for repair when it comes from one by pairing. -/
theorem Repairable.of_pairedFrom (repairable : before.Repairable system)
    (paired : before.PairedFrom system after) : after.Repairable system := by
  refine ⟨paired.name ▸ repairable.inCatalog, paired.distinct, paired.resolved,
    fun field present relation related leads own => ?_,
    fun field present relation related inCatalog foreign => ?_⟩
  · -- The mate of a field that is its own counterpart is the field itself.
    obtain ⟨mate, matePresent, mates⟩ :=
      paired.mated field present (Field.targets_iff.mpr ⟨relation, related, leads⟩)
    have same := eq_of_name_eq paired.distinct matePresent present
      ((mates.counterpartName after.name).symm.trans own)
    subst same
    obtain ⟨held, back, heldRelation, backRelation, -, -, -, -, kind, -⟩ := mates.sides
    rw [related, Option.some.injEq] at heldRelation backRelation
    rw [← heldRelation, ← backRelation] at kind
    exact kind.symm
  · -- A field that pairing has put in place is cleared, and the others were bare.
    rcases paired.cleared field present with inBefore | cleared
    · rw [paired.name] at foreign
      exact repairable.bare field inBefore relation related inCatalog foreign
    · exact (Field.cleared_eq_self_iff related).mp cleared

/-- No two self-relations that have mates have one counterpart. -/
theorem SelvesHaveMates.eq_of_counterpartName {model : Model} (mated : model.SelvesHaveMates)
    (distinct : (model.fields.map Field.name).Nodup) {one other : Field}
    (present : one ∈ model.fields) (otherPresent : other ∈ model.fields)
    (targets : one.targets model.name = true) (otherTargets : other.targets model.name = true)
    (same : other.counterpartName model.name = one.counterpartName model.name) : other = one := by
  obtain ⟨mate, listed, mates⟩ := mated one present targets
  obtain ⟨twin, twinListed, twinMates⟩ := mated other otherPresent otherTargets
  -- The counterparts have one name, so they are one field, which inverts to both.
  have equal := eq_of_name_eq distinct twinListed listed (by
    rw [← twinMates.counterpartName model.name, ← mates.counterpartName model.name, same])
  subst equal
  refine eq_of_name_eq distinct otherPresent present ?_
  rw [← twinMates.symm.counterpartName model.name, ← mates.symm.counterpartName model.name]

end Model

namespace Models.Repairable

variable {models : Models} {before after : Model}

/-- The self-relations of a model that is fit for repair are fit to be paired. -/
theorem pairable (repairable : models.Repairable system) (listed : before ∈ models.members) :
    before.Pairable before.name := by
  -- A self-relation is its own claim, so what holds of all claims holds of it.
  have each := repairable.each before listed
  refine ⟨fun field present targets => ?_, fun one present other otherPresent targets otherTargets
    same => ?_, each.symmetric⟩
  · obtain ⟨relation, related, leads⟩ := Field.targets_iff.mp targets
    obtain ⟨name, given⟩ := Option.isSome_iff_exists.mp
      ((each.resolved field present relation related).named (leads ▸ each.inCatalog))
    rw [Field.counterpartName_of_inverse related given]
    exact Field.invertsTo_iff.mpr ⟨relation, related, leads, given⟩
  · exact (repairable.once before listed other otherPresent before listed one present before listed
      otherTargets targets same).2

/-- The relations of a model that is fit for repair claim different counterparts. -/
theorem unambiguous (repairable : models.Repairable system) (listed : before ∈ models.members)
    (stored : ∀ field ∈ before.fields, ∀ relation, field.relation? = some relation →
      leadsOut system before.name relation →
        ∃ target, models.find? relation.target = some target) :
    before.Unambiguous system := by
  intro one present other otherPresent relation again related relatedAgain out sameTarget
    sameInverse
  -- Both relations lead to the same target, where one name cannot be claimed twice.
  obtain ⟨target, found⟩ := stored one present relation related out
  have named : target.name = relation.target := Roster.name_of_find? found
  refine (repairable.once before listed one present before listed other otherPresent target
    (Roster.mem_of_find? found) ?_ ?_ ?_).2
  · exact Field.targets_iff.mpr ⟨relation, related, named.symm⟩
  · exact Field.targets_iff.mpr ⟨again, relatedAgain, sameTarget.trans named.symm⟩
  · rw [Field.counterpartName_eq related, Field.counterpartName_eq relatedAgain, sameInverse]

/-- A self-relation after pairing has no name that another model claims. -/
theorem name_ne (repairable : models.Repairable system) (listed : before ∈ models.members)
    (paired : before.PairedFrom system after) {field : Field} (present : field ∈ after.fields)
    (targets : field.targets before.name = true) {other : Model}
    (otherListed : other ∈ models.members) (apart : other.name ≠ before.name) {rival : Field}
    (rivalPresent : rival ∈ other.fields) (claims : rival.targets before.name = true) :
    field.name ≠ rival.counterpartName other.name := by
  intro same
  obtain ⟨earlier, inBefore, self, named | claimed⟩ := paired.declared field present targets
  · -- The name was that of a self-relation, which does not lead to the other model.
    have free := repairable.free other otherListed rival rivalPresent before listed claims
    rw [(Model.bars_iff (repairable.each before listed).distinct).mpr
      ⟨earlier, inBefore, named.trans same, Field.not_targets_of_ne self apart.symm⟩] at free
    cases free
  · -- The name was claimed by a self-relation, and no two relations claim one.
    exact apart (repairable.once before listed earlier inBefore other otherListed rival rivalPresent
      before listed self claims (same.symm.trans claimed.symm)).1

/-- A self-relation after pairing claims no name that another model claims. -/
theorem counterpartName_ne (repairable : models.Repairable system)
    (listed : before ∈ models.members) (paired : before.PairedFrom system after) {field : Field}
    (present : field ∈ after.fields) (targets : field.targets before.name = true) {other : Model}
    (otherListed : other ∈ models.members) (apart : other.name ≠ before.name) {rival : Field}
    (rivalPresent : rival ∈ other.fields) (claims : rival.targets before.name = true) :
    field.counterpartName before.name ≠ rival.counterpartName other.name := by
  -- What it claims is the name of its mate, which is a self-relation as well.
  obtain ⟨mate, matePresent, mates⟩ := paired.mated field present (paired.name ▸ targets)
  rw [mates.counterpartName before.name]
  exact repairable.name_ne listed paired matePresent (paired.name ▸ mates.symm.targets) otherListed
    apart rivalPresent claims

/-- On a model of which the self-relations were paired no name is claimed twice. -/
theorem once_paired (repairable : models.Repairable system) (listed : before ∈ models.members)
    (paired : before.PairedFrom system after) {model other : Model}
    (inModels : model ∈ (Roster.insert after models).members)
    (otherIn : other ∈ (Roster.insert after models).members) {field rival : Field}
    (present : field ∈ model.fields) (rivalPresent : rival ∈ other.fields)
    (targets : field.targets before.name = true) (rivalTargets : rival.targets before.name = true)
    (same : rival.counterpartName other.name = field.counterpartName model.name) :
    other.name = model.name ∧ rival = field := by
  -- Either claim comes from the model itself, as it is now, or from another one, as it was.
  rcases paired.of_mem_insert inModels with rfl | ⟨stored, apart⟩ <;>
    rcases paired.of_mem_insert otherIn with rfl | ⟨otherStored, otherApart⟩
  · refine ⟨rfl, paired.mated.eq_of_counterpartName paired.distinct present rivalPresent ?_ ?_
      same⟩
    · rwa [paired.name]
    · rwa [paired.name]
  · rw [paired.name] at same
    exact absurd same.symm (repairable.counterpartName_ne listed paired present targets
      otherStored otherApart rivalPresent rivalTargets)
  · rw [paired.name] at same
    exact absurd same (repairable.counterpartName_ne listed paired rivalPresent rivalTargets
      stored apart present targets)
  · exact repairable.once model stored field present other otherStored rival rivalPresent
      before listed targets rivalTargets same

/-- On a model of which the self-relations were paired no field that leads elsewhere has a name that
is claimed. -/
theorem free_paired (repairable : models.Repairable system) (listed : before ∈ models.members)
    (paired : before.PairedFrom system after) {model : Model}
    (inModels : model ∈ (Roster.insert after models).members) {field : Field}
    (present : field ∈ model.fields) (targets : field.targets before.name = true) :
    after.bars model.name (field.counterpartName model.name) = false := by
  rw [Bool.eq_false_iff]
  intro barred
  obtain ⟨blocker, blockerPresent, named, elsewhere⟩ := (Model.bars_iff paired.distinct).mp barred
  rcases paired.of_mem_insert inModels with rfl | ⟨inModels, apart⟩
  · -- The name that a self-relation claims is that of its mate.
    obtain ⟨mate, matePresent, mates⟩ := paired.mated field present (paired.name ▸ targets)
    rw [mates.counterpartName] at named
    rw [Model.eq_of_name_eq paired.distinct blockerPresent matePresent named,
      mates.symm.targets] at elsewhere
    cases elsewhere
  · -- What another model claims was free before, and no self-relation has taken it.
    cases own : blocker.targets before.name with
    | true =>
      exact repairable.name_ne listed paired blockerPresent own inModels apart present targets named
    | false =>
      have free := repairable.free model inModels field present before listed targets
      rw [(Model.bars_iff (repairable.each before listed).distinct).mpr
        ⟨blocker, (paired.others blocker own).mp blockerPresent, named, elsewhere⟩] at free
      cases free

/-- Models stay fit for repair when the self-relations of one of them are paired. -/
theorem insert (repairable : models.Repairable system) (listed : before ∈ models.members)
    (paired : before.PairedFrom system after) :
    Models.Repairable system (Roster.insert after models) := by
  -- A target is the model that was paired, or it is as it was, and so is all that leads to it.
  have isPaired : ∀ {target : Model}, target ∈ (Roster.insert after models).members →
      target.name = before.name → target = after := by
    intro target targetIn self
    rcases paired.of_mem_insert targetIn with same | ⟨-, apart⟩
    · exact same
    · exact absurd self apart
  have isStored : ∀ {target : Model}, target ∈ (Roster.insert after models).members →
      target.name ≠ before.name → target ∈ models.members := by
    intro target targetIn apart
    rcases paired.of_mem_insert targetIn with rfl | ⟨stored, -⟩
    · exact absurd paired.name apart
    · exact stored
  refine ⟨fun model inModels => ?_, fun model inModels field present other otherIn rival
    rivalPresent target targetIn targets rivalTargets same => ?_,
    fun model inModels field present target targetIn targets => ?_⟩
  · -- Each of the three properties is known of the model that was paired, and of the others it is
    -- as it was.
    rcases paired.of_mem_insert inModels with rfl | ⟨inModels, -⟩
    · exact (repairable.each before listed).of_pairedFrom paired
    · exact repairable.each model inModels
  · by_cases self : target.name = before.name
    · exact repairable.once_paired listed paired inModels otherIn present rivalPresent
        (self ▸ targets) (self ▸ rivalTargets) same
    · obtain ⟨first, firstIn, named, inFirst⟩ := paired.exists_of_elsewhere listed inModels present
        (Field.not_targets_of_ne targets self)
      obtain ⟨second, secondIn, otherNamed, inSecond⟩ := paired.exists_of_elsewhere listed otherIn
        rivalPresent (Field.not_targets_of_ne rivalTargets self)
      rw [← named, ← otherNamed] at same ⊢
      exact repairable.once first firstIn field inFirst second secondIn rival inSecond target
        (isStored targetIn self) targets rivalTargets same
  · by_cases self : target.name = before.name
    · rw [isPaired targetIn self]
      exact repairable.free_paired listed paired inModels present (self ▸ targets)
    · obtain ⟨first, firstIn, named, inFirst⟩ := paired.exists_of_elsewhere listed inModels present
        (Field.not_targets_of_ne targets self)
      rw [← named]
      exact repairable.free first firstIn field inFirst target (isStored targetIn self) targets

/-- Where no field that leads elsewhere has a name that a self-relation claims, pairing leaves all
names different. -/
theorem distinct_of_pairing (repairable : models.Repairable system)
    (listed : before ∈ models.members) (pairing : Pairing before [] after) :
    (after.fields.map Field.name).Nodup := by
  have distinct := (repairable.each before listed).distinct
  refine pairing.nodup_names distinct
    fun self selfPresent targets field present elsewhere same => ?_
  -- The name of a self-relation was that of one before, or one has claimed it.
  rcases pairing.declared self selfPresent targets with
    own | ⟨earlier, earlierPresent, back, -, claims⟩
  · obtain ⟨earlier, earlierPresent, back, named⟩ := Model.mem_selfNames.mp own
    rw [Model.eq_of_name_eq distinct earlierPresent present (named.trans same.symm),
      elsewhere] at back
    cases back
  · have free := repairable.free before listed earlier earlierPresent before listed back
    rw [(Model.bars_iff distinct).mpr
      ⟨field, present, same.trans claims.symm, elsewhere⟩] at free
    cases free

/-- Pairing of a model that is fit for repair succeeds and pairs its self-relations. -/
theorem exists_paired (repairable : models.Repairable system) (listed : before ∈ models.members) :
    ∃ after, pairSelves before = .ok after ∧ before.PairedFrom system after := by
  have each := repairable.each before listed
  obtain ⟨after, done, pairable, cleared⟩ :=
    exists_pairSelves each.distinct (repairable.pairable listed)
  have pairing := pairing_of_pairSelves each.distinct done
  have resolved := resolved_of_pairSelves each.resolved done
  -- Pairing leads from every self-relation to a pair, and no two of them have one counterpart.
  have mated : after.SelvesHaveMates := by
    have apart : after.SelfInversesApart := by
      unfold Model.SelfInversesApart
      rw [pairing.name]
      exact pairable.apart
    have led := led_of_pairSelves each.distinct done
    rw [← pairing.name] at led
    exact fun field present targets => (Model.selfMated_of_led apart led).hasMate resolved
      (pairing.name ▸ each.inCatalog) present targets
  refine ⟨after, done, pairing.name, repairable.distinct_of_pairing listed pairing, resolved,
    fun field => pairing.mem_of_not_targets, fun field present targets => ?_, mated, cleared⟩
  -- A self-relation is one of the declared ones, or the counterpart of one of them.
  rcases pairing.declared field present targets with own | ⟨earlier, inBefore, self, -, claims⟩
  · obtain ⟨earlier, inBefore, self, same⟩ := Model.mem_selfNames.mp own
    exact ⟨earlier, inBefore, self, Or.inl same⟩
  · exact ⟨earlier, inBefore, self, Or.inr claims⟩

/-- Resolution of a model that is fit for repair pairs its self-relations. -/
theorem exists_resolved (repairable : models.Repairable system) (listed : before ∈ models.members)
    (stored : ∀ field ∈ before.fields, ∀ relation, field.relation? = some relation →
      leadsOut system before.name relation →
        ∃ target, models.find? relation.target = some target) :
    ∃ after, Context.resolve ⟨system, models⟩ (some before) before = .ok after ∧
      before.PairedFrom system after := by
  have each := repairable.each before listed
  obtain ⟨after, done, paired⟩ := repairable.exists_paired listed
  -- What the resolved model claims is told apart as before, since other relations stayed.
  have inserted := repairable.insert listed paired
  have unambiguous : after.Unambiguous system := by
    refine inserted.unambiguous (Roster.mem_insert.mpr (Or.inl rfl))
      fun field present relation related out => ?_
    rw [paired.name] at out
    have elsewhere : field.targets before.name = false :=
      (Field.not_targets_iff related).mpr out.1
    obtain ⟨target, found⟩ :=
      stored field ((paired.others field elsewhere).mp present) relation related out
    refine ⟨target, ?_⟩
    rw [Roster.find?_insert, if_neg]
    · exact found
    · exact fun same => out.1 (same.symm.trans paired.name)
  refine ⟨after, Context.resolve_eq_ok.mpr ⟨?_, ?_⟩, paired⟩
  · -- A model whose relations are resolved has nothing to be filled in.
    rw [@filled_eq_of_resolved ⟨system, models⟩ before each.distinct each.resolved]
    exact done
  · exact checkClaims_eq_ok.mpr ⟨unambiguous.pairwise_claims
      ⟨paired.distinct, paired.resolved, paired.mated.closed⟩, by simp⟩

/-- Models of which every one has some fields of one that was fit for repair are fit for it. -/
theorem of_fewer (repairable : models.Repairable system) {fewer : Models}
    (each : ∀ model ∈ fewer.members, ∃ first ∈ models.members, model.name = first.name ∧
      model.fields.Sublist first.fields) : fewer.Repairable system := by
  refine ⟨fun model listed => ?_, fun model listed field present other otherListed rival
    rivalPresent target targetListed targets rivalTargets same => ?_,
    fun model listed field present target targetListed targets => ?_⟩
  · -- What is fit of a model is fit of fewer fields of it.
    obtain ⟨first, inModels, named, some_of⟩ := each model listed
    have fit := repairable.each first inModels
    refine ⟨named ▸ fit.inCatalog, fit.distinct.sublist (some_of.map Field.name),
      fun field present => fit.resolved field (some_of.subset present), ?_, ?_⟩
    · rw [named]
      exact fun field present => fit.symmetric field (some_of.subset present)
    · rw [named]
      exact fun field present => fit.bare field (some_of.subset present)
  · -- Whatever claims a name now claimed it before.
    obtain ⟨first, inModels, named, some_of⟩ := each model listed
    obtain ⟨second, secondIn, otherNamed, some_others⟩ := each other otherListed
    obtain ⟨third, thirdIn, targetNamed, -⟩ := each target targetListed
    rw [targetNamed] at targets rivalTargets
    rw [named, otherNamed] at same ⊢
    exact repairable.once first inModels field (some_of.subset present) second secondIn rival
      (some_others.subset rivalPresent) third thirdIn targets rivalTargets same
  · obtain ⟨first, inModels, named, some_of⟩ := each model listed
    obtain ⟨third, thirdIn, targetNamed, some_there⟩ := each target targetListed
    have distinct := (repairable.each third thirdIn).distinct
    rw [targetNamed] at targets
    rw [Bool.eq_false_iff]
    intro barred
    -- What bars a name now was there before.
    obtain ⟨blocker, blockerPresent, sameName, elsewhere⟩ :=
      (Model.bars_iff (distinct.sublist (some_there.map Field.name))).mp barred
    rw [named] at sameName elsewhere
    have free :=
      repairable.free first inModels field (some_of.subset present) third thirdIn targets
    rw [(Model.bars_iff distinct).mpr
      ⟨blocker, some_there.subset blockerPresent, sameName, elsewhere⟩] at free
    cases free

end Models.Repairable

/-! ## The first half of a repair -/

/-- Models on their way through the first half of a repair, of which some have been resolved: they
are fit for repair, relate to models that are there, and the self-relations of those that have been
resolved have mates. -/
structure Resolving (system : SystemModels) (scanned : Models) (done : List String)
    (models : Models) : Prop where
  repairable : models.Repairable system
  same : ∀ name, (models.find? name).isSome = (scanned.find? name).isSome
  leads : ∀ model ∈ models.members, ∀ field ∈ model.fields,
    leadsSomewhere system scanned model.name field = true
  mated : ∀ model ∈ models.members, model.name ∈ done → model.SelvesHaveMates

namespace Resolving

variable {scanned models : Models} {done : List String}

/-- Relations lead to models that are there. -/
theorem stored (resolving : Resolving system scanned done models) {model : Model}
    (listed : model ∈ models.members) : ∀ field ∈ model.fields, ∀ relation,
      field.relation? = some relation → leadsOut system model.name relation →
        ∃ target, models.find? relation.target = some target := by
  -- Where a relation led was looked up by the names, and these have not changed.
  intro field present relation related out
  obtain ⟨target, found⟩ :=
    (leadsSomewhere_iff related).mp (resolving.leads model listed field present) out
  rw [← Option.isSome_iff_exists, resolving.same, found]
  rfl

/-- After pruning no model has been resolved. -/
theorem pruned (repairable : scanned.Repairable system) (report : RepairReport) :
    Resolving system scanned [] (pruneAll system scanned report).models := by
  have from_scanned : ∀ model ∈ (pruneAll system scanned report).models.members,
      ∃ first ∈ scanned.members, prune system scanned first = model := by
    intro model listed
    have found := Roster.mem_iff_find?.mp listed
    rw [find?_pruneAll] at found
    obtain ⟨first, inScanned, same⟩ := Option.map_eq_some_iff.mp found
    exact ⟨first, Roster.mem_of_find? inScanned, same⟩
  refine ⟨repairable.of_fewer fun model listed => ?_, fun name => ?_,
    fun model listed field present => ?_, by simp⟩
  · -- A pruned model has fields of the one that was read, and they lead somewhere.
    obtain ⟨first, inScanned, rfl⟩ := from_scanned model listed
    exact ⟨first, inScanned, rfl, List.filter_sublist⟩
  · rw [find?_pruneAll, Option.isSome_map]
  · obtain ⟨first, inScanned, rfl⟩ := from_scanned model listed
    exact (List.mem_filter.mp present).2

/-- After pairing the relations of a model lead where they led before, or to the model itself. -/
theorem leads_paired (resolving : Resolving system scanned done models) {before after : Model}
    (listed : before ∈ models.members) (paired : before.PairedFrom system after) :
    ∀ field ∈ after.fields, leadsSomewhere system scanned after.name field = true := by
  intro field present
  -- A field that leads to the model itself leads nowhere else; any other was there before.
  cases targets : field.targets before.name with
  | true =>
    obtain ⟨relation, related, leads⟩ := Field.targets_iff.mp targets
    exact (leadsSomewhere_iff related).mpr fun out =>
      absurd (leads.trans paired.name.symm) out.1
  | false =>
    rw [paired.name]
    exact resolving.leads before listed field ((paired.others field targets).mp present)

/-- One more model is resolved. -/
theorem step {progress : Progress} (resolving : Resolving system scanned done progress.models)
    (name : String) :
    Resolving system scanned (name :: done) (resolveOne system progress name).models := by
  cases found : progress.models.find? name with
  | none =>
    have unchanged : resolveOne system progress name = progress := by simp [resolveOne, found]
    rw [unchanged]
    refine { resolving with mated := fun model listed isDone => ?_ }
    rcases List.mem_cons.mp isDone with same | before
    · -- There is no model of this name.
      have there := Roster.mem_iff_find?.mp listed
      rw [show Named.name model = name from same, found] at there
      cases there
    · exact resolving.mated model listed before
  | some before =>
    have listed := Roster.mem_of_find? found
    have own : before.name = name := Roster.name_of_find? found
    obtain ⟨after, isResolved, paired⟩ :=
      -- Resolution of a model that is fit for repair goes through, so the model is filed as
      -- resolved.
      resolving.repairable.exists_resolved listed (resolving.stored listed)
    have filed : (resolveOne system progress name).models = progress.models.insert after := by
      simp [resolveOne, found, isResolved]
    have named : Named.name after = name := paired.name.trans own
    rw [filed]
    refine ⟨resolving.repairable.insert listed paired, fun other => ?_,
      fun model inModels field present => ?_, fun model inModels isDone => ?_⟩
    · -- The model is filed under its own name, so that the same names are there.
      rw [Roster.find?_insert, named, ← resolving.same]
      split
      · rename_i here
        rw [← here, found]
        rfl
      · rfl
    · rcases Roster.mem_insert.mp inModels with rfl | ⟨earlier, -⟩
      · exact resolving.leads_paired listed paired field present
      · exact resolving.leads model earlier field present
    · rcases Roster.mem_insert.mp inModels with rfl | ⟨earlier, apart⟩
      · exact paired.mated
      · rcases List.mem_cons.mp isDone with same | before
        · exact absurd (same.trans named.symm) apart
        · exact resolving.mated model earlier before

/-- Models are resolved one after the other. -/
theorem run (names : List String) {progress : Progress}
    (resolving : Resolving system scanned done progress.models) :
    Resolving system scanned (names.reverse ++ done)
      (names.foldl (resolveOne system) progress).models := by
  -- The induction is on the names to come; those that had their turn are added in front.
  induction names generalizing progress done with
  | nil => exact resolving
  | cons first rest ih =>
    rw [List.reverse_cons, List.append_assoc]
    exact ih (resolving.step first)

end Resolving

/-! ## Deciding what is fit for repair -/

/-- Whether a model is fit for repair is told from its relations. -/
theorem Model.repairable_iff {model : Model} : model.Repairable system ↔
    system.contains model.name = false ∧ (model.fields.map Field.name).Nodup ∧
      ∀ pair ∈ model.relations,
        (system.contains pair.2.target = false → pair.2.inverseName.isSome = true) ∧
        (pair.2.kind.usesJoinTable = true → pair.2.joinTable.isSome = true) ∧
        (pair.2.target = model.name → pair.1.counterpartName model.name = pair.1.name →
          pair.2.kind.inverse = pair.2.kind) ∧
        (system.contains pair.2.target = false →
          pair.1.invertsTo model.name pair.1.name = false →
            pair.1.default = none ∧ pair.2.Fits) := by
  constructor
  · intro fit
    refine ⟨fit.inCatalog, fit.distinct, fun ⟨field, relation⟩ paired => ?_⟩
    -- The pairs of a field and its relation are the relations of the model.
    obtain ⟨present, related⟩ := mem_relations.mp paired
    have resolved := fit.resolved field present relation related
    exact ⟨resolved.named, resolved.joined, fit.symmetric field present relation related,
      fit.bare field present relation related⟩
  · -- Conversely each field that has a relation makes one of the pairs.
    rintro ⟨inCatalog, distinct, each⟩
    have of_pair : ∀ field ∈ model.fields, ∀ relation, field.relation? = some relation →
        (field, relation) ∈ model.relations :=
      fun field present relation related => mem_relations.mpr ⟨present, related⟩
    refine ⟨inCatalog, distinct, fun field present relation related => ?_,
      fun field present relation related => ?_, fun field present relation related => ?_⟩ <;>
      obtain ⟨named, joined, symmetric, bare⟩ := each _ (of_pair field present relation related)
    · exact ⟨named, joined⟩
    · exact symmetric
    · exact bare

instance (model : Model) : Decidable (model.Repairable system) :=
  decidable_of_iff' _ Model.repairable_iff

/-- Models are fit for repair when each is, and when the names that relations claim are neither
claimed twice nor those of other fields. -/
theorem Models.repairable_iff {models : Models} : models.Repairable system ↔
    (∀ model ∈ models.members, model.Repairable system) ∧
      (∀ model ∈ models.members, ∀ field ∈ model.fields, ∀ other ∈ models.members,
        ∀ rival ∈ other.fields, ∀ target ∈ models.members, field.targets target.name = true →
          rival.targets target.name = true →
            rival.counterpartName other.name = field.counterpartName model.name →
              other.name = model.name ∧ rival = field) ∧
      ∀ model ∈ models.members, ∀ field ∈ model.fields, ∀ target ∈ models.members,
        field.targets target.name = true →
          target.bars model.name (field.counterpartName model.name) = false :=
  -- The two sides name the same three parts.
  ⟨fun fit => ⟨fit.each, fit.once, fit.free⟩, fun ⟨each, once, free⟩ => ⟨each, once, free⟩⟩

instance (models : Models) : Decidable (models.Repairable system) :=
  decidable_of_iff' _ Models.repairable_iff

end ModelCatalog
