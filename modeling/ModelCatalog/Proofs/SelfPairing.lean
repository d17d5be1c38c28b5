import ModelCatalog.Proofs.Resolution

/-! The pairing of the relations of a model to itself: what it keeps, and that it leaves every
self-relation with a counterpart. -/

namespace ModelCatalog

namespace Model

/-- A name is that of a self-relation when a field of the name targets the model. -/
theorem mem_selfNames {model : Model} {name : String} :
    name ∈ model.selfNames ↔
      ∃ field ∈ model.fields, field.targets model.name = true ∧ field.name = name := by
  -- The names are those of the fields that lead back.
  simp [selfNames, and_assoc]

end Model

namespace Resolution

variable {system : SystemModels} {start model next : Model} {name : String} {todo : List String}

/-- The names that pairing goes through are those of the self-relations. -/
theorem pairSelves_eq (model : Model) :
    pairSelves model = model.selfNames.foldlM pairSelf model := by
  have names : ((model.relations.filter fun pair => pair.2.target == model.name).map
      fun pair => pair.1.name) = model.selfNames := by
    -- The relations that lead back are filtered from all relations, or the fields at once.
    simp only [Model.selfNames, Model.relations]
    induction model.fields with
    | nil => rfl
    | cons first rest ih =>
      cases related : first.relation? with
      | none =>
        have apart := @Field.not_targets_of_none first model.name related
        simpa [related, apart] using ih
      | some relation =>
        cases target : relation.target == model.name <;>
          simpa [related, Field.targets_eq related, target] using ih
  rw [pairSelves, names]

/-- One step of pairing leaves the model alone, or puts the counterpart of a relation in place
that is not its own. -/
theorem pairSelf_cases (done : pairSelf model name = .ok next) :
    (next = model ∧ ∀ field relation, model.field? name = some field →
      field.relation? = some relation → field.counterpartName model.name = field.name) ∨
    ∃ field relation, model.field? name = some field ∧ field.relation? = some relation ∧
      field.counterpartName model.name ≠ field.name ∧
      next = (model.upsertCounterpart model.name field.name
        (Field.ofRelation (field.counterpartName model.name)
          (relation.facing model.name field.name))).target := by
  -- A name without a field, or whose field has no relation, is passed over.
  unfold pairSelf at done
  cases found : model.field? name with
  | none =>
    simp only [found, Except.ok.injEq] at done
    exact Or.inl ⟨done.symm, by simp⟩
  | some field =>
    cases related : field.relation? with
    | none =>
      simp only [found, related, Except.ok.injEq] at done
      refine Or.inl ⟨done.symm, fun other relation same held => ?_⟩
      cases same
      rw [related] at held
      cases held
    | some relation =>
      simp only [found, related, Field.counterpart?_eq, Option.map_some] at done
      by_cases own : field.counterpartName model.name = field.name
      · -- A relation that is its own counterpart is left alone, or refused.
        have name_eq : (Field.ofRelation (field.counterpartName model.name)
            (relation.facing model.name field.name)).name = field.name := own
        rw [if_pos name_eq] at done
        split at done
        · cases done
          refine Or.inl ⟨rfl, fun other relation same _ => ?_⟩
          cases same
          exact own
        · cases done
      · -- Any other relation gets its counterpart put in place.
        have name_ne : (Field.ofRelation (field.counterpartName model.name)
            (relation.facing model.name field.name)).name ≠ field.name := own
        rw [if_neg name_ne] at done
        cases done
        exact Or.inr ⟨field, relation, rfl, related, own, rfl⟩

/-- Pairing on its way: `todo` are the self-relations of the definition that are still to come. -/
structure Pairing (start : Model) (todo : List String) (model : Model) : Prop where
  name : model.name = start.name
  /-- Fields that lead elsewhere stay. -/
  others : model.fields.filter (fun field => !field.targets start.name) =
    start.fields.filter fun field => !field.targets start.name
  distinct : model.selfNames.Nodup
  /-- A self-relation that is done has a counterpart, which is done as well. -/
  closed : ∀ field ∈ model.fields, field.targets start.name = true → field.name ∉ todo →
    ∃ mate ∈ model.fields, mate.targets start.name = true ∧
      mate.name = field.counterpartName start.name ∧ mate.counterpartName start.name ∉ todo
  /-- The counterpart of a self-relation is declared, or it is the one it was declared with. -/
  claimed : ∀ field ∈ model.fields, field.targets start.name = true →
    field.counterpartName start.name ∈ start.selfNames ∨
      ∃ before ∈ start.fields, before.targets start.name = true ∧ before.name = field.name ∧
        before.counterpartName start.name = field.counterpartName start.name
  /-- A self-relation is declared, or it is the counterpart of one that is declared so. -/
  declared : ∀ field ∈ model.fields, field.targets start.name = true →
    field.name ∈ start.selfNames ∨
      ∃ before ∈ start.fields, before.targets start.name = true ∧
        before.name = field.counterpartName start.name ∧
        before.counterpartName start.name = field.name

/-- Pairing begins with everything to do. -/
theorem Pairing.refl (distinct : (start.fields.map Field.name).Nodup) :
    Pairing start start.selfNames start where
  -- Nothing has been done yet, so every field is one that was declared.
  name := rfl
  others := rfl
  distinct := distinct.sublist (List.filter_sublist.map Field.name)
  closed := fun field present targets todo =>
    absurd (Model.mem_selfNames.mpr ⟨field, present, targets, rfl⟩) todo
  claimed := fun field present targets => Or.inr ⟨field, present, targets, rfl, rfl⟩
  declared := fun field present targets =>
    Or.inl (Model.mem_selfNames.mpr ⟨field, present, targets, rfl⟩)

/-- Pairing keeps the fields that lead elsewhere. -/
theorem Pairing.mem_of_not_targets (pairing : Pairing start todo model) {field : Field}
    (elsewhere : field.targets start.name = false) :
    -- The fields that lead elsewhere are listed alike on both sides, and this is one of them.
    field ∈ model.fields ↔ field ∈ start.fields := by
  have kept := congrArg (field ∈ ·) pairing.others
  simpa [List.mem_filter, elsewhere] using kept

/-- A field under a name that is still to come is a self-relation. -/
theorem Pairing.targets_of_name (pairing : Pairing start todo model)
    (distinct : (start.fields.map Field.name).Nodup) {field : Field}
    (present : field ∈ model.fields) (declared : field.name ∈ start.selfNames) :
    field.targets start.name = true := by
  -- A field that led elsewhere would be a second one of its name in the definition.
  by_contra elsewhere
  rw [Bool.not_eq_true] at elsewhere
  have kept := (pairing.mem_of_not_targets elsewhere).mp present
  obtain ⟨self, selfPresent, targets, same⟩ := Model.mem_selfNames.mp declared
  rw [Model.eq_of_name_eq distinct selfPresent kept same] at targets
  rw [elsewhere] at targets
  cases targets

/-- All fields under a name that is still to come are self-relations, so there is at most one. -/
theorem Pairing.field?_of_name (pairing : Pairing start todo model)
    (distinct : (start.fields.map Field.name).Nodup) (declared : name ∈ start.selfNames)
    {field : Field} (present : field ∈ model.fields) (same : field.name = name) :
    model.field? name = some field := by
  -- Self-relations have different names, also on the way.
  have listed : ∀ one ∈ model.fields, one.name = name →
      one ∈ model.fields.filter fun field => field.targets model.name := by
    intro one inModel sameName
    refine List.mem_filter.mpr ⟨inModel, ?_⟩
    rw [pairing.name]
    -- Two fields of the name would be two self-relations that bear it.
    exact pairing.targets_of_name distinct inModel (sameName ▸ declared)
  cases found : model.field? name with
  | none => exact absurd same (Model.field?_eq_none.mp found field present)
  | some first =>
    obtain ⟨firstPresent, firstSame⟩ := Model.mem_of_field? found
    exact congrArg some (List.inj_on_of_nodup_map pairing.distinct
      (listed first firstPresent firstSame) (listed field present same)
      (firstSame.trans same.symm))

/-- The step is done for a name whose field, if there is one, is its own counterpart. -/
theorem Pairing.skip (pairing : Pairing start (name :: todo) model)
    (distinct : (start.fields.map Field.name).Nodup) (declared : name ∈ start.selfNames)
    (once : name ∉ todo)
    (own : ∀ field relation, model.field? name = some field → field.relation? = some relation →
      field.counterpartName model.name = field.name) : Pairing start todo model := by
  -- Only what is closed changes, for there is one name less to come.
  refine { pairing with closed := fun field present targets notTodo => ?_ }
  -- The field of the name is closed by itself, and the others by what closed them before.
  by_cases same : field.name = name
  · obtain ⟨relation, related, -⟩ := Field.targets_iff.mp targets
    have itself :=
      own field relation (pairing.field?_of_name distinct declared present same) related
    rw [pairing.name] at itself
    exact ⟨field, present, targets, itself.symm, by rw [itself, same]; exact once⟩
  · obtain ⟨mate, listed, back, named, done⟩ := pairing.closed field present targets
      (by simp [same, notTodo])
    exact ⟨mate, listed, back, named, fun later => done (List.mem_cons_of_mem _ later)⟩

/-- A counterpart is put in place for a self-relation that is not its own: it bears the name that
the relation gives it and inverts to the relation, and what paired with the relation is gone. -/
structure Placement (start model : Model) (field placed : Field) (next : Model) : Prop where
  name : next.name = start.name
  others : next.fields.filter (fun one => !one.targets start.name) =
    model.fields.filter fun one => !one.targets start.name
  distinct : next.selfNames.Nodup
  differ : field.counterpartName start.name ≠ field.name
  named : placed.name = field.counterpartName start.name
  inverts : placed.invertsTo start.name field.name = true
  listed : ∀ {one : Field}, one ∈ next.fields ↔ one = placed ∨ one ∈ model.fields ∧
    one.pairsWith start.name field.name (field.counterpartName start.name) = false

/-- A relation that is not its own counterpart gets one put in place. -/
theorem Pairing.placement (pairing : Pairing start todo model) {field : Field} (relation : Relation)
    (differ : field.counterpartName start.name ≠ field.name) :
    let upsert := model.upsertCounterpart start.name field.name
      (Field.ofRelation (field.counterpartName start.name)
        (relation.facing start.name field.name))
    Placement start model field upsert.field upsert.target := by
  -- The wanted counterpart bears its name and inverts to the relation, whatever it is merged into.
  generalize wanted : Field.ofRelation (field.counterpartName start.name)
    (relation.facing start.name field.name) = desired
  have wantedName : desired.name = field.counterpartName start.name := by rw [← wanted]; rfl
  have wantedInverts : desired.invertsTo start.name field.name = true := by
    rw [← wanted]
    exact Field.invertsTo_iff.mpr ⟨_, Field.relation?_ofRelation _ _, rfl, rfl⟩
  have inverts := @Model.invertsTo_upsertCounterpart model _ _ _ wantedInverts
  refine {
    name := pairing.name
    others := ?_
    distinct := ?_
    differ := differ
    named := (Model.name_field_upsertCounterpart ..).trans wantedName
    inverts := inverts
    listed := fun {one} => wantedName ▸ Model.mem_upsertCounterpart }
  · -- Only what targets the model pairs, and so does what is put in place.
    refine Model.filter_upsertCounterpart ?_ ?_
    · intro one _ pairs
      simp [(Field.pairsWith_iff.mp pairs).1]
    · simp [Field.targets_of_invertsTo inverts]
  · -- Among the fields that lead back those of the claimed name pair.
    have names : (model.upsertCounterpart start.name field.name desired).target.name = start.name :=
      pairing.name
    rw [Model.selfNames, names]
    refine Model.nodup_names_upsertCounterpart ?_ ?_
    · intro one _ back sameName
      exact Field.pairsWith_iff.mpr ⟨back, Or.inl sameName⟩
    · rw [← pairing.name]
      exact pairing.distinct

namespace Placement

variable {field placed : Field}

/-- The counterpart leads back to the model. -/
theorem targets (placement : Placement start model field placed next) :
    -- What inverts to a relation leads back to its model.
    placed.targets start.name = true := Field.targets_of_invertsTo placement.inverts

/-- The counterpart of the counterpart is the relation. -/
theorem claim (placement : Placement start model field placed next) :
    placed.counterpartName start.name = field.name :=
  -- What inverts to a field has that field for its counterpart.
  Field.counterpartName_of_invertsTo placement.inverts start.name

/-- The relation itself stays, for it is not its own counterpart. -/
theorem stays (placement : Placement start model field placed next)
    (present : field ∈ model.fields) : field ∈ next.fields := by
  -- It would pair with itself only by its own name.
  refine placement.listed.mpr (Or.inr ⟨present, ?_⟩)
  rw [Bool.eq_false_iff]
  intro pairs
  rcases (Field.pairsWith_iff.mp pairs).2 with itself | inverts
  · exact placement.differ itself.symm
  · exact placement.differ (Field.counterpartName_of_invertsTo inverts start.name)

/-- With the counterpart of the first relation that was to come, every relation that is done has a
counterpart which is done as well. -/
theorem closed (placement : Placement start model field placed next)
    (pairing : Pairing start (field.name :: todo) model) (present : field ∈ model.fields)
    (targets : field.targets start.name = true) (once : field.name ∉ todo)
    (only : ∀ one ∈ model.fields, one.name = field.name → one = field) {one : Field}
    (listed : one ∈ next.fields) (back : one.targets start.name = true) (done : one.name ∉ todo) :
    ∃ mate ∈ next.fields, mate.targets start.name = true ∧
      mate.name = one.counterpartName start.name ∧ mate.counterpartName start.name ∉ todo := by
  have isPlaced : placed ∈ next.fields := placement.listed.mpr (Or.inl rfl)
  have placedDone : placed.counterpartName start.name ∉ todo := placement.claim.symm ▸ once
  rcases placement.listed.mp listed with rfl | ⟨before, -⟩
  · -- The counterpart is closed by the field it was made for.
    exact ⟨field, placement.stays present, targets, placement.claim.symm, placement.named ▸ done⟩
  by_cases first : one.name = field.name
  · -- The field is closed by its new counterpart.
    rw [only one before first]
    exact ⟨placed, isPlaced, placement.targets, placement.named, placedDone⟩
  -- Any other relation that is done was closed before, and its mate is there still or has gone.
  obtain ⟨mate, mateListed, mateBack, named, mateDone⟩ := pairing.closed one before back
    (by simp [first, done])
  cases pairs : mate.pairsWith start.name field.name (field.counterpartName start.name) with
  | false =>
    exact ⟨mate, placement.listed.mpr (Or.inr ⟨mateListed, pairs⟩), mateBack, named,
      fun later => mateDone (List.mem_cons_of_mem _ later)⟩
  | true =>
    -- A mate that went did so for its name, which the new counterpart took over.
    rcases (Field.pairsWith_iff.mp pairs).2 with sameName | inverts
    · exact ⟨placed, isPlaced, placement.targets, by rw [placement.named, ← sameName, named],
        placedDone⟩
    · rw [Field.counterpartName_of_invertsTo inverts] at mateDone
      exact absurd List.mem_cons_self mateDone

end Placement

/-- One step of pairing does the first name that is to come. -/
theorem Pairing.step (pairing : Pairing start (name :: todo) model)
    (distinct : (start.fields.map Field.name).Nodup) (declared : name ∈ start.selfNames)
    (once : name ∉ todo) (done : pairSelf model name = .ok next) : Pairing start todo next := by
  -- The name is passed over, or its field gets a counterpart.
  rcases pairSelf_cases done with ⟨rfl, own⟩ | ⟨field, relation, found, related, differ, rfl⟩
  · exact pairing.skip distinct declared once own
  obtain ⟨present, same⟩ := Model.mem_of_field? found
  rw [pairing.name] at differ ⊢
  subst same
  have targets := pairing.targets_of_name distinct present declared
  have placement := pairing.placement relation differ
  -- The names that are to come are borne by one field each.
  have only : ∀ one ∈ model.fields, one.name = field.name → one = field := by
    intro one before same
    have twice := pairing.field?_of_name distinct declared before same
    rw [found, Option.some.injEq] at twice
    exact twice.symm
  exact {
    name := placement.name
    others := placement.others.trans pairing.others
    distinct := placement.distinct
    closed := fun one listed back done =>
      placement.closed pairing present targets once only listed back done
    claimed := by
      intro one listed back
      rcases placement.listed.mp listed with rfl | ⟨before, -⟩
      · exact Or.inl (placement.claim.symm ▸ declared)
      · exact pairing.claimed one before back
    declared := by
      intro one listed back
      rcases placement.listed.mp listed with rfl | ⟨before, -⟩
      · -- The counterpart is declared under its name, or by the one the relation was declared with.
        rcases pairing.claimed field present targets with
          claim | ⟨first, inStart, self, sameName, sameClaim⟩
        · exact Or.inl (placement.named.symm ▸ claim)
        · exact Or.inr ⟨first, inStart, self, by rw [sameName, placement.claim],
            by rw [sameClaim, placement.named]⟩
      · exact pairing.declared one before back }

/-- What holds of a definition before any of its self-relations is done, and of every step once it
does of the one before, holds when pairing has succeeded. -/
theorem pairSelves_induction (holds : List String → Model → Prop)
    (distinct : (start.fields.map Field.name).Nodup) (begins : holds start.selfNames start)
    (steps : ∀ name todo model next, Pairing start (name :: todo) model → name ∈ start.selfNames →
      name ∉ todo → pairSelf model name = .ok next → holds (name :: todo) model → holds todo next)
    (done : pairSelves start = .ok model) : Pairing start [] model ∧ holds [] model := by
  rw [pairSelves_eq] at done
  -- The names are gone through in order, each once.
  have run : ∀ (todo : List String) (reached result : Model),
      Pairing start todo reached ∧ holds todo reached → todo.Nodup →
      (∀ name ∈ todo, name ∈ start.selfNames) → todo.foldlM pairSelf reached = .ok result →
      Pairing start [] result ∧ holds [] result := by
    intro todo
    induction todo with
    | nil =>
      intro reached result held _ _ done
      cases done
      exact held
    | cons first rest ih =>
      intro reached result held once declared done
      obtain ⟨next, head, tail⟩ := Outcome.foldlM_cons_eq_ok.mp done
      obtain ⟨fresh, restOnce⟩ := List.nodup_cons.mp once
      have isDeclared := declared first List.mem_cons_self
      exact ih next result ⟨held.1.step distinct isDeclared fresh head,
        steps first rest reached next held.1 isDeclared fresh head held.2⟩ restOnce
        (fun name later => declared name (List.mem_cons_of_mem _ later)) tail
  -- In the beginning all names are to come, each of them once.
  exact run _ _ _ ⟨Pairing.refl distinct, begins⟩
    (distinct.sublist (List.filter_sublist.map Field.name)) (fun _ listed => listed) done

/-- Pairing that succeeds has done every self-relation. -/
theorem pairing_of_pairSelves (distinct : (start.fields.map Field.name).Nodup)
    (done : pairSelves start = .ok model) : Pairing start [] model :=
  -- This is what an induction proves with nothing else to keep.
  (pairSelves_induction (fun _ _ => True) distinct trivial
    (fun _ _ _ _ _ _ _ _ _ => trivial) done).1

/-- What is kept when the counterpart of a relation is put in place in its own model is kept by
pairing. -/
theorem of_pairSelves {holds : Model → Prop}
    (placed : ∀ (model : Model) (field : Field) (relation : Relation), holds model →
      field ∈ model.fields → field.relation? = some relation →
      holds (model.upsertCounterpart model.name field.name
        (Field.ofRelation (field.counterpartName model.name)
          (relation.facing model.name field.name))).target)
    (begins : holds start) (done : pairSelves start = .ok model) : holds model := by
  rw [pairSelves_eq] at done
  -- The induction is on the names, whichever they are, from any beginning.
  generalize start.selfNames = todo at done
  induction todo generalizing start with
  | nil =>
    cases done
    exact begins
  | cons first rest ih =>
    obtain ⟨next, head, tail⟩ := Outcome.foldlM_cons_eq_ok.mp done
    refine ih ?_ tail
    -- Every step puts one counterpart in place, or none.
    rcases pairSelf_cases head with ⟨rfl, -⟩ | ⟨field, relation, found, related, -, rfl⟩
    · exact begins
    · exact placed start field relation begins (Model.mem_of_field? found).1 related

/-- Pairing keeps every relation resolved. -/
theorem resolved_of_pairSelves (resolved : start.Resolved system)
    (done : pairSelves start = .ok model) : model.Resolved system := by
  refine of_pairSelves (fun model field relation resolved present related => ?_) resolved done
  intro one listed
  -- What is put in place is merged from a relation that is resolved.
  rcases Model.mem_upsertCounterpart.mp listed with rfl | ⟨before, -⟩
  · rw [← Model.mergeInto_upsertCounterpart]
    exact (resolved field present relation related).mergeInto _ _ _ _
  · exact resolved one before

/-! ## Claims -/

/-- The check passes exactly where relations claim counterparts that differ from one another and
from those claimed earlier. -/
theorem checkClaims_eq_ok {source : String} {earlier rest : List Claim} :
    checkClaims source earlier rest = .ok () ↔
      rest.Pairwise (fun one other => ¬(one.target = other.target ∧ one.name = other.name)) ∧
        ∀ claim ∈ rest, ∀ other ∈ earlier,
          ¬(other.target = claim.target ∧ other.name = claim.name) := by
  -- A claim is compared with all before it, and then is one of these.
  induction rest generalizing earlier with
  | nil => simp [checkClaims]
  | cons first rest ih =>
    -- A search among the earlier claims fails exactly when none of them is the same.
    have fresh : (earlier.find? fun other =>
        other.target == first.target && other.name == first.name) = none ↔
          ∀ other ∈ earlier, ¬(other.target = first.target ∧ other.name = first.name) := by
      simp
    rw [checkClaims, List.pairwise_cons, List.forall_mem_cons, ← fresh]
    cases earlier.find? fun other =>
        other.target == first.target && other.name == first.name with
    | some other => simp
    | none =>
      -- The later claims are held against the first one as well.
      simp only [ih, List.forall_mem_cons, true_and]
      constructor
      · rintro ⟨distinct, apart⟩
        exact ⟨⟨fun claim later => (apart claim later).1, distinct⟩,
          fun claim later => (apart claim later).2⟩
      · rintro ⟨⟨differs, distinct⟩, apart⟩
        exact ⟨distinct, fun claim later => ⟨differs claim later, apart claim later⟩⟩

end Resolution

open Resolution

/-! ## Whole resolution -/

namespace Context

variable {context : Context} {old : Option Model} {model resolved : Model}

/-- Resolution fills in, pairs and checks the claims. -/
theorem resolve_eq (context : Context) (old : Option Model) (model : Model) :
    context.resolve old model = (do
      let paired ← pairSelves (filled context old model)
      checkClaims model.name [] (claims context.system paired)
      return paired) := rfl

/-- A definition is resolved when its relations to itself pair and its claims are different. -/
theorem resolve_eq_ok : context.resolve old model = .ok resolved ↔
    pairSelves (filled context old model) = .ok resolved ∧
      checkClaims model.name [] (claims context.system resolved) = .ok () := by
  -- The result of the check is not used, only that there is one.
  rw [resolve_eq, Outcome.bind_eq_ok]
  constructor
  · rintro ⟨paired, done, rest⟩
    obtain ⟨_, claimed, same⟩ := Outcome.bind_eq_ok.mp rest
    cases same
    exact ⟨done, claimed⟩
  · rintro ⟨done, claimed⟩
    exact ⟨resolved, done, Outcome.bind_eq_ok.mpr ⟨(), claimed, rfl⟩⟩

/-- A resolved definition has its self-relations paired. -/
theorem pairing_of_resolve (distinct : (model.fields.map Field.name).Nodup)
    (done : context.resolve old model = .ok resolved) :
    Pairing (filled context old model) [] resolved :=
  -- Filling in keeps names apart, so what follows is the pairing of a definition with distinct
  -- names.
  pairing_of_pairSelves (nodup_names_filled distinct) (resolve_eq_ok.mp done).1

/-- A resolved definition keeps its name. -/
theorem name_of_resolve (distinct : (model.fields.map Field.name).Nodup)
    (done : context.resolve old model = .ok resolved) : resolved.name = model.name := by
  -- Neither pairing nor filling in changes the name.
  rw [(pairing_of_resolve distinct done).name, name_filled]

/-- Pairing leaves a field alone that leads elsewhere. -/
theorem mem_of_resolve (distinct : (model.fields.map Field.name).Nodup)
    (done : context.resolve old model = .ok resolved) {field : Field}
    (elsewhere : field.targets model.name = false) :
    field ∈ resolved.fields ↔ field ∈ (filled context old model).fields := by
  -- Filling in keeps the name, so the field leads elsewhere than to what is paired.
  rw [← name_filled context old model] at elsewhere
  exact (pairing_of_resolve distinct done).mem_of_not_targets elsewhere

/-- A resolved definition is resolved. -/
theorem resolved_of_resolve (done : context.resolve old model = .ok resolved) :
    resolved.Resolved context.system :=
  -- Pairing keeps what filling in has made resolved.
  resolved_of_pairSelves (resolved_filled model) (resolve_eq_ok.mp done).1

/-- A resolved definition claims different counterparts. -/
theorem claims_of_resolve (done : context.resolve old model = .ok resolved) :
    (claims context.system resolved).Pairwise fun one other =>
      ¬(one.target = other.target ∧ one.name = other.name) :=
  -- The check of the claims has passed.
  (checkClaims_eq_ok.mp (resolve_eq_ok.mp done).2).1

end Context

end ModelCatalog
