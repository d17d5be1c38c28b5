import ModelCatalog.Proofs.Refill

/-! Resolution over its own result: what becomes of a definition that is declared once more, over
the version that it has led to. -/

namespace ModelCatalog

namespace Resolution

variable {context later : Context} {old : Option Model} {declared resolved kept : Model}

/-! ## The snapshot -/

/-- Taking self-counterparts along keeps the fields that lead elsewhere, in order. -/
theorem filter_foldl_dropOne (name : String) (pairs : List (Field × Relation)) (model : Model) :
    (pairs.foldl (dropOne name) model).fields.filter (fun field => !field.targets name) =
      model.fields.filter fun field => !field.targets name := by
  -- The induction is on the self-relations of the old version, each of which may take some with it.
  induction pairs generalizing model with
  | nil => rfl
  | cons first rest ih =>
    refine (ih _).trans ?_
    -- What a removal takes are self-relations.
    have removed : ∀ fieldName counterpart : String,
        (model.removeCounterpart name fieldName counterpart).fields.filter
            (fun field => !field.targets name) =
          model.fields.filter fun field => !field.targets name := by
      intro fieldName counterpart
      simp only [Model.removeCounterpart, List.filter_filter]
      refine List.filter_congr fun field _ => ?_
      cases elsewhere : field.targets name with
      | true => rfl
      | false =>
        rw [Bool.not_false, Bool.true_and, Bool.not_eq_true', Bool.eq_false_iff]
        intro gone
        rw [Field.targets_of_isRemovedWith gone] at elsewhere
        cases elsewhere
    simp only [dropOne]
    -- A self-relation that is kept takes nothing along.
    split
    · split
      · rfl
      · exact removed _ _
    · exact removed _ _

/-- A field of the definition that leads elsewhere is one of the snapshot. -/
theorem mem_snapshot_of_not_targets {field : Field} (present : field ∈ declared.fields)
    (elsewhere : field.targets declared.name = false) : field ∈ (snapshot old declared).fields := by
  cases old with
  | none => exact present
  | some before =>
    -- The snapshot drops only fields that lead to the model itself.
    have others := filter_foldl_dropOne declared.name
      (before.relations.filter fun pair => pair.2.target == declared.name) declared
    have kept : field ∈ declared.fields.filter fun field => !field.targets declared.name :=
      List.mem_filter.mpr ⟨present, by simp [elsewhere]⟩
    rw [← others] at kept
    exact (List.mem_filter.mp kept).1

/-- Nothing that would go with a self-relation of the old version is left when the definition does
not declare that relation. -/
theorem not_isRemovedWith_of_mem_snapshot {gone : Field} {relation : Relation}
    (inOld : gone ∈ kept.fields) (related : gone.relation? = some relation)
    (own : relation.target = declared.name)
    (undeclared : ∀ field ∈ declared.fields, field.name = gone.name →
      field.targets declared.name = false)
    {field : Field} (present : field ∈ (snapshot (some kept) declared).fields) :
    field.isRemovedWith declared.name gone.name (gone.counterpartName declared.name) = false := by
  -- What is left after all turns was left after that of the relation.
  have run : ∀ (pairs : List (Field × Relation)) (model : Model),
      (∀ field ∈ model.fields, field.name = gone.name → field.targets declared.name = false) →
      (gone, relation) ∈ pairs → field ∈ (pairs.foldl (dropOne declared.name) model).fields →
      field.isRemovedWith declared.name gone.name (gone.counterpartName declared.name) = false := by
    intro pairs
    induction pairs with
    | nil =>
      intro model _ listed
      cases listed
    | cons first rest ih =>
      intro model apart listed left
      rcases List.mem_cons.mp listed with rfl | later
      · -- At the turn of the relation everything goes that goes with it.
        have step : dropOne declared.name model (gone, relation) =
            model.removeCounterpart declared.name gone.name
              (gone.counterpartName declared.name) := by
          unfold dropOne
          cases found : model.field? gone.name with
          | none => rfl
          | some again =>
            obtain ⟨again_mem, named⟩ := Model.mem_of_field? found
            simp [apart again again_mem named]
        rw [List.foldl_cons, step] at left
        have before := (fields_foldl_dropOne _ _ _).subset left
        simpa using (List.mem_filter.mp before).2
      · -- The relation has its turn later, and until then fields only go.
        refine ih _ (fun other there => apart other ?_) later left
        exact (fields_foldl_dropOne declared.name [first] model).subset there
  -- The run starts from the definition that is declared, which has no such self-relation.
  refine run _ declared undeclared (List.mem_filter.mpr ⟨?_, by simpa using own⟩) present
  exact List.mem_filterMap.mpr ⟨gone, inOld, by rw [related]; rfl⟩

/-- A field that bears the name of a counterpart, and claims it back once it is filled in, goes with
the relation: it is declared with that inverse, or without any. -/
theorem isRemovedWith_of_claims {source : Model} {home : String} {field gone : Field}
    (targets : field.targets home = true) (named : field.name = gone.counterpartName home)
    (claims : (fillField context old source field).counterpartName home = gone.name) :
    field.isRemovedWith home gone.name (gone.counterpartName home) = true := by
  -- The relation is told by the inverse it declares, or by the default where it declares none.
  obtain ⟨relation, related, leads⟩ := Field.targets_iff.mp targets
  have filledRelation := @relation?_fillField context old source field
  rw [related, Option.map_some] at filledRelation
  cases given : relation.inverseName with
  | some name =>
    -- A name that is declared is kept when the relation is filled in.
    have inverse : (fillRelation context old source field.name relation).inverseName =
        some name := by
      rw [fillRelation_eq, filledName]
      split
      · exact given
      · simp [inverseNameOf, given]
    rw [Field.counterpartName_of_inverse filledRelation inverse] at claims
    exact Field.isRemovedWith_of_invertsTo
      (Field.invertsTo_iff.mpr ⟨relation, related, leads, claims ▸ given⟩) _
  | none => simp [Field.isRemovedWith, related, leads, given, named]

/-! ## Filling in -/

/-- What a definition was resolved to supplies every relation that leads elsewhere. -/
theorem previousRelation_of_resolve (distinct : (declared.fields.map Field.name).Nodup)
    (done : context.resolve old declared = .ok resolved)
    (resolvedDistinct : (resolved.fields.map Field.name).Nodup)
    (alike : kept.outline = resolved.outline) {field : Field} (present : field ∈ declared.fields)
    {relation : Relation} (related : field.relation? = some relation)
    (elsewhere : relation.target ≠ declared.name) :
    previousRelation (some kept) field.name relation.target =
      some (fillRelation context old (snapshot old declared) field.name relation) := by
  have away : field.targets declared.name = false :=
    (Field.not_targets_iff related).mpr elsewhere
  have filledRelation := @relation?_fillField context old (snapshot old declared) field
  rw [related, Option.map_some] at filledRelation
  -- The field was filled in, and pairing has left it alone.
  have inResolved : fillField context old (snapshot old declared) field ∈ resolved.fields :=
    (Context.mem_of_resolve distinct done (by rw [targets_fillField, away])).mpr
      (List.mem_map_of_mem (mem_snapshot_of_not_targets present away))
  obtain ⟨twin, inKept, same⟩ := Model.exists_of_outline_eq alike.symm inResolved
  have keptDistinct : (kept.fields.map Field.name).Nodup := by
    rw [Model.names_eq_of_outline_eq alike]
    exact resolvedDistinct
  have found := Model.field?_of_mem keptDistinct inKept
  have named : twin.name = field.name := (congrArg Prod.fst same).trans (name_fillField field)
  rw [named] at found
  have twinRelation := (Field.relation?_eq_of_outline_eq same).trans filledRelation
  simp [previousRelation, found, twinRelation]

/-- Over what a definition was resolved to, it is filled in alike whatever is known. -/
theorem filled_congr_of_resolve (distinct : (declared.fields.map Field.name).Nodup)
    (done : context.resolve old declared = .ok resolved)
    (resolvedDistinct : (resolved.fields.map Field.name).Nodup)
    (alike : kept.outline = resolved.outline) {other : Context}
    (system : later.system = context.system) (otherSystem : other.system = context.system) :
    filled later (some kept) declared = filled other (some kept) declared := by
  refine filled_congr fun field present relation related => ?_
  by_cases own : relation.target = declared.name
  · -- A relation of the model to itself is looked up in the snapshot.
    refine fillRelation_congr (system.trans otherSystem.symm) ?_
    rw [targetOf, targetOf, name_snapshot, if_pos own, if_pos own]
  · -- Any other one is taken over from the version that is there.
    have previous := previousRelation_of_resolve distinct done resolvedDistinct alike
      ((fields_snapshot _ _).subset present) related own
    rw [fillRelation_of_previous system previous, fillRelation_of_previous otherSystem previous]

end Resolution

open Resolution

/-- A definition states its relations to itself when each of them says all that could be filled in,
and names another one of them, or itself, as its inverse. -/
def Model.StatesSelves (system : SystemModels) (declared : Model) : Prop :=
  ∀ field ∈ declared.fields, field.targets declared.name = true →
    field.Resolved system ∧ ∃ mate ∈ declared.fields, mate.targets declared.name = true ∧
      field.invertsTo declared.name mate.name = true

namespace Context

variable {context later : Context} {old : Option Model} {declared resolved kept : Model}

/-- Over what a definition was resolved to, it is resolved alike whatever is known. -/
theorem resolve_congr_of_resolve (later other : Context)
    (distinct : (declared.fields.map Field.name).Nodup)
    (done : context.resolve old declared = .ok resolved)
    (resolvedDistinct : (resolved.fields.map Field.name).Nodup)
    (alike : kept.outline = resolved.outline)
    (system : later.system = context.system) (otherSystem : other.system = context.system)
    {again : Model} : later.resolve (some kept) declared = .ok again ↔
      other.resolve (some kept) declared = .ok again := by
  -- The filled definition decides, and over the stored version it is the same in both contexts.
  rw [resolve_eq_ok, resolve_eq_ok,
    filled_congr_of_resolve distinct done resolvedDistinct alike system otherSystem,
    system, otherSystem]

/-- A definition that states its relations to itself is resolved once more as it was. -/
theorem resolve_of_statesSelves (later : Context)
    (distinct : (declared.fields.map Field.name).Nodup)
    (done : context.resolve old declared = .ok resolved)
    (resolvedDistinct : (resolved.fields.map Field.name).Nodup)
    (alike : kept.outline = resolved.outline) (system : later.system = context.system)
    (states : declared.StatesSelves context.system) :
    later.resolve (some kept) declared = .ok resolved := by
  -- A definition that states its self-relations drops nothing, whatever the version before.
  have whole : ∀ before : Option Model, snapshot before declared = declared := fun _ =>
    snapshot_eq_of_named distinct fun field present targets => (states field present targets).2
  have same : filled later (some kept) declared = filled context old declared := by
    have fields : declared.fields.map (fillField later (some kept) declared) =
        declared.fields.map (fillField context old declared) := by
      refine List.map_congr_left fun field present => ?_
      by_cases own : field.targets declared.name = true
      · -- A relation to itself says everything that could be filled in.
        obtain ⟨stated, -⟩ := states field present own
        rw [fillField_eq_self (system ▸ stated), fillField_eq_self stated]
      · refine fillField_congr fun relation related => ?_
        have elsewhere : relation.target ≠ declared.name :=
          (Field.not_targets_iff related).mp (Bool.eq_false_iff.mpr own)
        have previous := previousRelation_of_resolve distinct done resolvedDistinct alike present
          related elsewhere
        rw [whole] at previous
        exact fillRelation_of_previous system previous
    rw [filled, filled, whole, whole, fields]
  have parts := resolve_eq_ok.mp done
  rw [resolve_eq_ok, same, system]
  exact parts

end Context

namespace Model

variable {system : SystemModels} {declared kept : Model}

/-- A declared definition settles as a version of the model when, declared over that version, it is
resolved to the same version again. -/
def SettlesAs (declared : Model) (system : SystemModels) (kept : Model) : Prop :=
  ∃ again, Context.resolve ⟨system, (∅ : Models)⟩ (some kept) declared = .ok again ∧
    kept.sameAs again = true

/-- A definition does not settle as a version that has a relation to itself which the definition
does not declare as one. -/
theorem not_settlesAs_of_undeclared (distinct : (declared.fields.map Field.name).Nodup)
    {gone : Field} (inKept : gone ∈ kept.fields) (own : gone.targets declared.name = true)
    (undeclared : ∀ field ∈ declared.fields, field.name = gone.name →
      field.targets declared.name = false) : ¬declared.SettlesAs system kept := by
  -- Of the result one field is that of the version. It was declared, or put in place for another
  -- field that was.
  rintro ⟨again, done, same⟩
  obtain ⟨relation, related, leads⟩ := Field.targets_iff.mp own
  have pairing := Context.pairing_of_resolve distinct done
  obtain ⟨twin, inAgain, alike⟩ :=
    exists_of_outline_eq (outline_eq_of_sameAs same) inKept
  have twinRelation := (Field.relation?_eq_of_outline_eq alike).trans related
  have twinName : twin.name = gone.name := congrArg Prod.fst alike
  have twinTargets : twin.targets (filled ⟨system, (∅ : Models)⟩ (some kept) declared).name =
      true := by
    rw [name_filled]
    exact Field.targets_iff.mpr ⟨relation, twinRelation, leads⟩
  -- Every field that was filled in comes of one that is declared.
  have ofFilled : ∀ field ∈ (filled ⟨system, (∅ : Models)⟩ (some kept) declared).fields,
      ∃ before ∈ (snapshot (some kept) declared).fields,
        fillField ⟨system, (∅ : Models)⟩ (some kept) (snapshot (some kept) declared) before =
          field := fun field present => List.mem_map.mp present
  rcases pairing.declared twin inAgain twinTargets with
    listed | ⟨mate, inFilled, back, named, claims⟩
  · obtain ⟨field, inFilled, targets, sameName⟩ := mem_selfNames.mp listed
    obtain ⟨before, inSnapshot, rfl⟩ := ofFilled field inFilled
    rw [name_filled, targets_fillField] at targets
    rw [name_fillField] at sameName
    have away := undeclared before ((fields_snapshot _ _).subset inSnapshot)
      (sameName.trans twinName)
    rw [targets] at away
    cases away
  · -- The counterpart went with the relation, so that no field of the snapshot claims it back.
    obtain ⟨before, inSnapshot, rfl⟩ := ofFilled mate inFilled
    have stays := not_isRemovedWith_of_mem_snapshot inKept related leads undeclared inSnapshot
    rw [name_filled] at back named claims
    rw [targets_fillField] at back
    rw [name_fillField, Field.counterpartName_eq twinRelation,
      ← Field.counterpartName_eq related] at named
    rw [isRemovedWith_of_claims back named (claims.trans twinName)] at stays
    cases stays

end Model

end ModelCatalog
