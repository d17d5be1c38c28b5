import ModelCatalog.Proofs.Formation
import ModelCatalog.Proofs.PlainFields
import ModelCatalog.Proofs.Reapplication
import ModelCatalog.Proofs.RepairSteps

/-! The fields that a repair leaves of valid definitions: what its steps keep of each field, and the
rules that this leaves open. -/

namespace ModelCatalog

open Resolution WritePlan RepairPlan

variable {system : SystemModels} {scanned : Models}

/-! ## Steps -/

/-- What is put in place is the counterpart brought up to date with a field that paired with it, or
the counterpart as it was wanted, which is up to date with itself. -/
theorem Model.exists_mergeInto_upsertCounterpart (target : Model) (source fieldName : String)
    (desired : Field) :
    ∃ existing, (target.upsertCounterpart source fieldName desired).field =
        desired.mergeInto existing ∧
      (existing = desired ∨
        existing ∈ target.fields ∧ existing.pairsWith source fieldName desired.name = true) := by
  -- A field that paired is merged into, and where there is none the counterpart is as desired.
  rcases upsertCounterpart_cases target source fieldName desired with
    ⟨front, existing, back, before, pairs, merged, -⟩ | ⟨-, same, -⟩
  · exact ⟨existing, merged, Or.inr ⟨by simp [before], pairs⟩⟩
  · exact ⟨desired, same.trans (Field.mergeInto_self desired).symm, Or.inl rfl⟩

/-- To resolve a definition over itself begins with all of it. -/
theorem Resolution.filled_self {context : Context} {model : Model}
    (distinct : (model.fields.map Field.name).Nodup) :
    filled context (some model) model =
      { model with fields := model.fields.map (fillField context (some model) model) } := by
  -- Every field is kept in the snapshot, since the model to compare with is itself.
  have whole : snapshot (some model) model = model :=
    snapshot_eq_of_kept fun field present targets =>
      ⟨field, Model.field?_of_mem distinct present, targets⟩
  rw [filled, whole]

/-- What holds when a definition with names apart is filled in, and is kept when the counterpart of
one of its self-relations is put in place, holds when it is resolved over itself. -/
theorem Context.resolve_induction {context : Context} {model resolved : Model}
    (holds : Model → Prop) (distinct : (model.fields.map Field.name).Nodup)
    (done : context.resolve (some model) model = .ok resolved)
    (begins :
      holds { model with fields := model.fields.map (fillField context (some model) model) })
    (places : ∀ (reached : Model) (field : Field) (relation : Relation), holds reached →
      reached.name = model.name → field ∈ reached.fields → field.relation? = some relation →
      relation.target = model.name →
      holds (reached.upsertCounterpart model.name field.name
        (Field.ofRelation (field.counterpartName model.name)
          (relation.facing model.name field.name))).target) : holds resolved := by
  -- Pairing takes the self-relations one by one, and what is left of a step is a counterpart that
  -- is put in place.
  have paired := (resolve_eq_ok.mp done).1
  refine (pairSelves_induction (fun _ reached => holds reached) (nodup_names_filled distinct)
    (filled_self distinct ▸ begins) (fun name todo reached next pairing declared _ step held => ?_)
    paired).2
  rcases pairSelf_cases step with ⟨rfl, -⟩ | ⟨field, relation, found, related, -, rfl⟩
  · exact held
  · have named := pairing.name
    rw [name_filled] at named
    obtain ⟨present, rfl⟩ := Model.mem_of_field? found
    obtain ⟨again, relatedAgain, leads⟩ := Field.targets_iff.mp
      (pairing.targets_of_name (nodup_names_filled distinct) present declared)
    rw [related, Option.some.injEq] at relatedAgain
    subst relatedAgain
    rw [name_filled] at leads
    rw [named]
    exact places reached field relation held named present related leads

namespace Models.Valid

/-- The fields of a valid definition have names of their own. -/
theorem distinct (valid : scanned.Valid system) {model : Model} (listed : model ∈ scanned.members) :
    (model.fields.map Field.name).Nodup :=
  -- A valid definition is formed, and its names differ.
  (Model.validate_eq_ok.mp (valid model listed)).1.names

/-- Valid definitions are not pruned. -/
theorem pruneAll_eq (valid : scanned.Valid system) (report : RepairReport) :
    pruneAll system scanned report = ⟨scanned, report⟩ := by
  -- Each relation leads somewhere because validity asks that its target is known.
  refine pruneAll_eq_self (fun name model found field present => ?_) report
  refine leadsSomewhere_of_stored fun relation related out => ?_
  have named : model.name = name := Roster.name_of_find? found
  have formed := (Model.validate_eq_ok.mp (valid model (Roster.mem_of_find? found))).1
  rcases ((formed.fields field present).relation relation related).present with
    own | outside | there
  · exact absurd (own.trans named) out.1
  · rw [out.2] at outside
    cases outside
  · exact Option.isSome_iff_exists.mp (by rwa [Roster.contains_eq] at there)

/-- What holds of valid definitions, and is kept whenever a stored one is resolved and whenever a
counterpart is put in place that is awaited, holds of what a repair makes of them. -/
theorem repair_induction (valid : scanned.Valid system) (keeps : Models → Prop)
    (begins : keeps scanned)
    (resolves : ∀ (models : Models) (model resolved : Model), keeps models →
      model ∈ scanned.members → models.find? model.name = some model →
      Context.resolve ⟨system, models⟩ (some model) model = .ok resolved →
      keeps (models.insert resolved))
    (mends : ∀ (models : Models) (name fieldName : String) (field : Field) (relation : Relation)
      (target : Model), keeps models → Awaits system models name fieldName field relation target →
      keeps (models.insert (target.upsertCounterpart name field.name
        (insertionOf name field relation).counterpart).target)) (report : RepairReport) :
    keeps (repair system scanned report).models := by
  -- Before its turn a model is as it was stored, since others are resolved without it.
  have resolveAll : ∀ (names : List String) (progress : Progress), names.Nodup →
      (∀ name ∈ names, progress.models.find? name = scanned.find? name) → keeps progress.models →
      keeps (names.foldl (resolveOne system) progress).models := by
    intro names
    induction names with
    | nil => exact fun _ _ _ held => held
    | cons first rest ih =>
      -- The first model is resolved as it was stored, and the turns of the others are later ones.
      intro progress once waiting held
      obtain ⟨fresh, restOnce⟩ := List.nodup_cons.mp once
      refine ih _ restOnce (fun name later => ?_) ?_
      · have apart : name ≠ first := fun same => fresh (same ▸ later)
        rw [find?_resolveOne_of_ne system progress apart,
          waiting name (List.mem_cons_of_mem _ later)]
      · rcases resolveOne_cases system progress first with
          ⟨model, resolved, found, done, after⟩ | same
        · have named : model.name = first := Roster.name_of_find? found
          have stored := waiting first List.mem_cons_self
          rw [found] at stored
          rw [after]
          exact resolves _ model resolved held (Roster.mem_of_find? stored.symm) (named ▸ found)
            done
        · rw [same]
          exact held
  -- Mending has an induction of its own, and pruning leaves valid definitions as they are.
  refine models_mendAll_induction keeps mends _ ?_
  rw [valid.pruneAll_eq]
  exact resolveAll _ _ (Roster.names_nodup scanned) (fun _ _ => rfl) begins

end Models.Valid

/-! ## Fields -/

/-- Every field has some property, in the model it belongs to. -/
def Models.EachField (models : Models) (holds : String → Field → Prop) : Prop :=
  ∀ name model, models.find? name = some model → ∀ field ∈ model.fields, holds name field

/-- A model may be filed whose fields have the property there. -/
theorem Models.EachField.insert {models : Models} {holds : String → Field → Prop}
    (each : models.EachField holds) {next : Model}
    (all : ∀ field ∈ next.fields, holds (Named.name next) field) :
    Models.EachField (models.insert next) holds := by
  intro name model found
  -- A name finds the new model or what it found before.
  rcases Roster.of_find?_insert found with ⟨rfl, rfl⟩ | found
  · exact all
  · exact each name model found

/-- A property that all fields of stored definitions have, and that a repair hands on: to a field
that is filled in, and to the counterpart of a relation, where it may have been brought up to date
with a field that was there. -/
structure Models.HandsOn (system : SystemModels) (scanned : Models)
    (holds : String → Field → Prop) : Prop where
  stored : scanned.EachField holds
  fills : ∀ (models : Models) (model : Model), models.EachField holds → model ∈ scanned.members →
    models.find? model.name = some model → ∀ field ∈ model.fields,
      holds model.name (fillField ⟨system, models⟩ (some model) model field)
  places : ∀ (source : String) (field existing : Field) (relation : Relation),
    (scanned.find? source).isSome = true → holds source field → field.relation? = some relation →
    (existing = Field.ofRelation (field.counterpartName source)
        (relation.facing source field.name) ∨
      holds relation.target existing ∧ existing.targets source = true) →
    holds relation.target ((Field.ofRelation (field.counterpartName source)
      (relation.facing source field.name)).mergeInto existing)

namespace Models.HandsOn

variable {holds : String → Field → Prop}

/-- Putting a counterpart in place hands the property on to the fields of the target. -/
theorem upsertCounterpart (handsOn : scanned.HandsOn system holds) {source : String} {field : Field}
    {relation : Relation} {target : Model} (there : (scanned.find? source).isSome = true)
    (held : holds source field) (related : field.relation? = some relation)
    (all : ∀ one ∈ target.fields, holds relation.target one) :
    ∀ one ∈ (target.upsertCounterpart source field.name
      (Field.ofRelation (field.counterpartName source)
        (relation.facing source field.name))).target.fields, holds relation.target one := by
  intro one present
  -- The field that was put in place is merged with one that had the property, and the others are
  -- those from before.
  rcases Model.mem_upsertCounterpart.mp present with rfl | ⟨before, -⟩
  · obtain ⟨existing, merged, known⟩ := target.exists_mergeInto_upsertCounterpart source field.name
      (Field.ofRelation (field.counterpartName source) (relation.facing source field.name))
    rw [merged]
    exact handsOn.places source field existing relation there held related
      (known.imp_right fun ⟨was, pairs⟩ => ⟨all existing was, (Field.pairsWith_iff.mp pairs).1⟩)
  · exact all one before

/-- A repair of valid definitions hands the property on to all fields. -/
theorem eachField_repair (handsOn : scanned.HandsOn system holds) (valid : scanned.Valid system)
    (report : RepairReport) : (repair system scanned report).models.EachField holds := by
  -- Models are neither added nor taken away on the way.
  refine (valid.repair_induction (fun models => models.EachField holds ∧
      ∀ name, (models.find? name).isSome = (scanned.find? name).isSome)
    ⟨handsOn.stored, fun _ => rfl⟩ ?_ ?_ report).1
  · -- A turn of resolution fills in the declared fields and puts self-counterparts in place.
    rintro models model resolved ⟨each, same⟩ listed found done
    have named : Named.name resolved = model.name := (Context.of_resolve done).1
    have there : (scanned.find? model.name).isSome = true := by rw [← same, found]; rfl
    have all : ∀ field ∈ resolved.fields, holds model.name field := by
      refine Context.resolve_induction (fun reached => ∀ field ∈ reached.fields,
        holds model.name field) (valid.distinct listed) done (fun field present => ?_)
        fun reached field relation held _ present related leads => ?_
      · obtain ⟨before, inModel, rfl⟩ := List.mem_map.mp present
        exact handsOn.fills models model each listed found before inModel
      · rw [← leads] at held
        have placed := handsOn.upsertCounterpart there (leads ▸ held field present) related held
        rwa [leads] at placed
    rw [← named] at all found
    exact ⟨each.insert all, fun name => (Roster.isSome_find?_insert found).trans (same name)⟩
  · -- A turn of mending adds a counterpart on a model that was there.
    rintro models name fieldName field relation target ⟨each, same⟩ awaits
    obtain ⟨source, found, isField⟩ := awaits.source
    have there : (scanned.find? name).isSome = true := by rw [← same, found]; rfl
    have named : Named.name target = relation.target := Roster.name_of_find? awaits.found
    have reached := awaits.found
    have all := handsOn.upsertCounterpart there
      (each name source found field (Model.mem_of_field? isField).1) awaits.related
      (each _ target reached)
    rw [← named] at all reached
    refine ⟨each.insert all, fun other => ?_⟩
    rw [Roster.isSome_find?_insert, same]
    exact reached

end Models.HandsOn

/-! ## Rules -/

/-- What the rules ask of the names that a relation gives rise to. -/
structure Relation.WellNamed (model field : String) (relation : Relation) : Prop where
  name : isIdentifier field = true
  inverse : ∀ name, relation.inverseName = some name → isIdentifier name = true
  column : relation.kind.hasColumn = true → isIdentifier (relation.columnName field) = true
  joinTable : relation.kind.usesJoinTable = true →
    isIdentifier (relation.joinTableName model field) = true ∧
      isIdentifier (relation.joinColumnNames model field).1 = true ∧
      isIdentifier (relation.joinColumnNames model field).2 = true
  apart : relation.kind.usesJoinTable = true →
    (relation.joinColumnNames model field).1 ≠ (relation.joinColumnNames model field).2

/-- The rules that a new relation can break: fields have names and columns of their own, relations
give rise to identifiers, and the key is in place. -/
structure Model.Orderly (model : Model) : Prop where
  names : (model.fields.map Field.name).Nodup
  columns : (model.fields.filterMap Field.columnName?).Nodup
  relations : ∀ field ∈ model.fields, ∀ relation, field.relation? = some relation →
    relation.WellNamed model.name field.name
  keyed : model.Keyed

/-- A valid definition is orderly. -/
theorem Model.orderly_of_validate {known : Models} {model : Model}
    (passes : model.validate system known = .ok ()) : model.Orderly := by
  obtain ⟨formed, keyed⟩ := validate_eq_ok.mp passes
  -- Validity asks for all of this and more.
  refine ⟨formed.names, formed.columns, fun field present relation related => ?_, keyed⟩
  have fit := formed.fields field present
  have admitted := fit.relation relation related
  exact ⟨fit.name, admitted.inverse, admitted.column, admitted.joinTable, admitted.apart⟩

/-- The keys of a model are among its plain fields. -/
theorem Model.filter_isKey_plain (model : Model) :
    model.plain.filter Field.isKey = model.fields.filter Field.isKey := by
  unfold plain
  rw [List.filter_filter]
  -- A key is a scalar, and scalars are plain.
  refine List.filter_congr fun field _ => ?_
  cases kind : field.kind <;> simp [Field.isKey, Field.isPlain, Field.relation?, kind]

namespace Models.Valid

/-- A repair of valid definitions leaves relations that lead to models that are there, under names
that are identifiers. -/
theorem handsOn_present (valid : scanned.Valid system) :
    scanned.HandsOn system fun home field => ∀ relation, field.relation? = some relation →
      isIdentifier relation.target = true ∧ (relation.target = home ∨
        system.contains relation.target = true ∨ scanned.contains relation.target = true) where
  stored := by
    -- A stored definition is valid, so its relations were admitted when it was written.
    intro name model found field present relation related
    have named : model.name = name := Roster.name_of_find? found
    have formed := (Model.validate_eq_ok.mp (valid model (Roster.mem_of_find? found))).1
    have admitted := (formed.fields field present).relation relation related
    exact ⟨admitted.target, named ▸ admitted.present⟩
  fills := by
    -- Filling a relation in leaves its target.
    intro models model each _ found field present relation related
    rw [relation?_fillField] at related
    obtain ⟨before, held, rfl⟩ := Option.map_eq_some_iff.mp related
    rw [target_fillRelation]
    exact each _ model found field present before held
  places := by
    intro source field existing relation there _ _ _ merged related
    -- The counterpart leads back to where the relation comes from.
    obtain ⟨foreignKey, onDelete, same⟩ := Field.relation?_mergeInto
      (Field.relation?_ofRelation (field.counterpartName source)
        (relation.facing source field.name)) existing
    rw [same, Option.some.injEq] at related
    subst related
    obtain ⟨model, found⟩ := Option.isSome_iff_exists.mp there
    have named : model.name = source := Roster.name_of_find? found
    have formed := (Model.validate_eq_ok.mp (valid model (Roster.mem_of_find? found))).1
    exact ⟨named ▸ formed.name, Or.inr (Or.inr (by rw [Roster.contains_eq]; exact there))⟩

/-- What a repair makes of valid definitions keeps to all rules but those that new relations can
break: a definition is valid exactly when it is orderly. -/
theorem validate_repair_iff (valid : scanned.Valid system) {report : RepairReport} {model : Model}
    (listed : model ∈ (repair system scanned report).models.members) :
    model.validate system (repair system scanned report).models = .ok () ↔ model.Orderly := by
  -- The rules that are not about relations are kept because plain fields are, and defaults and
  -- models only ever stay.
  refine ⟨Model.orderly_of_validate, fun orderly => ?_⟩
  have found : (repair system scanned report).models.find? model.name = some model :=
    Roster.mem_iff_find?.mp listed
  have defaults := defaultsFrom_repair system scanned report
  obtain ⟨before, stored, fewer⟩ := defaults.fewer _ model found
  have named : before.name = model.name := Roster.name_of_find? stored
  obtain ⟨formed, -⟩ := Model.validate_eq_ok.mp (valid before (Roster.mem_of_find? stored))
  have plain := keepsPlain_repair system scanned report model.name
  rw [found, stored, Option.map_some, Option.map_some, Option.some.injEq] at plain
  have there : ∀ name, scanned.contains name = true →
      (repair system scanned report).models.contains name = true := by
    -- No model is taken away, so what was known is known still.
    intro name present
    rwa [Roster.contains_eq, defaults.same, ← Roster.contains_eq]
  have finite : model.Finite :=
    Model.Finite.of_defaults (fun field present => (formed.fields field present).finite) fewer
  refine Model.validate_eq_ok.mpr
    ⟨⟨named ▸ formed.name, fun field present => ?_, orderly.names, orderly.columns, ?_⟩,
      orderly.keyed⟩
  · cases related : field.relation? with
    | none =>
      -- A plain field is one from before.
      have isPlain : field ∈ before.plain := by
        rw [← plain]
        exact List.mem_filter.mpr ⟨present, by simp [Field.isPlain, related]⟩
      exact named ▸ (formed.fields field (List.mem_filter.mp isPlain).1).of_known
        fun relation _ => there relation.target
    | some relation =>
      -- A relation has the property that the repair hands on: its target is there.
      have fit := orderly.relations field present relation related
      obtain ⟨target, reaches⟩ :=
        valid.handsOn_present.eachField_repair valid report _ model found field present relation
          related
      refine ⟨fit.name, finite field present, fun options choice => ?_,
        fun again relatedAgain => ?_⟩
      · rw [Field.relation?_eq_some, choice] at related
        cases related
      · rw [related, Option.some.injEq] at relatedAgain
        subst relatedAgain
        exact ⟨⟨target, reaches.imp_right (Or.imp_right (there _)), fit.column, fit.joinTable⟩,
          fit.inverse, fit.apart⟩
  · rw [← Model.filter_isKey_plain, plain, Model.filter_isKey_plain]
    exact formed.oneKey

end Models.Valid

end ModelCatalog
