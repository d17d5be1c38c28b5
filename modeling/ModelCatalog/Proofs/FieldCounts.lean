import Mathlib.Algebra.GroupWithZero.Nat
import ModelCatalog.Proofs.Contention
import ModelCatalog.Proofs.RepairFootprint

/-! Field counts: what a repair reports to have added and removed, against the fields that there are
before and after. All is accounted for but what the pairing of self-relations takes away. -/

namespace ModelCatalog

open Resolution WritePlan RepairPlan

variable {system : SystemModels}

/-! ## Totals -/

namespace Roster

variable {α : Type} [Named α]

/-- Placing a member in the stead of one of its name changes a total by the difference of the
two. -/
theorem sum_place (weight : α → Nat) {member former : α} {members : List α}
    (ordered : members.Pairwise (fun a b => Named.name a < Named.name b))
    (found : members.find? (fun other => Named.name other == Named.name member) = some former) :
    ((place member members).map weight).sum + weight former =
      (members.map weight).sum + weight member := by
  -- The member goes to the front, further back, or into the stead of the first.
  induction members with
  | nil => cases found
  | cons first rest ih =>
    obtain ⟨smallest, tail⟩ := List.pairwise_cons.mp ordered
    simp only [place]
    split
    · -- In front of all others there would be none of its name.
      rename_i before
      have later : ∀ other ∈ first :: rest, Named.name member < Named.name other := by
        intro other listed
        rcases List.mem_cons.mp listed with rfl | listed
        · exact before
        · exact String.lt_trans before (smallest other listed)
      have same : Named.name former = Named.name member := by simpa using List.find?_some found
      exact absurd (same ▸ later former (List.mem_of_find?_eq_some found)) (String.lt_irrefl _)
    · rename_i notBefore
      split
      · rename_i after
        have differ : Named.name first ≠ Named.name member :=
          fun same => String.lt_irrefl _ (same ▸ after)
        rw [List.find?_cons_of_neg (by simpa using differ)] at found
        have step := ih tail found
        simp only [List.map_cons, List.sum_cons]
        omega
      · -- Neither comes before the other, so this is the one that goes.
        rename_i notAfter
        have same : Named.name first = Named.name member :=
          String.le_antisymm (String.not_lt.mp notBefore) (String.not_lt.mp notAfter)
        rw [List.find?_cons_of_pos (by simpa using same), Option.some.injEq] at found
        subst found
        simp only [List.map_cons, List.sum_cons]
        omega

end Roster

namespace Models

/-- The number of fields that models have together. -/
def fieldCount (models : Models) : Nat :=
  (models.members.map fun model => model.fields.length).sum

/-- Filing a model in the stead of one of its name changes the number of fields by the difference of
the two. -/
theorem fieldCount_insert {models : Models} {model next : Model}
    (found : models.find? next.name = some model) :
    fieldCount (models.insert next) + model.fields.length =
      models.fieldCount + next.fields.length :=
  Roster.sum_place (fun model => model.fields.length) models.ordered found

end Models

namespace Model

variable {target : Model} {source fieldName : String} {desired : Field}

/-- Putting a counterpart in place adds one field and takes those that pair. -/
theorem length_upsertCounterpart (target : Model) (source fieldName : String) (desired : Field) :
    (target.upsertCounterpart source fieldName desired).target.fields.length +
        (target.fields.filter fun field =>
          field.pairsWith source fieldName desired.name).length =
      target.fields.length + 1 := by
  have split := fun fields : List Field => @List.length_eq_length_filter_add _ fields
    fun field => field.pairsWith source fieldName desired.name
  -- Where a field is replaced those that pair go and one comes, and where none pairs one is added.
  rcases upsertCounterpart_cases target source fieldName desired with
    ⟨front, existing, back, before, pairs, -, after⟩ | ⟨alone, -, after⟩
  · have inFront := split front
    have inBack := split back
    rw [after, before, List.filter_append, List.filter_cons_of_pos (by simpa using pairs)]
    simp only [List.length_append, List.length_cons]
    omega
  · rw [after, List.filter_eq_nil_iff.mpr (by simpa using alone)]
    simp

/-- A counterpart is found where some field pairs. -/
theorem isSome_counterpartIndex?_iff {name : String} :
    (target.counterpartIndex? source fieldName name).isSome = true ↔
      0 < (target.fields.filter fun field => field.pairsWith source fieldName name).length := by
  -- The search finds an index exactly where some field pairs.
  rw [List.length_filter_pos_iff]
  constructor
  · intro found
    obtain ⟨index, there⟩ := Option.isSome_iff_exists.mp found
    obtain ⟨existing, held, pairs⟩ := exists_of_counterpartIndex? there
    exact ⟨existing, List.mem_of_getElem? held, pairs⟩
  · rintro ⟨field, present, pairs⟩
    exact isSome_counterpartIndex? present pairs

end Model

/-! ## Steps of a repair -/

namespace RepairPlan

/-- The reports of two stages of a repair account for the fields of their models, but for so many
that are lost. -/
def Progress.Accounts (before after : Progress) (lost : Nat) : Prop :=
  after.models.fieldCount + after.report.fieldsRemoved + lost + before.report.fieldsAdded =
    before.models.fieldCount + before.report.fieldsRemoved + after.report.fieldsAdded

/-- Losses of one step and of the next come together. -/
theorem Progress.Accounts.trans {before middle after : Progress} {lost more : Nat}
    (first : before.Accounts middle lost) (second : middle.Accounts after more) :
    before.Accounts after (lost + more) := by
  -- What is left and what is lost add up over both steps.
  unfold Progress.Accounts at first second ⊢
  omega

/-- To do nothing loses nothing. -/
theorem Progress.Accounts.refl (progress : Progress) : progress.Accounts progress 0 := by
  unfold Progress.Accounts
  -- The counts are the same on both sides.
  omega

/-- Steps that lose nothing lose nothing together. -/
theorem accounts_foldl {step : Progress → String → Progress}
    (accounts : ∀ (progress : Progress) (name : String),
      progress.Accounts (step progress name) 0) (names : List String) (progress : Progress) :
    progress.Accounts (names.foldl step progress) 0 := by
  -- The losses of a run are those of its steps, and zeros add up to zero.
  induction names generalizing progress with
  | nil => exact .refl progress
  | cons first rest ih => exact (accounts progress first).trans (ih _)

/-- Every field that is pruned is counted as removed. -/
theorem accounts_pruneAll (system : SystemModels) (scanned : Models) (report : RepairReport) :
    Progress.Accounts ⟨scanned, report⟩ (pruneAll system scanned report) 0 := by
  -- What a model loses and what it keeps make up what it had, and so they do over all models.
  have each : ∀ model : Model, (model.fields.length - (prune system scanned model).fields.length) +
      (prune system scanned model).fields.length = model.fields.length :=
    fun model => Nat.sub_add_cancel (List.length_filter_le _ _)
  have total := @List.sum_map_add _ _ _ scanned.members
    (fun model => model.fields.length - (prune system scanned model).fields.length)
    fun model => (prune system scanned model).fields.length
  simp only [each] at total
  simp only [Progress.Accounts, pruneAll, Models.fieldCount, Roster.map, List.map_map,
    Function.comp_def, ← List.sum_eq_foldl_nat]
  omega

/-- The number of fields by which resolution leaves a model shorter than it was. -/
def lapse (system : SystemModels) (progress : Progress) (name : String) : Nat :=
  match progress.models.find? name with
  | none => 0
  | some model =>
    match Context.resolve ⟨system, progress.models⟩ (some model) model with
    | .error _ => 0
    | .ok resolved => model.fields.length - resolved.fields.length

/-- The number of fields by which models are left shorter that are resolved one after the other. -/
def lapses (system : SystemModels) : List String → Progress → Nat
  | [], _ => 0
  | name :: rest, progress =>
    lapse system progress name + lapses system rest (resolveOne system progress name)

/-- To resolve a model counts what it grows by, and loses what it shrinks by. -/
theorem accounts_resolveOne (system : SystemModels) (progress : Progress) (name : String) :
    progress.Accounts (resolveOne system progress name) (lapse system progress name) := by
  -- The stage is left alone where there is no model or no resolution.
  unfold lapse resolveOne
  cases found : progress.models.find? name with
  | none => exact .refl progress
  | some model =>
    dsimp only
    cases done : Context.resolve ⟨system, progress.models⟩ (some model) model with
    | error => exact .refl progress
    | ok resolved =>
      have named : resolved.name = name :=
        -- The model that is filed replaces the one of its name, and the total changes by the
        -- difference.
        (Context.of_resolve done).1.trans (Roster.name_of_find? found)
      have total := Models.fieldCount_insert (named.symm ▸ found)
      simp only [Progress.Accounts]
      omega

/-- To resolve models loses what they shrink by, one after the other. -/
theorem accounts_resolveAll (system : SystemModels) (names : List String) (progress : Progress) :
    progress.Accounts (names.foldl (resolveOne system) progress)
      (lapses system names progress) := by
  -- Each turn begins with what the earlier ones have left.
  induction names generalizing progress with
  | nil => exact .refl progress
  | cons first rest ih => exact (accounts_resolveOne system progress first).trans (ih _)

/-- Mending counts the counterpart that it adds and the fields that it takes for it. -/
theorem accounts_mendField (system : SystemModels) (name : String) (progress : Progress)
    (fieldName : String) : progress.Accounts (mendField system name progress fieldName) 0 := by
  rcases mendField_cases system progress name fieldName with
    ⟨field, relation, target, awaits, after⟩ | same
  · rw [after]
    -- The target counts by the difference that the counterpart makes to it.
    have named : target.name = relation.target := Roster.name_of_find? awaits.found
    have lengths := target.length_upsertCounterpart name field.name
      (insertionOf name field relation).counterpart
    have total := @Models.fieldCount_insert progress.models target
      (target.upsertCounterpart name field.name
        (insertionOf name field relation).counterpart).target
      (named.symm ▸ awaits.found)
    have found := @Model.isSome_counterpartIndex?_iff target name field.name
      (field.counterpartName name)
    rw [show (insertionOf name field relation).counterpart.name = field.counterpartName name from
      rfl] at lengths
    simp only [Progress.Accounts, placing, countUpsert]
    -- Where none is found none pairs, and otherwise one of those that pair is replaced.
    cases existed : (target.counterpartIndex? name field.name
        (field.counterpartName name)).isSome with
    | true =>
      have some := found.mp existed
      simp only [reduceIte]
      omega
    | false =>
      have none := mt found.mpr (by simp [existed])
      simp only [Bool.false_eq_true, reduceIte]
      omega
  · -- Nothing was done, so nothing is counted.
    rw [same]
    exact .refl progress

/-- A turn of a model loses nothing. -/
theorem accounts_mendOne (system : SystemModels) (progress : Progress) (name : String) :
    progress.Accounts (mendOne system progress name) 0 := by
  -- A missing model has no turn, and mending a field only adds.
  unfold mendOne
  split
  · exact .refl progress
  · exact accounts_foldl (accounts_mendField system name) _ progress

/-- A repair accounts for all fields but those that resolution takes away. -/
theorem accounts_repair (system : SystemModels) (scanned : Models) (report : RepairReport) :
    Progress.Accounts ⟨scanned, report⟩ (repair system scanned report)
      (lapses system scanned.names (pruneAll system scanned report)) := by
  -- Only the second of the three stages can lose fields that it does not report.
  have whole := ((accounts_pruneAll system scanned report).trans
    (accounts_resolveAll system scanned.names _)).trans
      (accounts_foldl (accounts_mendOne system) scanned.names _)
  rwa [Nat.zero_add, Nat.add_zero] at whole

end RepairPlan

/-! ## Self-relations that agree -/

/-- The relations of a model to itself agree: they state their inverse names, and one that is stated
to be the inverse of another states the other for its own. -/
structure Model.SelvesAgree (model : Model) : Prop where
  distinct : (model.fields.map Field.name).Nodup
  named : ∀ pair ∈ model.relations, pair.2.target = model.name →
    pair.2.inverseName.isSome = true
  answers : ∀ one ∈ model.fields, ∀ other ∈ model.fields, one.targets model.name = true →
    other.targets model.name = true → other.counterpartName model.name = one.name →
      one.counterpartName model.name = other.name

namespace Resolution

variable {start model next : Model} {field placed : Field} {todo : List String}

/-- Pairing on its way among self-relations that agree: those still to come are there, and where one
of them is the counterpart of a relation, that is its own. -/
structure Agreeing (home : String) (todo : List String) (model : Model) : Prop where
  there : ∀ name ∈ todo, ∃ field ∈ model.fields, field.targets home = true ∧ field.name = name
  answers : ∀ one ∈ model.fields, ∀ other ∈ model.fields, one.targets home = true →
    other.targets home = true → one.name ∈ todo → other.counterpartName home = one.name →
      one.counterpartName home = other.name

/-- All that pairs with a relation at its turn bears the name of its counterpart. -/
theorem Agreeing.name_of_pairs (agreeing : Agreeing start.name (field.name :: todo) model)
    (present : field ∈ model.fields) (targets : field.targets start.name = true) {one : Field}
    (listed : one ∈ model.fields)
    (pairs : one.pairsWith start.name field.name (field.counterpartName start.name) = true) :
    one.name = field.counterpartName start.name := by
  obtain ⟨back, named | inverts⟩ := Field.pairsWith_iff.mp pairs
  · -- A field pairs by its name, or because it inverts to the relation, which then answers by its
    -- name.
    exact named
  · exact (agreeing.answers field present one listed targets back List.mem_cons_self
      (Field.counterpartName_of_invertsTo inverts start.name)).symm

/-- Relations go on to agree when the counterpart of the first of them is put in place. -/
theorem Agreeing.step (agreeing : Agreeing start.name (field.name :: todo) model)
    (placement : Placement start model field placed next) (present : field ∈ model.fields)
    (targets : field.targets start.name = true) (once : field.name ∉ todo) :
    Agreeing start.name todo next := by
  have isPlaced : placed ∈ next.fields := placement.listed.mpr (Or.inl rfl)
  -- Two of the four cases are about a field that is the new counterpart, and two about one from
  -- before.
  refine ⟨fun name later => ?_,
    fun one listed other otherListed oneTargets otherTargets later claim => ?_⟩
  · obtain ⟨one, before, back, rfl⟩ := agreeing.there name (List.mem_cons_of_mem _ later)
    -- What goes is replaced under its name.
    cases pairs : one.pairsWith start.name field.name (field.counterpartName start.name) with
    | false => exact ⟨one, placement.listed.mpr (Or.inr ⟨before, pairs⟩), back, rfl⟩
    | true =>
      exact ⟨placed, isPlaced, placement.targets, placement.named.trans
        (agreeing.name_of_pairs present targets before pairs).symm⟩
  rcases placement.listed.mp listed with rfl | ⟨before, -⟩ <;>
    rcases placement.listed.mp otherListed with rfl | ⟨otherBefore, -⟩
  · exact claim
  · -- The counterpart has replaced a field of its name, of which the relation was the counterpart.
    obtain ⟨gone, inModel, goneTargets, sameName⟩ :=
      agreeing.there one.name (List.mem_cons_of_mem _ later)
    have goneLater : gone.name ∈ field.name :: todo := sameName ▸ List.mem_cons_of_mem _ later
    have ofOther := agreeing.answers gone inModel other otherBefore goneTargets otherTargets
      goneLater (claim.trans sameName.symm)
    have ofField := agreeing.answers gone inModel field present goneTargets targets goneLater
      (placement.named.symm.trans sameName.symm)
    exact placement.claim.trans (ofField.symm.trans ofOther)
  · exact absurd (placement.claim.symm.trans claim ▸ later) once
  · exact agreeing.answers one before other otherBefore oneTargets otherTargets
      (List.mem_cons_of_mem _ later) claim

/-- Where relations agree and have names apart, no more than one field pairs with the first. -/
theorem Agreeing.length_le (agreeing : Agreeing start.name (field.name :: todo) model)
    (pairing : Pairing start (field.name :: todo) model) (present : field ∈ model.fields)
    (targets : field.targets start.name = true) :
    (model.fields.filter fun one =>
      one.pairsWith start.name field.name (field.counterpartName start.name)).length ≤ 1 := by
  -- What pairs is a self-relation, and the names of these are apart.
  have selves : (model.fields.filter fun one =>
      one.pairsWith start.name field.name (field.counterpartName start.name)).Sublist
        (model.fields.filter fun one => one.targets model.name) := by
    refine List.monotone_filter_right _ fun one pairs => ?_
    rw [pairing.name]
    exact (Field.pairsWith_iff.mp pairs).1
  have distinct := pairing.distinct.sublist (selves.map Field.name)
  have same : ∀ name ∈ (model.fields.filter fun one => one.pairsWith start.name field.name
      (field.counterpartName start.name)).map Field.name,
      name = field.counterpartName start.name := by
    intro name listed
    obtain ⟨one, inFilter, rfl⟩ := List.mem_map.mp listed
    obtain ⟨inModel, pairs⟩ := List.mem_filter.mp inFilter
    exact agreeing.name_of_pairs present targets inModel pairs
  -- A list without repetitions of which all members are one has one member at most.
  have count := List.eq_replicate_of_mem same
  rw [count, List.nodup_replicate, List.length_map] at distinct
  exact distinct

/-- Pairing relations that agree leaves no model shorter than it was. -/
theorem length_le_of_pairSelves (distinct : (start.fields.map Field.name).Nodup)
    (agreeing : Agreeing start.name start.selfNames start) (done : pairSelves start = .ok model) :
    start.fields.length ≤ model.fields.length := by
  -- Each step takes one field at most and puts one in its stead.
  refine (pairSelves_induction (fun todo reached => Agreeing start.name todo reached ∧
    start.fields.length ≤ reached.fields.length) distinct ⟨agreeing, Nat.le_refl _⟩
    (fun name todo reached next pairing declared once step held => ?_) done).2.2
  obtain ⟨agreeing, longer⟩ := held
  -- A relation that is its own counterpart, or has none, changes nothing.
  rcases pairSelf_cases step with ⟨rfl, -⟩ | ⟨field, relation, found, related, differ, rfl⟩
  · exact ⟨⟨fun name later => agreeing.there name (List.mem_cons_of_mem _ later),
      fun one present other otherPresent targets back later =>
        agreeing.answers one present other otherPresent targets back
          (List.mem_cons_of_mem _ later)⟩, longer⟩
  · obtain ⟨present, rfl⟩ := Model.mem_of_field? found
    rw [pairing.name] at differ ⊢
    have targets := pairing.targets_of_name distinct present declared
    have lengths := reached.length_upsertCounterpart start.name field.name
      (Field.ofRelation (field.counterpartName start.name)
        (relation.facing start.name field.name))
    have few := agreeing.length_le pairing present targets
    refine ⟨agreeing.step (pairing.placement relation differ) present targets once, ?_⟩
    simp only [show (Field.ofRelation (field.counterpartName start.name)
      (relation.facing start.name field.name)).name = field.counterpartName start.name from rfl]
      at lengths
    omega

end Resolution

namespace Model.SelvesAgree

variable {model : Model}

/-- Self-relations agree without the relations to models that are missing. -/
theorem prune (agree : model.SelvesAgree) (system : SystemModels) (scanned : Models) :
    (prune system scanned model).SelvesAgree where
  distinct := agree.distinct.sublist (List.filter_sublist.map Field.name)
  -- Pruning takes fields away, and what is left agrees as before.
  named pair listed := by
    obtain ⟨present, related⟩ := Model.mem_relations.mp listed
    exact agree.named pair (Model.mem_relations.mpr ⟨(List.mem_filter.mp present).1, related⟩)
  answers one listed other otherListed :=
    agree.answers one (List.mem_filter.mp listed).1 other (List.mem_filter.mp otherListed).1

/-- Filling in a self-relation leaves the name of its counterpart, which is stated. -/
theorem counterpartName_fillField (agree : model.SelvesAgree) {context : Context}
    {old : Option Model} {source : Model} {field : Field} (present : field ∈ model.fields)
    (targets : field.targets model.name = true) :
    (fillField context old source field).counterpartName model.name =
      field.counterpartName model.name := by
  -- The inverse name is stated, so filling in has nothing to give.
  obtain ⟨relation, related, leads⟩ := Field.targets_iff.mp targets
  have stated := agree.named (field, relation) (Model.mem_relations.mpr ⟨present, related⟩) leads
  have kept := (@completedTo_fillRelation context old source field.name relation).keepsName
    (Or.inl stated)
  have filled : (fillField context old source field).relation? =
      some (fillRelation context old source field.name relation) := by
    rw [relation?_fillField, related, Option.map_some]
  rw [Field.counterpartName_eq filled, Field.counterpartName_eq related, kept]

/-- Self-relations that agree do so when they are filled in, and all of them are to come. -/
theorem agreeing_filled (agree : model.SelvesAgree) (context : Context) :
    Agreeing model.name (filled context (some model) model).selfNames
      (filled context (some model) model) := by
  have whole := @filled_self context model agree.distinct
  refine ⟨fun name listed => ?_,
    fun one listed other otherListed targets otherTargets _ claim => ?_⟩
  · have own := Model.mem_selfNames.mp listed
    -- Every field of the filled-in definition comes from one of the model, with the same
    -- counterpart.
    rwa [name_filled] at own
  · rw [whole] at listed otherListed
    obtain ⟨first, present, rfl⟩ := List.mem_map.mp listed
    obtain ⟨second, otherPresent, rfl⟩ := List.mem_map.mp otherListed
    rw [targets_fillField] at targets otherTargets
    rw [agree.counterpartName_fillField otherPresent otherTargets, name_fillField] at claim
    rw [agree.counterpartName_fillField present targets, name_fillField]
    exact agree.answers first present second otherPresent targets otherTargets claim

/-- Resolving a model over itself leaves it no shorter when its self-relations agree. -/
theorem length_le_of_resolve (agree : model.SelvesAgree) {context : Context} {resolved : Model}
    (done : context.resolve (some model) model = .ok resolved) :
    -- Declared over itself a model is filled with its own fields, so only pairing could drop some.
    model.fields.length ≤ resolved.fields.length := by
  have agreeing := agree.agreeing_filled context
  rw [← name_filled context (some model) model] at agreeing
  have longer := length_le_of_pairSelves (nodup_names_filled agree.distinct) agreeing
    (Context.resolve_eq_ok.mp done).1
  rwa [filled_self agree.distinct, List.length_map] at longer

end Model.SelvesAgree

instance (model : Model) : Decidable model.SelvesAgree :=
  decidable_of_iff ((model.fields.map Field.name).Nodup ∧
      (∀ pair ∈ model.relations, pair.2.target = model.name → pair.2.inverseName.isSome = true) ∧
      ∀ one ∈ model.fields, ∀ other ∈ model.fields, one.targets model.name = true →
        other.targets model.name = true → other.counterpartName model.name = one.name →
          one.counterpartName model.name = other.name)
    ⟨fun ⟨distinct, named, answers⟩ => ⟨distinct, named, answers⟩,
      fun agree => ⟨agree.distinct, agree.named, agree.answers⟩⟩

namespace RepairPlan

/-- Nothing is lost over models whose self-relations agree before their turn. -/
theorem lapses_eq_zero (system : SystemModels) {names : List String} {progress : Progress}
    (once : names.Nodup)
    (agree : ∀ name ∈ names, ∀ model, progress.models.find? name = some model →
      model.SelvesAgree) : lapses system names progress = 0 := by
  induction names generalizing progress with
  | nil => rfl
  | cons first rest ih =>
    obtain ⟨fresh, restOnce⟩ := List.nodup_cons.mp once
    -- The first loses nothing, since its self-relations agree.
    have head : lapse system progress first = 0 := by
      unfold lapse
      cases found : progress.models.find? first with
      | none => rfl
      | some model =>
        dsimp only
        cases done : Context.resolve ⟨system, progress.models⟩ (some model) model with
        | error => rfl
        | ok resolved =>
          exact Nat.sub_eq_zero_of_le
            ((agree first List.mem_cons_self model found).length_le_of_resolve done)
    -- The others are as they were when the first has had its turn.
    rw [lapses, head, Nat.zero_add]
    refine ih restOnce fun name later model found => ?_
    have apart : name ≠ first := fun same => fresh (same ▸ later)
    rw [find?_resolveOne_of_ne system progress apart] at found
    exact agree name (List.mem_cons_of_mem _ later) model found

/-! ## The report -/

variable {records : List Record} {reapplying : Bool} {plan : RepairPlan}

/-- The number of fields that a repair takes away and does not report: those by which resolution
leaves models shorter than they were. -/
def lapsed (system : SystemModels) (records : List Record) : Nat :=
  lapses system (scanned records).names
    (pruneAll system (scanned records) (.untouched records.length))

/-- The fields of stored models are those of their records. -/
theorem fieldCount_scanned (distinct : (records.map Record.name).Nodup) :
    (scanned records).fieldCount =
      (records.map fun record => record.definition.fields.length).sum := by
  -- Records of different names have different definitions, so neither list counts anything twice.
  have once : (records.map Record.definition).Nodup := by
    refine List.Nodup.of_map Model.name ?_
    rwa [List.map_map]
  have same : (scanned records).members.Perm (records.map Record.definition) := by
    refine (List.perm_ext_iff_of_nodup (List.Nodup.of_map _ (Roster.names_nodup _)) once).mpr
      fun model => ?_
    rw [Roster.mem_iff_find?, find?_scanned distinct, List.mem_map]
    exact exists_congr fun record => and_congr_right fun _ => and_iff_left rfl
  have total := (same.map fun model => model.fields.length).sum_eq
  rwa [List.map_map] at total

/-- There are as many updates as records whose definition does not equal what is left of it. -/
theorem length_updates (distinct : (records.map Record.name).Nodup)
    (planned : ofRecords system records reapplying = .ok plan) (now : Nat) :
    plan.updates.length = (records.filter fun record =>
      !record.definition.sameAs (plan.appliedTo now record).definition).length := by
  -- Updates are of different models, and records are by assumption.
  have once : (plan.updates.map fun update => update.1.name).Nodup := by
    rw [updates_of_ofRecords planned]
    exact nodup_names_updated _ _ _
  have apart := distinct.sublist ((@List.filter_sublist _ (fun record : Record =>
    !record.definition.sameAs (plan.appliedTo now record).definition) records).map Record.name)
  -- Either list names the models that changed, each of them once.
  have same : ∀ name, name ∈ plan.updates.map (fun update => update.1.name) ↔
      name ∈ (records.filter fun record =>
        !record.definition.sameAs (plan.appliedTo now record).definition).map Record.name := by
    intro name
    simp only [List.mem_map, List.mem_filter, Bool.not_eq_true']
    constructor
    · rintro ⟨⟨model, version⟩, listed, rfl⟩
      obtain ⟨record, inRecords, rfl, -, changed⟩ := (mem_updates distinct planned now).mp listed
      exact ⟨record, ⟨inRecords, changed⟩, (name_appliedTo plan now record).symm⟩
    · rintro ⟨record, ⟨inRecords, changed⟩, rfl⟩
      exact ⟨((plan.appliedTo now record).definition, record.version),
        (mem_updates distinct planned now).mpr ⟨record, inRecords, rfl, rfl, changed⟩,
        name_appliedTo plan now record⟩
  have lengths := ((List.perm_ext_iff_of_nodup once apart).mpr same).length_eq
  rwa [List.length_map, List.length_map] at lengths

/-- The report of a repair accounts for every field but those that the pairing of self-relations
takes away, of which there are none where the self-relations of each record agree; and it counts the
models whose definition changed. -/
theorem report_accounts (distinct : (records.map Record.name).Nodup)
    (planned : ofRecords system records reapplying = .ok plan) (now : Nat) :
    let before := (records.map fun record => record.definition.fields.length).sum
    let after := (records.map fun record =>
      (plan.appliedTo now record).definition.fields.length).sum
    after + plan.report.fieldsRemoved + lapsed system records =
        before + plan.report.fieldsAdded ∧
      ((∀ record ∈ records, record.definition.SelvesAgree) →
        after + plan.report.fieldsRemoved = before + plan.report.fieldsAdded) ∧
      plan.report.modelsUpdated = (records.filter fun record =>
        !record.definition.sameAs (plan.appliedTo now record).definition).length ∧
      ((∀ record ∈ records, record.definition.Comparable) →
        plan.report.modelsUpdated = (records.filter fun record =>
          decide ((plan.appliedTo now record).definition ≠ record.definition)).length) := by
  intro before after
  have names : (records.map (plan.appliedTo now)).map Record.name = records.map Record.name := by
    simp [Function.comp_def]
  obtain ⟨_, same⟩ := exists_of_ofRecords planned
  have report : plan.report =
      { (repaired system records).report with modelsUpdated := plan.updates.length } := by
    rw [same]
  -- The totals of the records are those of the models that the repair begins and ends with.
  have isBefore : (scanned records).fieldCount = before := fieldCount_scanned distinct
  have isAfter : (repaired system records).models.fieldCount = after := by
    rw [← scanned_appliedTo distinct planned now, fieldCount_scanned (names ▸ distinct),
      List.map_map]
    rfl
  have accounts : after + plan.report.fieldsRemoved + lapsed system records =
      before + plan.report.fieldsAdded := by
    have whole := accounts_repair system (scanned records) (.untouched records.length)
    rw [← isBefore, ← isAfter, report]
    exact whole
  have updated : plan.report.modelsUpdated = (records.filter fun record =>
      !record.definition.sameAs (plan.appliedTo now record).definition).length := by
    rw [report]
    exact length_updates distinct planned now
  refine ⟨accounts, fun agree => ?_, updated, fun comparable => ?_⟩
  · -- What is left of a record by pruning agrees as the record does, so nothing is lost.
    have none_lost : lapsed system records = 0 := by
      refine lapses_eq_zero system (Roster.names_nodup _) fun name _ model found => ?_
      rw [find?_pruneAll] at found
      obtain ⟨stored, isStored, rfl⟩ := Option.map_eq_some_iff.mp found
      obtain ⟨record, listed, rfl, -⟩ := (find?_scanned distinct).mp isStored
      exact (agree record listed).prune system _
    rwa [none_lost, Nat.add_zero] at accounts
  · -- Definitions that can be compared differ exactly when they do not equal each other.
    rw [updated]
    refine congrArg List.length (List.filter_congr fun record listed => ?_)
    rw [Bool.eq_iff_iff, Bool.not_eq_true', decide_eq_true_eq]
    exact sameAs_appliedTo distinct planned now listed (comparable record listed)

/-- The library gets two fields and loses one, and is two fields and one field different. -/
theorem report_accounts_library :
    (library.map Record.name).Nodup ∧ (∀ record ∈ library, record.definition.SelvesAgree) ∧
      (∀ record ∈ library, record.definition.Comparable) ∧
      ∃ plan, ofRecords .standard library false = .ok plan ∧
        plan.report.fieldsAdded = 2 ∧ plan.report.fieldsRemoved = 1 ∧
        (library.map fun record => (plan.appliedTo 0 record).definition.fields.length).sum +
            plan.report.fieldsRemoved =
          (library.map fun record => record.definition.fields.length).sum +
            plan.report.fieldsAdded ∧
        plan.report.modelsUpdated = (library.filter fun record =>
          decide ((plan.appliedTo 0 record).definition ≠ record.definition)).length := by
  -- Names and defaults of the library are decided.
  have distinct : (library.map Record.name).Nodup := by decide
  have agree : ∀ record ∈ library, record.definition.SelvesAgree := by decide +kernel
  have plain : ∀ record ∈ library, ∀ field ∈ record.definition.fields, field.default = none := by
    decide +kernel
  have comparable : ∀ record ∈ library, record.definition.Comparable :=
    fun record listed field present =>
      (Field.finite_of_plain (plain record listed field present)).comparable
  -- The plan is evaluated for its counts alone.
  obtain ⟨plan, planned, counts⟩ := Outcome.map_eq_ok.mp
    (show (ofRecords .standard library false).map
      (fun plan => (plan.report.fieldsAdded, plan.report.fieldsRemoved)) = .ok (2, 1) by
        decide +kernel)
  obtain ⟨added, removed⟩ := Prod.mk.inj counts
  -- The balance itself is the theorem.
  obtain ⟨-, accounts, -, updated⟩ := report_accounts distinct planned 0
  exact ⟨distinct, agree, comparable, plan, planned, added, removed, accounts agree,
    updated comparable⟩

/-- The staff as a first repair leaves it, on record. -/
def managedStaff : List Record := [.first managed 0]

/-- A repair of the managed staff takes the managers away and reports nothing removed. -/
theorem report_misses_managers :
    (managedStaff.map Record.name).Nodup ∧
      ∃ plan, ofRecords .standard managedStaff false = .ok plan ∧
        plan.updates = [(mentored, 1)] ∧
        plan.report = { RepairReport.untouched 1 with modelsUpdated := 1 } ∧
        ¬((managedStaff.map fun record =>
              (plan.appliedTo 0 record).definition.fields.length).sum + plan.report.fieldsRemoved =
            (managedStaff.map fun record => record.definition.fields.length).sum +
              plan.report.fieldsAdded) := by
  -- The plan is worked out as a whole, and its parts are read off.
  obtain ⟨plan, planned, same⟩ := Outcome.map_eq_ok.mp
    (show (ofRecords .standard managedStaff false).map (fun plan => (plan.updates, plan.report)) =
      .ok ([(mentored, 1)], { RepairReport.untouched 1 with modelsUpdated := 1 }) by
        decide +kernel)
  obtain ⟨updates, report⟩ := Prod.mk.inj same
  refine ⟨by decide, plan, planned, updates, report, ?_⟩
  -- Both managers are gone, and the two fields that are left were there before.
  have written : managedStaff.map (fun record =>
      (plan.appliedTo 0 record).definition.fields.length) = [2] := by
    simp only [managedStaff, List.map_cons, List.map_nil, appliedTo, updates]
    rfl
  rw [written, report]
  decide

end RepairPlan

end ModelCatalog
