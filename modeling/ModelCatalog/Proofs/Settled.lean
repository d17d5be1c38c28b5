import ModelCatalog.Proofs.Clearing
import ModelCatalog.Proofs.Rest

/-! Settled models: those in which every relation has its mate are at rest exactly when no mate has
anything to lose. -/

namespace ModelCatalog

open Resolution WritePlan RepairPlan

variable {system : SystemModels} {models : Models}

/-- Clearing fields leaves the claims of a model. -/
theorem Resolution.claims_clearedAt (model : Model) (names : List String) :
    claims system (model.clearedAt names) = claims system model := by
  simp only [claims, Model.relations, Model.clearedAt, List.filterMap_filterMap,
    List.filterMap_map]
  -- Clearing takes nothing that a claim is made of.
  refine List.filterMap_congr fun field _ => ?_
  by_cases listed : field.name ∈ names
  · cases related : field.relation? <;>
      simp [listed, related, Field.relation?_cleared, Relation.cleared]
  · simp [listed]

/-- An unambiguous model claims different counterparts. -/
theorem Model.Unambiguous.pairwise_claims {model : Model} (unambiguous : model.Unambiguous system)
    (tidy : model.Tidy system) :
    (claims system model).Pairwise fun one other =>
      ¬(one.target = other.target ∧ one.name = other.name) := by
  have distinct : model.fields.Pairwise fun one other => one.name ≠ other.name :=
    List.pairwise_map.mp tidy.distinct
  -- Two relations to one target that name one inverse would be one field.
  have apart : model.relations.Pairwise fun one other =>
      leadsOut system model.name one.2 → one.2.target = other.2.target →
        one.1.counterpartName model.name ≠ other.1.counterpartName model.name := by
    refine List.Pairwise.filterMap _ ?_ (List.Pairwise.and_mem.mp distinct)
    rintro one other ⟨onePresent, otherPresent, differ⟩ first firstMade second secondMade out
      sameTarget sameName
    obtain ⟨relation, related, rfl⟩ := Option.map_eq_some_iff.mp firstMade
    obtain ⟨again, relatedAgain, rfl⟩ := Option.map_eq_some_iff.mp secondMade
    -- Tidy relations to other models have their inverse names filled in.
    obtain ⟨named, given⟩ := Option.isSome_iff_exists.mp
      ((tidy.resolved one onePresent relation related).named out.2)
    obtain ⟨otherNamed, otherGiven⟩ := Option.isSome_iff_exists.mp
      ((tidy.resolved other otherPresent again relatedAgain).named (sameTarget ▸ out.2))
    dsimp only at sameName sameTarget
    rw [Field.counterpartName_of_inverse related given,
      Field.counterpartName_of_inverse relatedAgain otherGiven] at sameName
    refine differ (congrArg Field.name ?_).symm
    exact unambiguous one onePresent other otherPresent relation again related relatedAgain out
      sameTarget.symm (by rw [given, otherGiven, sameName])
  -- Claims are made of the relations that lead out, so what holds of those holds of the claims.
  refine List.Pairwise.filterMap _ ?_ apart
  intro one other differ claim made second secondMade
  dsimp only at made secondMade
  split at made
  · cases made
  · split at secondMade
    · cases secondMade
    · rename_i out _
      cases made
      cases secondMade
      rintro ⟨sameTarget, sameName⟩
      simp only [Bool.or_eq_true, beq_iff_eq, not_or, Bool.not_eq_true] at out
      exact differ ⟨out.2, out.1⟩ sameTarget sameName

/-- Every relation to a model of the catalog that is not its own inverse has some property. -/
def Models.EachPaired (system : SystemModels) (models : Models) (holds : Field → Relation → Prop) :
    Prop :=
  ∀ name model, models.find? name = some model → ∀ field ∈ model.fields, ∀ relation,
    field.relation? = some relation → system.contains relation.target = false →
      field.invertsTo name field.name = false → holds field relation

/-- Models are settled when they form a symmetric graph, self-relations have mates as well, and
every definition equals itself. -/
structure Settled (system : SystemModels) (models : Models) : Prop extends
    Symmetric system models where
  selves : ∀ name model, models.find? name = some model → model.SelvesHaveMates
  equal : ∀ name model, models.find? name = some model → model.sameAs model = true

namespace Settled

variable {name : String} {model : Model}

/-- The target of a relation to a model of the catalog is there, with a mate of the relation. -/
theorem exists_target (settled : Settled system models) (found : models.find? name = some model)
    {field : Field} (present : field ∈ model.fields) {relation : Relation}
    (related : field.relation? = some relation)
    (inCatalog : system.contains relation.target = false) :
    ∃ target, models.find? relation.target = some target ∧ target.HasMate name field := by
  -- A self-relation has its mate in the model itself, any other in the target.
  by_cases self : relation.target = name
  · have own : model.name = name := Roster.name_of_find? found
    subst own
    exact ⟨model, self ▸ found, settled.selves _ model found field present
      (Field.targets_iff.mpr ⟨relation, related, self⟩)⟩
  · exact settled.mated name model found field present relation related ⟨self, inCatalog⟩

/-- The other sides of a relation of settled models are one field. -/
theorem eq_of_inverts (settled : Settled system models) (found : models.find? name = some model)
    {field : Field} (present : field ∈ model.fields) {target : Model}
    (targetFound : models.find? target.name = some target) {mate : Field}
    (matePresent : mate ∈ target.fields) (mates : field.Mates name target.name mate)
    {other : Field} (listed : other ∈ target.fields)
    (inverts : other.invertsTo name field.name = true) : other = mate := by
  by_cases apart : name = target.name
  · -- Within one model the mate is among the fields of the model itself.
    subst apart
    rw [found, Option.some.injEq] at targetFound
    subst targetFound
    exact (settled.selves _ model found).eq_of_invertsTo (settled.tidy _ model found).distinct
      present matePresent mates listed inverts
  · exact settled.toSymmetric.eq_of_invertsTo found targetFound apart present mates matePresent
      listed inverts

/-- Settled models are resolved to themselves with the mates of self-relations cleared. -/
theorem resolve_eq (settled : Settled system models) (found : models.find? name = some model) :
    Context.resolve ⟨system, models⟩ (some model) model =
      .ok (model.clearedAt model.pairedNames) := by
  have tidy := settled.tidy name model found
  have unambiguous := settled.toSymmetric.mendable.unambiguous name model found
  -- Nothing is to be filled in, and clearing leaves what relations claim.
  rw [Context.resolve_eq_ok, @filled_eq_self ⟨system, models⟩ model tidy,
    claims_clearedAt]
  exact ⟨(settled.selves name model found).pairSelves_eq tidy.distinct,
    checkClaims_eq_ok.mpr ⟨unambiguous.pairwise_claims tidy, by simp⟩⟩

/-- The mate of a relation to another model awaits it for its counterpart. -/
theorem awaits_mate (settled : Settled system models) {target : Model} {field mate : Field}
    {back : Relation} (found : models.find? model.name = some model)
    (present : field ∈ model.fields) (targetFound : models.find? target.name = some target)
    (matePresent : mate ∈ target.fields)
    (mates : field.Mates model.name target.name mate) (apart : target.name ≠ model.name)
    (backRelated : mate.relation? = some back) :
    Awaits system models target.name mate.name mate back model := by
  -- The mate leads back to the model, and the name on its other side is that of the relation.
  obtain ⟨again, relatedAgain, returns⟩ := Field.targets_iff.mp mates.symm.targets
  rw [backRelated, Option.some.injEq] at relatedAgain
  subst relatedAgain
  refine ⟨⟨target, targetFound, ?_⟩, backRelated, ⟨?_, ?_⟩, ?_, ?_⟩
  · exact Model.field?_of_mem (settled.tidy _ _ targetFound).distinct matePresent
  · rw [returns]
    exact Ne.symm apart
  · rw [returns]
    exact settled.inCatalog _ model found
  · rw [returns, found]
  · -- The name that is awaited is that of the relation itself.
    have distinct := (settled.tidy _ _ found).distinct
    rw [Bool.eq_false_iff]
    intro barred
    obtain ⟨blocker, listed, sameName, elsewhere⟩ := (Model.bars_iff distinct).mp barred
    rw [mates.symm.counterpartName] at sameName
    rw [Model.eq_of_name_eq distinct listed present sameName, mates.targets] at elsewhere
    cases elsewhere

/-- Where settled models are at rest, every mate is cleared. -/
theorem eachPaired_of_atRest (settled : Settled system models) (rest : AtRest system models) :
    models.EachPaired system fun field _ => field.cleared = field := by
  intro name model found field present relation related inCatalog foreign
  have own : model.name = name := Roster.name_of_find? found
  subst own
  obtain ⟨target, targetFound, mate, matePresent, mates⟩ :=
    settled.exists_target found present related inCatalog
  have named : target.name = relation.target := Roster.name_of_find? targetFound
  rw [← named] at targetFound
  by_cases self : target.name = model.name
  · -- A self-relation was cleared by resolution, which has changed nothing.
    have same := rest.resolved _ model found _ (settled.resolve_eq found)
    have targets : field.targets model.name = true :=
      Field.targets_iff.mpr ⟨relation, related, named.symm.trans self⟩
    exact Model.clearedAt_eq_self_iff.mp same field present
      (((settled.selves _ _ found).mem_pairedNames (settled.tidy _ _ found).distinct present).mpr
        ⟨targets, foreign⟩)
  · -- Any other relation is the counterpart of its mate, and it is in place.
    obtain ⟨back, backRelated, -⟩ := Field.targets_iff.mp mates.symm.targets
    have awaits := settled.awaits_mate found present targetFound matePresent mates self backRelated
    exact (Model.placedIn_iff_of_mates (settled.tidy _ _ found).distinct present mates.symm
      backRelated fun other listed inverts => settled.eq_of_inverts targetFound matePresent found
        present mates.symm listed inverts).mp (rest.placed _ _ _ _ _ awaits)

/-- Where every mate is cleared, what a relation of settled models awaits on another model is in
place. -/
theorem placedIn_of_awaits (settled : Settled system models)
    (cleared : models.EachPaired system fun field _ => field.cleared = field) {fieldName : String}
    {field : Field} {relation : Relation} {target : Model}
    (awaits : Awaits system models name fieldName field relation target) :
    (insertionOf name field relation).PlacedIn name target := by
  obtain ⟨⟨source, found, isField⟩, related, out, targetFound, -⟩ := awaits
  obtain ⟨present, -⟩ := Model.mem_of_field? isField
  have named : target.name = relation.target := Roster.name_of_find? targetFound
  -- The target of the relation has its mate, and that mate is cleared.
  obtain ⟨again, targetAgain, mate, matePresent, mates⟩ :=
    settled.mated name source found field present relation related out
  rw [targetFound, Option.some.injEq] at targetAgain
  subst targetAgain
  rw [← named] at targetFound
  refine (Model.placedIn_iff_of_mates (settled.tidy _ _ targetFound).distinct matePresent
    mates related fun other listed inverts => settled.eq_of_inverts found present
      targetFound matePresent mates listed inverts).mpr ?_
  obtain ⟨back, backRelated, returns⟩ := Field.targets_iff.mp mates.symm.targets
  refine cleared _ target targetFound mate matePresent back backRelated
    (returns ▸ settled.inCatalog name source found) (Bool.eq_false_iff.mpr fun inverts => ?_)
  -- The mate leads back to another model than its own.
  obtain ⟨again, relatedAgain, self, -⟩ := Field.invertsTo_iff.mp inverts
  rw [backRelated, Option.some.injEq] at relatedAgain
  subst relatedAgain
  exact out.1 (named.symm.trans (self.symm.trans returns))

/-- Where every mate is cleared, settled models are resolved to themselves. -/
theorem eq_of_resolve (settled : Settled system models)
    (cleared : models.EachPaired system fun field _ => field.cleared = field)
    (found : models.find? name = some model) {resolved : Model}
    (done : Context.resolve ⟨system, models⟩ (some model) model = .ok resolved) :
    resolved = model := by
  rw [settled.resolve_eq found, Except.ok.injEq] at done
  rw [← done]
  have own : model.name = name := Roster.name_of_find? found
  subst own
  -- Only self-relations could be cleared by resolution, and they are.
  refine Model.clearedAt_eq_self_iff.mpr fun field present listed => ?_
  obtain ⟨targets, foreign⟩ := ((settled.selves _ _ found).mem_pairedNames
    (settled.tidy _ _ found).distinct present).mp listed
  obtain ⟨relation, related, leads⟩ := Field.targets_iff.mp targets
  exact cleared _ model found field present relation related
    (leads ▸ settled.inCatalog _ model found) foreign

/-- Settled models are at rest exactly when every mate is cleared. -/
theorem atRest_iff (settled : Settled system models) :
    AtRest system models ↔
      models.EachPaired system fun field _ => field.cleared = field := by
  refine ⟨settled.eachPaired_of_atRest, fun cleared => ?_⟩
  refine ⟨settled.equal, fun name model found field present => ?_,
    fun name model found resolved done => settled.eq_of_resolve cleared found done,
    fun name fieldName field relation target awaits => settled.placedIn_of_awaits cleared awaits⟩
  -- A relation leads to the model that its mate belongs to.
  refine leadsSomewhere_of_stored fun relation related out => ?_
  obtain ⟨target, targetFound, -⟩ :=
    settled.mated name model found field present relation related out
  exact ⟨target, targetFound⟩

end Settled

end ModelCatalog
