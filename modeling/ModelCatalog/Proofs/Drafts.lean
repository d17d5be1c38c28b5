import ModelCatalog.Proofs.SelfPairing
import ModelCatalog.Proofs.Roster
import ModelCatalog.Proofs.TargetEdit

/-! The edits a write drafts for its targets: what is in them, and that they are in order. -/

namespace ModelCatalog.WritePlan

variable {context other : Context} {source : Model} {removed : List Field} {target : String}

/-- The insertion for the counterpart of a relation. -/
def insertionOf (source : String) (field : Field) (relation : Relation) : Insertion :=
  ⟨field.name, Field.ofRelation (field.counterpartName source)
    (relation.facing source field.name)⟩

/-- Whether a relation leads from a model to another one of the catalog. -/
def leadsOut (system : SystemModels) (source : String) (relation : Relation) : Prop :=
  relation.target ≠ source ∧ system.contains relation.target = false

/-- Every relation to another model of the catalog gets a counterpart there. -/
theorem mem_insertions {insertion : Insertion} :
    (target, insertion) ∈ insertions context source ↔
      ∃ field ∈ source.fields, ∃ relation, field.relation? = some relation ∧
        leadsOut context.system source.name relation ∧ relation.target = target ∧
        insertion = insertionOf source.name field relation := by
  -- Field by field, the guards of the list are the conditions of the statement: a field without a
  -- relation and a relation that stays inside give nothing on either side.
  simp only [insertions, List.mem_filterMap]
  refine exists_congr fun field => and_congr_right fun _ => ?_
  cases related : field.relation? with
  | none => simp
  | some relation =>
    have counterpart := Field.counterpart?_eq field source.name
    rw [related, Option.map_some] at counterpart
    by_cases own : relation.target = source.name
    · simp [own, leadsOut]
    · cases held : context.system.contains relation.target with
      | true => simp [held, leadsOut]
      | false =>
        simp only [Option.bind_eq_bind, Option.bind_some, own, held, decide_false, Bool.or_self,
          Bool.false_eq_true, reduceIte, counterpart, Option.some.injEq, Prod.mk.injEq, leadsOut,
          exists_eq_left', ne_eq, not_false_eq_true, true_and, insertionOf]
        constructor
        · rintro ⟨same, rfl⟩
          exact ⟨same, rfl⟩
        · rintro ⟨same, rfl⟩
          exact ⟨same, rfl⟩

/-- Every relation that is gone takes its counterpart from a known model of the catalog along. -/
theorem mem_removals {name : String} {removal : Removal} :
    (target, removal) ∈ removals context name removed ↔
      ∃ field ∈ removed, ∃ relation, field.relation? = some relation ∧
        leadsOut context.system name relation ∧ context.known.contains relation.target = true ∧
        relation.target = target ∧ removal = ⟨field.name, field.counterpartName name⟩ := by
  -- The same reading field by field, with the known models as one more guard.
  simp only [removals, List.mem_filterMap]
  refine exists_congr fun field => and_congr_right fun _ => ?_
  cases related : field.relation? with
  | none => simp
  | some relation =>
    by_cases own : relation.target = name
    · simp [own, leadsOut]
    · cases held : context.system.contains relation.target with
      | true => simp [held, leadsOut]
      | false =>
        cases known : context.known.contains relation.target with
        | false => simp [own, held, known, leadsOut]
        | true =>
          simp [own, held, known, leadsOut]
          -- What is left is the two names in another order.
          exact fun _ => eq_comm

/-- The insertions depend on the system models alone. -/
theorem insertions_congr (system : context.system = other.system) :
    insertions context source = insertions other source := by
  -- Nothing else of the context is looked at.
  simp only [insertions, system]

/-- The removals depend on the system models and on which of the models are known that the
relations lead to. -/
theorem removals_congr {name : String} (system : context.system = other.system)
    (known : ∀ field ∈ removed, ∀ relation, field.relation? = some relation →
      leadsOut context.system name relation →
        context.known.contains relation.target = other.known.contains relation.target) :
    removals context name removed = removals other name removed := by
  unfold removals
  -- A known model is asked for only where the other two guards let the relation through.
  refine List.filterMap_congr fun field listed => ?_
  cases related : field.relation? with
  | none => rfl
  | some relation =>
    by_cases own : relation.target = name
    · simp [own]
    · cases held : other.system.contains relation.target with
      | true => simp [system, held]
      | false => simp [system, held, known field listed relation related ⟨own, system ▸ held⟩]

/-- The drafts depend on the system models and on which of the models are known that the relations
lead to that are gone. -/
theorem drafts_congr (system : context.system = other.system)
    (known : ∀ field ∈ removed, ∀ relation, field.relation? = some relation →
      leadsOut context.system source.name relation →
        context.known.contains relation.target = other.known.contains relation.target) :
    drafts context source removed = drafts other source removed := by
  unfold drafts
  -- A draft is made of insertions and removals, which agree apart.
  rw [insertions_congr system, removals_congr system known]

/-- The claims of a model are those of its insertions. -/
theorem claims_eq (context : Context) (source : Model) :
    Resolution.claims context.system source = (insertions context source).map fun pair =>
      ⟨pair.1, pair.2.counterpart.name, pair.2.field⟩ := by
  -- Both lists run over the fields of the source and pick the same ones, so they agree field by
  -- field.
  simp only [Resolution.claims, Model.relations, insertions, List.filterMap_filterMap,
    List.map_filterMap]
  refine List.filterMap_congr fun field _ => ?_
  cases related : field.relation? with
  | none => simp
  | some relation =>
    have counterpart := Field.counterpart?_eq field source.name
    rw [related, Option.map_some] at counterpart
    by_cases own : relation.target = source.name
    · simp [own]
    · cases held : context.system.contains relation.target <;>
        simp [own, held, counterpart, Field.ofRelation, Field.ofKind]

/-- Insertions on one target are apart. -/
theorem pairwise_insertions (distinct : (source.fields.map Field.name).Nodup)
    (claims : (Resolution.claims context.system source).Pairwise fun one other =>
      ¬(one.target = other.target ∧ one.name = other.name)) :
    (insertions context source).Pairwise fun one other =>
      one.1 = other.1 → one.2.Apart other.2 := by
  -- The fields have different names, and the counterparts on one target do.
  have named : (insertions context source).Pairwise fun one other =>
      one.2.field ≠ other.2.field := by
    have field_of : ∀ (field : Field) (pair : String × Insertion),
        (do
          let relation ← field.relation?
          if relation.target = source.name || context.system.contains relation.target then none
          else some (relation.target, ⟨field.name, ← field.counterpart? source.name⟩)) =
          some pair → pair.2.field = field.name := by
      intro field pair made
      cases related : field.relation? with
      | none => simp [related] at made
      | some relation =>
        simp only [related, Option.bind_eq_bind, Option.bind_some] at made
        split at made
        · cases made
        · obtain ⟨counterpart, -, same⟩ := Option.bind_eq_some_iff.mp made
          cases same
          rfl
    -- A pair remembers the field it was made from, so distinct names of fields stay distinct.
    refine List.Pairwise.filterMap _ ?_ (List.pairwise_map.mp distinct)
    intro one other differ first firstMade second secondMade
    rw [field_of one first firstMade, field_of other second secondMade]
    exact differ
  -- On one target the claims are different, and a claim is a target with a name.
  rw [claims_eq context source, List.pairwise_map] at claims
  refine (named.and claims).imp ?_
  rintro one other ⟨fields, apart⟩ same
  exact ⟨fields, fun counterparts => apart ⟨same, counterparts⟩⟩

/-! ## Drafts -/

/-- The draft of the edit to one target. -/
def draft (context : Context) (source : Model) (removed : List Field) (target : String) :
    TargetEdit where
  target := target
  removals := (removals context source.name removed).filterMap fun pair =>
    if pair.1 = target then some pair.2 else none
  insertions := (insertions context source).filterMap fun pair =>
    if pair.1 = target then some pair.2 else none
  columns := []

/-- The targets of a write, in order. -/
def targets (context : Context) (source : Model) (removed : List Field) : NameSet :=
  Roster.ofList ((removals context source.name removed).map Prod.fst ++
    (insertions context source).map Prod.fst)

/-- There is one draft for each target, in order. -/
theorem drafts_eq (context : Context) (source : Model) (removed : List Field) :
    drafts context source removed =
      (targets context source removed).members.map (draft context source removed) := rfl

/-- What is picked for one target is what was listed for it. -/
theorem mem_filterMap_target {α : Type} {pairs : List (String × α)} {value : α} :
    value ∈ (pairs.filterMap fun pair => if pair.1 = target then some pair.2 else none) ↔
      (target, value) ∈ pairs := by
  -- The pairs of the target are kept and their second halves taken.
  simp only [List.mem_filterMap]
  constructor
  · rintro ⟨⟨name, made⟩, listed, same⟩
    split at same
    · rename_i here
      cases same
      exact here ▸ listed
    · cases same
  · exact fun listed => ⟨_, listed, by simp⟩

/-- The insertions of a draft are those on its target. -/
theorem mem_insertions_draft {insertion : Insertion} :
    insertion ∈ (draft context source removed target).insertions ↔
      (target, insertion) ∈ insertions context source :=
  mem_filterMap_target

/-- The removals of a draft are those on its target. -/
theorem mem_removals_draft {removal : Removal} :
    removal ∈ (draft context source removed target).removals ↔
      (target, removal) ∈ removals context source.name removed :=
  mem_filterMap_target

/-- A model is a target when something is removed from it or inserted into it. -/
theorem mem_targets :
    target ∈ (targets context source removed).members ↔
      (∃ removal, (target, removal) ∈ removals context source.name removed) ∨
        ∃ insertion, (target, insertion) ∈ insertions context source := by
  -- Each target was added once, for a removal or for an insertion.
  rw [Roster.mem_members_iff, targets, Roster.contains_ofList]
  simp

/-- Each target has one draft. -/
theorem nodup_targets_drafts (context : Context) (source : Model) (removed : List Field) :
    ((drafts context source removed).map TargetEdit.target).Nodup := by
  -- The drafts carry the names of a roster, and a roster has no name twice.
  have names : (drafts context source removed).map TargetEdit.target =
      (targets context source removed).members.map (Named.name : String → String) := by
    rw [drafts_eq, List.map_map]
    rfl
  rw [names]
  exact Roster.names_nodup _

/-- A counterpart that is put in place faces its source. -/
theorem faces_insertionOf (source : String) (field : Field) (relation : Relation) :
    (insertionOf source field relation).Faces source where
  inverts := Field.invertsTo_iff.mpr ⟨_, Field.relation?_ofRelation _ _, rfl, rfl⟩
  plain := rfl

/-- A draft is in order when the relations that are gone are not among those of the source. -/
theorem orderly_draft (distinct : (source.fields.map Field.name).Nodup)
    (claims : (Resolution.claims context.system source).Pairwise fun one other =>
      ¬(one.target = other.target ∧ one.name = other.name))
    (gone : ∀ field ∈ removed, ∀ again ∈ source.fields,
      RelationChange.isSame field again = false) (target : String) :
    (draft context source removed target).Orderly source.name where
  faces := by
    intro insertion listed
    -- Each insertion was made from a relation of the source, which its counterpart faces.
    obtain ⟨field, -, relation, -, -, -, rfl⟩ := mem_insertions.mp (mem_insertions_draft.mp listed)
    exact faces_insertionOf _ _ _
  apart := by
    -- Both insertions were picked for this target, so they are among those that are apart.
    refine List.Pairwise.filterMap _ ?_ (pairwise_insertions distinct claims)
    intro one other apart first firstMade second secondMade
    split at firstMade
    · split at secondMade
      · rename_i here there
        cases firstMade
        cases secondMade
        exact apart (here.trans there.symm)
      · cases secondMade
    · cases firstMade
  disjoint := by
    intro removal removedHere insertion insertedHere same
    -- A removal and an insertion of one name on one target would come from relations that are the
    -- same, and none of those that are gone is.
    obtain ⟨field, listed, relation, related, -, -, target, rfl⟩ :=
      mem_removals.mp (mem_removals_draft.mp removedHere)
    obtain ⟨again, present, other, otherRelated, -, otherTarget, rfl⟩ :=
      mem_insertions.mp (mem_insertions_draft.mp insertedHere)
    have apart := gone field listed again present
    have named : field.name = again.name := same
    simp [RelationChange.isSame, related, otherRelated, named, target, otherTarget] at apart

/-- A draft leads from its source to another model of the catalog. -/
theorem of_mem_drafts {edit : TargetEdit} (listed : edit ∈ drafts context source removed) :
    edit = draft context source removed edit.target ∧ edit.target ≠ source.name ∧
      context.system.contains edit.target = false := by
  rw [drafts_eq] at listed
  obtain ⟨target, isTarget, rfl⟩ := List.mem_map.mp listed
  -- Whichever of the two made it a target came from a relation that leads out.
  refine ⟨rfl, ?_⟩
  rcases mem_targets.mp isTarget with ⟨removal, member⟩ | ⟨insertion, member⟩
  · obtain ⟨_, -, relation, -, out, -, rfl, -⟩ := mem_removals.mp member
    exact out
  · obtain ⟨_, -, relation, -, out, rfl, -⟩ := mem_insertions.mp member
    exact out

end ModelCatalog.WritePlan
