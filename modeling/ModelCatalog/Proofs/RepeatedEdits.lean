import ModelCatalog.Proofs.CounterpartPlacement
import ModelCatalog.Proofs.GraphWrite

/-! Edits applied over and over: a planned edit does all it has to do the first time, whatever the
definition that it is applied to. -/

namespace ModelCatalog

namespace TargetEdit

variable {edit : TargetEdit} {source : String} {target : Model}

/-- Removals bring in no default. -/
theorem comparable_applyRemovals (comparable : target.Comparable) (removals : List Removal) :
    (applyRemovals source target removals).Comparable := by
  -- What is left was a field before.
  intro field present
  rw [fields_applyRemovals, List.mem_filter] at present
  exact comparable field present.1

/-- Insertions bring in no default, since counterparts have none. -/
theorem comparable_applyInsertions {insertions : List Insertion}
    (plain : ∀ insertion ∈ insertions, insertion.counterpart.default = none)
    (comparable : target.Comparable) :
    (applyInsertions source target insertions).1.Comparable := by
  -- The induction is on the insertions, over the target as those before have left it.
  induction insertions generalizing target with
  | nil => exact comparable
  | cons first rest ih =>
    have own := (Field.finite_of_plain (plain first List.mem_cons_self)).comparable
    exact ih (fun insertion later => plain insertion (List.mem_cons_of_mem _ later))
      (comparable.upsertCounterpart own)

namespace Orderly

/-- An edit in order brings in no default. -/
theorem comparable_apply (orderly : edit.Orderly source) (comparable : target.Comparable) :
    (edit.apply source target).1.Comparable :=
  -- Counterparts have no default, and removals go first.
  comparable_applyInsertions (fun insertion listed => (orderly.faces insertion listed).plain)
    (comparable_applyRemovals comparable edit.removals)

/-- An edit in order reports no change exactly where there was nothing left to do. -/
theorem unchanged_iff (orderly : edit.Orderly source) (comparable : target.Comparable) :
    (edit.apply source target).2 = false ↔ edit.SettledIn source target := by
  constructor
  · intro unchanged
    -- What it leaves is settled, and that is the target itself.
    have settled := orderly.settledIn_apply target
    rwa [orderly.eq_of_unchanged unchanged] at settled
  · -- Counterparts in place are upserted to what they are, and there is nothing to remove.
    intro settled
    rw [settled.apply_eq (Field.sameList_self_of_comparable comparable)]

/-- An edit in order leaves alone what it has made of a target. -/
theorem apply_twice (orderly : edit.Orderly source) (comparable : target.Comparable) :
    edit.apply source (edit.apply source target).1 = ((edit.apply source target).1, false) :=
  -- The first application settles the edit, and a settled edit does nothing.
  (orderly.settledIn_apply target).apply_eq
    (Field.sameList_self_of_comparable (orderly.comparable_apply comparable))

end Orderly

end TargetEdit

namespace WritePlan

/-- Applying an edit of a plan a second time changes nothing and reports no change, whatever the
definition that it was first applied to, if the defaults of that one are numbers. After the first
time every counterpart of the edit is in place and everything it removes is gone; a change is
reported the first time unless that was so before. -/
theorem apply_twice_of_planWrite {context : Context} {old : Option Record} {model : Model}
    {plan : WritePlan} (planned : context.planWrite old model = .ok plan) {edit : TargetEdit}
    (listed : edit ∈ plan.edits) {target : Model} (comparable : target.Comparable) :
    let once := edit.apply plan.model target
    edit.apply plan.model once.1 = (once.1, false) ∧
      edit.SettledIn plan.model once.1 ∧
      (once.2 = false ↔ edit.SettledIn plan.model target) := by
  intro once
  -- The edits of a plan are in order, and the rest holds of every such edit.
  have sound := sound_of_planWrite planned
  have orderly := sound.named ▸ sound.orderly_edit listed
  exact ⟨orderly.apply_twice comparable, orderly.settledIn_apply target,
    orderly.unchanged_iff comparable⟩

/-- Posts as they were stored: they have an author and an editor. -/
def editedPost : Record := .first ⟨"Post", [
  .ofRelation "author" { Relation.to .manyToOne "Writer" with inverseName := some "posts" },
  .ofRelation "editor" { Relation.to .manyToOne "Writer" with inverseName := some "edits" }]⟩ 0

/-- Posts whose author lists them under another name, and which are reviewed instead of edited. -/
def reviewedPost : Model where
  name := "Post"
  fields := [
    .ofRelation "author" { Relation.to .manyToOne "Writer" with inverseName := some "articles" },
    .ofRelation "reviewer" { Relation.to .manyToOne "Writer" with inverseName := some "reviews" }]

/-- What is known of posts and writers. -/
def reviewing : Context where
  system := .standard
  known := Roster.ofList [editedPost.definition, { name := "Writer", fields := [
    .ofRelation "posts" { Relation.to .oneToMany "Post" with inverseName := some "author" },
    .ofRelation "edits" { Relation.to .oneToMany "Post" with inverseName := some "editor" }] }]

/-- A writer as nobody knew it when the plan was made: the author is inverted to twice, and names
that the plan has use for are taken by other fields. -/
def rewrittenWriter : Model where
  name := "Writer"
  fields := [
    (Field.ofScalar "score" .float).withDefault (.float (.infinity true)),
    .ofRelation "reviews" { Relation.to .manyToMany "Post" with inverseName := some "author" },
    .ofRelation "edits" (.to .oneToMany "Post"),
    .ofRelation "posts" { Relation.to .oneToMany "Post" with inverseName := some "author" },
    .ofRelation "articles" (.to .oneToMany "Tag")]

/-- Of the two fields that invert to the author the edit turns one into its counterpart and takes
the other away, as it does with the one of the editor; the counterpart of the reviewer comes last.
The second time there is nothing left to do. -/
theorem apply_twice_rewritten :
    ∃ plan edit, reviewing.planWrite (some editedPost) reviewedPost = .ok plan ∧
      edit ∈ plan.edits ∧ rewrittenWriter.Comparable ∧
      let once := edit.apply plan.model rewrittenWriter
      once.1.fields.map Field.name = ["score", "articles", "articles", "reviews"] ∧
        once.2 = true ∧ ¬edit.SettledIn plan.model rewrittenWriter ∧
        edit.apply plan.model once.1 = (once.1, false) := by
  have comparable : rewrittenWriter.Comparable := by
    intro field present
    -- All other fields are without a default.
    have plain : ∀ other ∈ rewrittenWriter.fields.tail, other.default = none := by decide
    rcases List.mem_cons.mp present with rfl | later
    · -- The first field has the one default, which is infinite.
      rintro _ ⟨⟩
      decide
    · exact (Field.finite_of_plain (plain field later)).comparable
  -- The plan has one edit, which is read off together with what it makes of the writer.
  have summary : (reviewing.planWrite (some editedPost) reviewedPost).map (fun plan =>
      plan.edits.map fun edit =>
        let once := edit.apply plan.model rewrittenWriter
        (once.1.fields.map Field.name, once.2)) =
      .ok [(["score", "articles", "articles", "reviews"], true)] := by
    decide +kernel
  obtain ⟨plan, planned, same⟩ := Outcome.map_eq_ok.mp summary
  obtain ⟨edit, only, result⟩ := List.map_eq_singleton_iff.mp same
  obtain ⟨names, changed⟩ := Prod.mk.inj result
  have listed : edit ∈ plan.edits := only ▸ List.mem_singleton_self edit
  obtain ⟨again, -, unchanged⟩ := apply_twice_of_planWrite planned listed comparable
  -- A change was reported, so the writer was not settled before.
  refine ⟨plan, edit, planned, listed, comparable, names, changed, ?_, again⟩
  rw [← unchanged, changed]
  decide

end WritePlan

end ModelCatalog
