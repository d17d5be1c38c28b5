import ModelCatalog.Proofs.Idempotence
import ModelCatalog.Proofs.Room

/-! Valid definitions under repair: a repair that applies all models again leaves them valid, and
one that does not may break the rules that no step of it looks at, where there is no room for what
it puts in place. -/

namespace ModelCatalog.RepairPlan

variable {system : SystemModels} {records : List Record} {reapplying : Bool} {plan : RepairPlan}

/-- The stored definitions once the updates of a plan have been written. -/
def outcome (plan : RepairPlan) (records : List Record) (now : Nat) : Models :=
  scanned (records.map (plan.appliedTo now))

/-- Of definitions that are valid before a repair, those it leaves are all valid when it applies all
models again, and exactly then it can. Whether it does or not, what it leaves of a definition is
valid when it is orderly, as one is that it does not write; and all of them are valid where there is
room for the counterparts of all relations. -/
theorem valid_after (distinct : (records.map Record.name).Nodup)
    (valid : (scanned records).Valid system)
    (planned : ofRecords system records reapplying = .ok plan) (now : Nat) :
    (reapplying = true → (plan.outcome records now).Valid system) ∧
      ((plan.outcome records now).Valid system ↔
        ∃ again, ofRecords system records true = .ok again) ∧
      (∀ model ∈ (plan.outcome records now).members,
        (model.validate system (plan.outcome records now) = .ok () ↔ model.Orderly)) ∧
      (∀ record ∈ records, plan.appliedTo now record = record →
        record.definition.validate system (plan.outcome records now) = .ok ()) ∧
      ((scanned records).Roomy → (plan.outcome records now).Valid system) := by
  -- The outcome of the plan is what the repair has made of the definitions.
  have final : plan.outcome records now = (repaired system records).models :=
    scanned_appliedTo distinct planned now
  rw [final]
  -- After a repair of valid definitions, validity is a matter of each definition.
  have orderly : ∀ model ∈ (repaired system records).models.members,
      (model.validate system (repaired system records).models = .ok () ↔ model.Orderly) :=
    fun model listed => valid.validate_repair_iff listed
  refine ⟨?_, exists_ofRecords_iff.symm, orderly, fun record listed same => ?_,
    fun roomy model listed => (orderly model listed).mpr (roomy.orderly_repair valid listed)⟩
  · -- A repair that applies all models again has compiled every one of them.
    rintro rfl
    exact exists_ofRecords_iff.mp ⟨plan, planned⟩
  · -- A definition that is not written is as orderly as it was.
    have found := definition_appliedTo distinct planned now listed
    rw [same] at found
    have stored : record.definition ∈ (scanned records).members :=
      Roster.mem_of_find? (find?_scanned_of_mem distinct listed)
    exact (orderly _ (Roster.mem_of_find? found)).mpr
      (Model.orderly_of_validate (valid _ stored))

/-- Books of authors that do not know them, and of sequels that do not know what they follow. -/
def shelf : List Record :=
  [stored "Author" [.ofScalar "name" .text, .ofRelation "books"
      { Relation.to .oneToMany "Book" with inverseName := some "author" }],
    stored "Book" [.ofScalar "title" .text, .ofRelation "sequel"
      { Relation.to .oneToOne "Book" with inverseName := some "prequel" }]]

/-- There is room on the shelf, and so it stays valid, whether all models are applied again or
not. -/
theorem valid_after_shelf :
    (shelf.map Record.name).Nodup ∧ (scanned shelf).Valid .standard ∧ (scanned shelf).Roomy ∧
      (∃ plan, ofRecords .standard shelf false = .ok plan ∧
        plan.updates.map (fun update => update.1.fields.map Field.name) =
          [["title", "sequel", "prequel", "author"]] ∧ (plan.outcome shelf 0).Valid .standard) ∧
      ∃ plan, ofRecords .standard shelf true = .ok plan ∧
        (plan.outcome shelf 0).Valid .standard := by
  -- The three conditions are decided.
  have distinct : (shelf.map Record.name).Nodup := by decide
  have valid : (scanned shelf).Valid .standard := by decide +kernel
  have roomy : (scanned shelf).Roomy := by decide +kernel
  -- The plan is evaluated for what it updates, and validity comes from the room.
  obtain ⟨plan, planned, updates⟩ := Outcome.map_eq_ok.mp
    (show (ofRecords .standard shelf false).map (fun plan =>
      plan.updates.map fun update => update.1.fields.map Field.name) =
        .ok [["title", "sequel", "prequel", "author"]] by decide +kernel)
  -- Where there is room the outcome is valid, and so the models can all be applied again.
  obtain ⟨-, applied, -, -, room⟩ := valid_after distinct valid planned 0
  obtain ⟨again, plannedAgain⟩ := applied.mp (room roomy)
  exact ⟨distinct, valid, roomy, ⟨plan, planned, updates, room roomy⟩, again, plannedAgain,
    (valid_after distinct valid plannedAgain 0).1 rfl⟩

/-- Books of authors that do not know them, but have a column of the name that theirs would have. -/
def catalogued : List Record :=
  [stored "Author" [.ofRelation "books"
      { Relation.to .oneToMany "Book" with inverseName := some "author" }],
    stored "Book" [.ofScalar "author_id" .integer]]

/-- The books as a repair leaves them. -/
def misfiled : Model where
  name := "Book"
  fields := [.ofScalar "author_id" .integer, .ofRelation "author"
    { Relation.to .manyToOne "Author" with inverseName := some "books" }]

/-- A repair gives the books their authors, whose column is taken: they were valid before, and after
it they are not, so that no repair that applies all models again can be planned any more. -/
theorem not_valid_after_catalogued :
    (catalogued.map Record.name).Nodup ∧ (scanned catalogued).Valid .standard ∧
      ∃ plan, ofRecords .standard catalogued false = .ok plan ∧ plan.updates = [(misfiled, 1)] ∧
        misfiled ∈ (plan.outcome catalogued 0).members ∧
        misfiled.validate .standard (plan.outcome catalogued 0) =
          .error (.invalidDefinition "Book" (some "author") (.sharedColumn "author_id")) ∧
        (ofRecords .standard (catalogued.map (plan.appliedTo 0)) true).map RepairPlan.updates =
          .error (.invalidDefinition "Book" (some "author") (.sharedColumn "author_id")) := by
  -- The plan is evaluated for its one update.
  obtain ⟨plan, planned, updates⟩ := Outcome.map_eq_ok.mp
    (show (ofRecords .standard catalogued false).map RepairPlan.updates = .ok [(misfiled, 1)] by
      decide +kernel)
  -- The plan writes the books, and leaves the authors as they are.
  have written : catalogued.map (plan.appliedTo 0) =
      [stored "Author" [.ofRelation "books"
        { Relation.to .oneToMany "Book" with inverseName := some "author" }],
        Record.next (stored "Book" []) misfiled 0] := by
    simp only [catalogued, List.map_cons, List.map_nil, appliedTo, updates]
    rfl
  refine ⟨by decide, by decide +kernel, plan, planned, updates, ?_, ?_, ?_⟩
  · -- The plan leaves the misfiled books, whose check fails at the shared column.
    rw [outcome, written]
    decide +kernel
  · rw [outcome, written]
    decide +kernel
  · rw [written]
    decide +kernel

end ModelCatalog.RepairPlan
