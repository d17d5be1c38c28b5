import ModelCatalog.Proofs.Recovery

/-! Relations after recovery: what a reconciliation makes of the relations between models when a
change was refused on its way. -/

namespace ModelCatalog

/-- In a recovered graph one field of the target inverts to a field that has a mate there. -/
theorem Recovered.filter_eq_singleton {system : SystemModels}
    {excused : String → String → String → Prop} {known : Models}
    (recovered : Recovered system excused known) {name target : String} {model other : Model}
    (found : known.find? name = some model) (otherFound : known.find? target = some other)
    (apart : name ≠ target) {field mate : Field} (matePresent : mate ∈ other.fields)
    (mates : field.Mates name target mate) :
    other.fields.filter (fun again => again.invertsTo name field.name) = [mate] := by
  refine Model.filter_eq_singleton (recovered.mendable.tidy _ _ otherFound).distinct matePresent
    mates.symm.invertsTo fun again listed inverts => ?_
  -- Both fields invert to the one, so they lead to its model and bear one inverse name.
  obtain ⟨back, backRelated, leads, named⟩ := Field.invertsTo_iff.mp mates.symm.invertsTo
  obtain ⟨held, related, leadsAgain, namedAgain⟩ := Field.invertsTo_iff.mp inverts
  -- The target has no two relations to the model with one inverse name.
  have own : other.name = target := Roster.name_of_find? otherFound
  refine recovered.mendable.unambiguous _ _ otherFound mate matePresent again listed back held
    backRelated related ⟨?_, ?_⟩ (leadsAgain.trans leads.symm) (namedAgain.trans named.symm)
  · rw [leads, own]
    exact apart
  · rw [leads]
    exact recovered.mendable.inCatalog name model found

namespace Reachable

variable {configuration : Configuration} {database stopped resumed repaired : Database}
  {executor accepting : Executor} {request : Change} {error : Error} {reapplying : Bool}
  {report : RepairReport}

/-- A reconciliation that succeeds after a refused change leaves a graph that is recovered, but for
claims on the subject of the change that the version kept of it blocks. -/
theorem exists_recovered
    (reached : Reachable configuration (configuration.system.contains · = false) database)
    (failed : request.run (registryWith executor configuration) database =
      (.error error, stopped))
    (rejected : error.IsRejection) (same : resumed.store = stopped.store)
    (done : (registryWith accepting configuration).reconcile reapplying resumed =
      (.ok report, repaired)) :
    ∃ catalog final : Catalog, database.store = catalog.store ∧ repaired.store = final.store ∧
      Recovered configuration.system
        (Blocked request.subject (catalog.definition? request.subject)) final.models := by
  obtain ⟨catalog, holds, -, symmetric⟩ := reached.exists_symmetric
  -- What the reconciliation makes of a catalog it finds.
  have repairs : ∀ left : Catalog, stopped.store = left.store →
      repaired.store = (left.reconciled configuration.system resumed.now).store := by
    intro left holdsLeft
    -- Only a reconciliation that succeeds is of interest, and that leaves the repaired catalog.
    rcases Registry.reconcile_cases accepting configuration (same.trans holdsLeft) reapplying with
      ⟨other, final, refused, -⟩ | ⟨other, final, ran, -, stored⟩
    · rw [refused] at done
      cases done
    · rw [ran] at done
      cases done
      exact stored
  rcases Change.of_rejected holds failed rejected with
    -- A change that left everything as it was left a symmetric graph.
    kept | ⟨plan, edits, own, sound, listed, left⟩
  · exact ⟨catalog, _, holds, repairs catalog kept, Catalog.recovered_of_symmetric symmetric _⟩
  · -- A write that stopped left the graph torn, which is what the repair of a torn graph is about.
    refine ⟨catalog, _, holds, repairs _ left, ?_⟩
    rw [← own]
    exact Catalog.recovered_propagated sound symmetric rfl listed _ _

/-- After a refused change and a reconciliation that succeeds, every relation to a model of the
catalog leads to one that is stored, and exactly one field of another model stands for its other
side, with the inverse kind; unless that model is the one whose change was refused, and the version
that was kept of it has a field of the inverse name that leads elsewhere. -/
theorem relation_recovered
    (reached : Reachable configuration (configuration.system.contains · = false) database)
    (failed : request.run (registryWith executor configuration) database =
      (.error error, stopped))
    (rejected : error.IsRejection) (same : resumed.store = stopped.store)
    (done : (registryWith accepting configuration).reconcile reapplying resumed =
      (.ok report, repaired))
    {name : String} {record : Record} (stored : repaired.store.get name = .ok (some record))
    {field : Field} (present : field ∈ record.definition.fields) {relation : Relation}
    (related : field.relation? = some relation) :
    (configuration.system.contains relation.target = false →
      ∃ other, repaired.store.get relation.target = .ok (some other)) ∧
    ∀ other, repaired.store.get relation.target = .ok (some other) → relation.target ≠ name →
      (∃ mate back,
        other.definition.fields.filter (fun again => again.invertsTo name field.name) = [mate] ∧
        mate.relation? = some back ∧ back.kind = relation.kind.inverse) ∨
      relation.target = request.subject ∧
        ∃ kept, database.store.get request.subject = .ok (some kept) ∧
          ∃ bar ∈ kept.definition.fields, relation.inverseName = some bar.name ∧
            bar.targets name = false := by
  obtain ⟨catalog, final, holds, holdsFinal, recovered⟩ :=
    exists_recovered reached failed rejected same done
  simp only [holdsFinal, holds, Catalog.get_store, Except.ok.injEq] at stored ⊢
  have known : ∀ other kept, final.find? other = some kept →
      final.models.find? other = some kept.definition := by
    intro other kept found
    rw [Catalog.find?_models, Catalog.definition?_of_find? found]
  have modelKnown := known name record stored
  refine ⟨fun inCatalog => ?_, fun other otherStored apart => ?_⟩
  · by_cases own : relation.target = name
    · exact ⟨record, own ▸ stored⟩
    · -- The target of a relation that leads out is stored, because the graph is fit to be mended.
      obtain ⟨target, targetKnown⟩ := recovered.mendable.stored name _ modelKnown field present
        relation related ⟨own, inCatalog⟩
      rw [Catalog.find?_models] at targetKnown
      obtain ⟨other, found, -⟩ := Option.map_eq_some_iff.mp targetKnown
      exact ⟨other, found⟩
  · have otherKnown := known _ other otherStored
    have inCatalog := recovered.mendable.inCatalog _ _ otherKnown
    rcases recovered.mated name _ modelKnown field present relation related ⟨apart, inCatalog⟩ with
      ⟨target, targetKnown, mate, matePresent, mates⟩ |
        ⟨own, kept, isKept, bar, inKept, named, away⟩
    · -- The relation has a mate there, and no other field inverts to it.
      rw [otherKnown, Option.some.injEq] at targetKnown
      subst targetKnown
      have ownName : other.definition.name = relation.target := Roster.name_of_find? otherKnown
      rw [ownName] at mates
      refine Or.inl ⟨mate, ?_⟩
      obtain ⟨held, back, heldRelation, backRelation, -, -, -, -, kind, -⟩ := mates.sides
      rw [related, Option.some.injEq] at heldRelation
      subst heldRelation
      exact ⟨back, recovered.filter_eq_singleton modelKnown otherKnown (Ne.symm apart) matePresent
        mates, backRelation, kind⟩
    · -- What bars the counterpart is a field of the version that was kept.
      obtain ⟨keptRecord, keptStored, rfl⟩ := Option.map_eq_some_iff.mp isKept
      refine Or.inr ⟨own, keptRecord, keptStored, bar, inKept, ?_, away⟩
      -- Relations to other models of the catalog have inverse names, so the bar has that one.
      have resolved := ((recovered.mendable.tidy _ _ modelKnown).resolved field present relation
        related).named inCatalog
      obtain ⟨inverse, given⟩ := Option.isSome_iff_exists.mp resolved
      rw [named, Field.counterpartName_of_inverse related given, given]

/-- The state the change leaves, with an executor that refuses nothing any more. -/
def unbarred : Database := withRecorder halted.2 Recorder.clearRules

/-- How the reconciliation of that state ends. -/
def mended : Except Error RepairReport × Database :=
  (registryWith .recording .standard).reconcile false unbarred

/-- The relation of chapters to their book, once their record was edited. -/
def belonging : Relation where
  kind := .manyToOne
  target := "Book"
  inverseName := some "chapters"
  foreignKey := none
  joinTable := none
  onDelete := none

/-- The reconciliation succeeds without anything to repair. -/
theorem reconcile_unbarred : (registryWith .recording .standard).reconcile false unbarred =
    (.ok { RepairReport.untouched 3 with operationsCleared := 1 }, mended.2) := by
  -- How it ends is computed, while the state it leaves keeps its name.
  have ends : mended.1 = .ok { RepairReport.untouched 3 with operationsCleared := 1 } := by
    decide +kernel
  exact Step.eq_of_fst ends

/-- What is stored of the chapters at the end. -/
theorem mended_chapter : mended.2.store.get "Chapter" =
    .ok (some ⟨⟨"Chapter", [.ofRelation "books" belonging]⟩, 2, 0, 0⟩) := by
  decide +kernel

/-- The relation of the chapters to their book is left without its other side. -/
theorem relation_unmated_after_reconcile :
    Reachable .standard (Configuration.standard.system.contains · = false) barred ∧
      (∃ error, relating.run (registryWith .recording .standard) barred =
        (.error error, halted.2) ∧ error.IsRejection) ∧
      unbarred.store = halted.2.store ∧
      (∃ report, (registryWith .recording .standard).reconcile false unbarred =
        (.ok report, mended.2)) ∧
      ∃ record other, mended.2.store.get "Chapter" = .ok (some record) ∧
        mended.2.store.get belonging.target = .ok (some other) ∧
        ∃ field ∈ record.definition.fields, field.relation? = some belonging ∧
          other.definition.fields.filter (fun again => again.invertsTo "Chapter" field.name) =
            [] :=
  ⟨reached_barred, ⟨_, relating_run, trivial⟩, store_withRecorder _ _,
    ⟨_, reconcile_unbarred⟩, _, ⟨⟨"Book", [.ofScalar "chapters" .integer]⟩, 1, 0, 0⟩,
    mended_chapter, by decide +kernel, .ofRelation "books" belonging, List.mem_cons_self, rfl,
    by decide +kernel⟩

/-! ## A reconciliation that puts a counterpart in place

The change now relates books to their authors as well. It fails at the same table, and by then both
the authors and the chapters relate to their book. Nothing of the version that was kept stands in
the way of the authors. -/

/-- A state in which authors, chapters and notes are models, and books have a number of chapters. -/
def withAuthors : Database :=
  ((Call.change (.define "Author" [])).run (registryWith .recording .standard) shelved).2

/-- The change that relates books to their authors, to their chapters and to their notes. -/
def crediting : Change :=
  .define "Book"
    [.ofRelation "authors" (.to .oneToMany "Author"),
      .ofRelation "chapters" (.to .oneToMany "Chapter"),
      .ofRelation "notes" (.to .oneToMany "Note")]

/-- The same state with an executor that refuses to alter the table of notes. -/
def withAuthorsBarred : Database :=
  withRecorder withAuthors fun recorder => recorder.failWhenContains "ALTER TABLE \"Note\""

/-- How the change ends when the table of notes cannot be altered. -/
def uncredited : Except Error Unit × Database :=
  crediting.run (registryWith .recording .standard) withAuthorsBarred

/-- The state the change leaves, with an executor that refuses nothing any more. -/
def withAuthorsUnbarred : Database := withRecorder uncredited.2 Recorder.clearRules

/-- How the reconciliation of that state ends. -/
def credited : Except Error RepairReport × Database :=
  (registryWith .recording .standard).reconcile false withAuthorsUnbarred

/-- The relation of authors to their book, once their record was edited. -/
def writing : Relation := { belonging with inverseName := some "authors" }

/-- The state before the change is one of those reached. -/
theorem reached_withAuthorsBarred :
    Reachable .standard (Configuration.standard.system.contains · = false) withAuthorsBarred := by
  -- The state of the chapters and the notes was reached, and so it is with another executor.
  have shelved : Reachable .standard (Configuration.standard.system.contains · = false) shelved :=
    .beside reached_barred (store_withRecorder shelved _).symm
  have grown : Reachable .standard (Configuration.standard.system.contains · = false) withAuthors :=
    of_success shelved .recording (.change (.define "Author" []))
      (show Configuration.standard.system.contains "Author" = false by decide +kernel)
      (by decide +kernel)
  exact .beside grown (store_withRecorder _ _)

/-- The change fails at the table of notes. -/
theorem crediting_run : crediting.run (registryWith .recording .standard) withAuthorsBarred =
    (.error (.partway "Book" 4 5
      (.execution "Book" "Note" .addColumn 0 (.rejected "injected failure" none))),
      uncredited.2) := by
  -- The outcome is worked out, and the state is whatever the run has left.
  have ends : uncredited.1 = .error (.partway "Book" 4 5
      (.execution "Book" "Note" .addColumn 0 (.rejected "injected failure" none))) := by
    decide +kernel
  exact Step.eq_of_fst ends

/-- The reconciliation adds one field, and leaves the authors and the chapters as they were. -/
theorem credited_eq :
    credited.1 = .ok { RepairReport.untouched 4 with
        fieldsAdded := 1, modelsUpdated := 1, operationsCleared := 1 } ∧
      credited.2.store.get "Author" =
        .ok (some ⟨⟨"Author", [.ofRelation "books" writing]⟩, 2, 0, 0⟩) ∧
      credited.2.store.get "Chapter" =
        .ok (some ⟨⟨"Chapter", [.ofRelation "books" belonging]⟩, 2, 0, 0⟩) := by
  -- All three come of one run, which is worked out once.
  decide +kernel

/-- The reconciliation succeeds. -/
theorem reconcile_withAuthorsUnbarred :
    (registryWith .recording .standard).reconcile false withAuthorsUnbarred =
      (.ok { RepairReport.untouched 4 with
        fieldsAdded := 1, modelsUpdated := 1, operationsCleared := 1 }, credited.2) :=
  -- The state it leaves keeps its name.
  Step.eq_of_fst credited_eq.1

/-- Authors and chapters relate to the book whose change was refused. Its record has no field for
either of them, and the reconciliation gives it the one for its authors; the one for its chapters
is blocked by their number. -/
theorem relation_recovered_crediting :
    Reachable .standard (Configuration.standard.system.contains · = false) withAuthorsBarred ∧
      crediting.run (registryWith .recording .standard) withAuthorsBarred =
        (.error (.partway "Book" 4 5
          (.execution "Book" "Note" .addColumn 0 (.rejected "injected failure" none))),
          uncredited.2) ∧
      withAuthorsUnbarred.store = uncredited.2.store ∧
      (registryWith .recording .standard).reconcile false withAuthorsUnbarred =
        (.ok { RepairReport.untouched 4 with
          fieldsAdded := 1, modelsUpdated := 1, operationsCleared := 1 }, credited.2) ∧
      withAuthorsUnbarred.store.get "Book" =
        .ok (some ⟨⟨"Book", [.ofScalar "chapters" .integer]⟩, 1, 0, 0⟩) ∧
      (∃ record, credited.2.store.get "Author" = .ok (some record) ∧
        ∃ field ∈ record.definition.fields, field.relation? = some writing ∧
          ∃ other mate back, credited.2.store.get writing.target = .ok (some other) ∧
            other.definition.fields.filter
              (fun again => again.invertsTo "Author" field.name) = [mate] ∧
            mate.relation? = some back ∧ back.kind = writing.kind.inverse) ∧
      ∃ record, credited.2.store.get "Chapter" = .ok (some record) ∧
        ∃ field ∈ record.definition.fields, field.relation? = some belonging ∧
          ((Configuration.standard.system.contains belonging.target = false →
            ∃ other, credited.2.store.get belonging.target = .ok (some other)) ∧
          ∀ other, credited.2.store.get belonging.target = .ok (some other) →
            belonging.target ≠ "Chapter" →
            (∃ mate back, other.definition.fields.filter
                (fun again => again.invertsTo "Chapter" field.name) = [mate] ∧
              mate.relation? = some back ∧ back.kind = belonging.kind.inverse) ∨
            belonging.target = crediting.subject ∧
              ∃ kept, withAuthorsBarred.store.get crediting.subject = .ok (some kept) ∧
                ∃ bar ∈ kept.definition.fields, belonging.inverseName = some bar.name ∧
                  bar.targets "Chapter" = false) := by
  obtain ⟨-, author, chapter⟩ := credited_eq
  have authors := relation_recovered reached_withAuthorsBarred crediting_run trivial
    (store_withRecorder _ _) reconcile_withAuthorsUnbarred author List.mem_cons_self rfl
  have chapters := relation_recovered reached_withAuthorsBarred crediting_run trivial
    (store_withRecorder _ _) reconcile_withAuthorsUnbarred chapter List.mem_cons_self rfl
  refine ⟨reached_withAuthorsBarred, crediting_run, store_withRecorder _ _,
    reconcile_withAuthorsUnbarred, by decide +kernel,
    ⟨_, author, _, List.mem_cons_self, rfl, ?_⟩,
    _, chapter, _, List.mem_cons_self, rfl, chapters⟩
  -- The book is stored, and nothing of it blocks the authors: `authors` is no field that was kept.
  obtain ⟨other, stored⟩ := authors.1 (by decide +kernel)
  rcases authors.2 other stored (by decide) with
    ⟨mate, back, only, related, inverse⟩ | ⟨-, kept, isKept, bar, present, named, -⟩
  · exact ⟨other, mate, back, stored, only, related, inverse⟩
  · -- The version that was kept has one field, and `authors` is not its name.
    rw [show withAuthorsBarred.store.get crediting.subject =
      .ok (some ⟨⟨"Book", [.ofScalar "chapters" .integer]⟩, 1, 0, 0⟩) by decide +kernel] at isKept
    cases isKept
    obtain rfl := List.mem_singleton.mp present
    exact absurd named (by decide)

end Reachable

end ModelCatalog
