import ModelCatalog.Proofs.ChangeLocality
import ModelCatalog.Proofs.RelationInvariant

/-! Commutation: changes that lock different names come to the same in either order. -/

namespace ModelCatalog

open WritePlan

namespace Change

variable {configuration : Configuration} {catalog other : Catalog} {request : Change}
  {name : String} {now later : Nat}

/-! ## What a change leaves -/

/-- The records that a change leaves where no statement is refused. -/
def leaves (configuration : Configuration) (catalog : Catalog) (now : Nat) (request : Change) :
    Catalog :=
  match request.prepared configuration catalog with
  | .ok preparation => preparation.result catalog now
  | .error _ => catalog

/-- The statements that a change submits where none is refused. -/
def submits (configuration : Configuration) (catalog : Catalog) (request : Change) :
    List Statement :=
  match request.prepared configuration catalog with
  | .ok preparation => preparation.submitted
  | .error _ => []

/-- What a change answers where no statement is refused. -/
def answers (configuration : Configuration) (catalog : Catalog) (now : Nat) (request : Change) :
    Except Error (Option Record) :=
  (request.prepared configuration catalog).map fun preparation =>
    (preparation.result catalog now).find? request.subject

/-- A change that is prepared as it is among some records leaves alone what it does not lock
there. -/
theorem find?_leaves_of_free
    (same : request.prepared configuration catalog = request.prepared configuration other)
    (free : ¬(request.lockSet configuration catalog.store).contains name = true) :
    (request.leaves configuration other now).find? name = other.find? name := by
  -- A change that is refused leaves everything alone, and any other touches only what it locks.
  unfold leaves
  cases prepared : request.prepared configuration other with
  | error error => rfl
  | ok preparation =>
    exact find?_result_of_notMem prepared fun touched =>
      free (locks_touched (same.trans prepared) touched)

/-- A change that is prepared alike among other records makes the same of equal editions. -/
theorem edition?_leaves_congr
    (same : request.prepared configuration catalog = request.prepared configuration other)
    (alike : catalog.edition? name = other.edition? name) :
    (request.leaves configuration catalog now).edition? name =
      (request.leaves configuration other later).edition? name := by
  -- The same is done on both sides, or nothing is.
  unfold leaves
  rw [same]
  cases prepared : request.prepared configuration other with
  | error error => exact alike
  | ok preparation => exact edition?_result_congr (same.trans prepared) alike

/-- A change that is prepared alike among other records where its subject is the same gives an
answer of the same edition. -/
theorem answers_congr
    (same : request.prepared configuration catalog = request.prepared configuration other)
    (alike : catalog.edition? request.subject = other.edition? request.subject) :
    (request.answers configuration catalog now).map (Option.map Record.edition) =
      (request.answers configuration other later).map (Option.map Record.edition) := by
  -- The answer is what is left under the name of the subject.
  unfold answers
  rw [same]
  cases prepared : request.prepared configuration other with
  | error error => rfl
  | ok preparation =>
    exact congrArg Except.ok (edition?_result_congr (same.trans prepared) alike)

/-! ## Two changes -/

/-- Two changes lock different names, and there is nothing about a system model, neither among the
records nor in the changes. -/
structure Apart (configuration : Configuration) (catalog : Catalog) (one two : Change) : Prop where
  outside : ∀ name, configuration.system.contains name = true → catalog.find? name = none
  oneInCatalog : configuration.system.contains one.subject = false
  twoInCatalog : configuration.system.contains two.subject = false
  disjoint : (one.lockSet configuration catalog.store).Disjoint
    (two.lockSet configuration catalog.store)

namespace Apart

variable {one two : Change}

/-- Of two changes that are apart, either may be called the first. -/
theorem symm (apart : Apart configuration catalog one two) :
    Apart configuration catalog two one :=
  -- Disjointness is symmetric, and the two names change places.
  ⟨apart.outside, apart.twoInCatalog, apart.oneInCatalog, apart.disjoint.symm⟩

/-- After a change that locks other names, a change locks and prepares as it does before. -/
theorem prepared_leaves (apart : Apart configuration catalog one two) (now : Nat) :
    two.lockSet configuration catalog.store =
        two.lockSet configuration (one.leaves configuration catalog now).store ∧
      two.prepared configuration catalog =
        two.prepared configuration (one.leaves configuration catalog now) := by
  -- What the second change reads is locked by it or a system model, and neither is touched.
  have untouched : ∀ target,
      ¬(one.lockSet configuration catalog.store).contains target = true →
      catalog.find? target = (one.leaves configuration catalog now).find? target :=
    fun target free => (find?_leaves_of_free rfl free).symm
  refine prepared_congr (fun target system => untouched target fun locks => ?_)
    (fun target locks => untouched target (apart.disjoint.symm.notMem locks))
    fun target definition left refers => ?_
  · rw [inCatalog_of_locks apart.outside apart.oneInCatalog locks] at system
    cases system
  · unfold leaves at left
    cases prepared : one.prepared configuration catalog with
    | error error =>
      rw [prepared] at left
      exact ⟨definition, left, refers⟩
    | ok preparation =>
      rw [prepared] at left
      -- The first change brings no relation to the subject of the second, which it does not lock.
      rcases references_result prepared left refers with before | locks | system
      · exact before
      · exact absurd locks
          (apart.disjoint.symm.notMem (locks_subject configuration catalog.store two))
      · rw [apart.twoInCatalog] at system
        cases system

/-- Changes that lock different names leave the same editions in either order. -/
theorem edition?_leaves_leaves (apart : Apart configuration catalog one two)
    (first second third fourth : Nat) (name : String) :
    (two.leaves configuration (one.leaves configuration catalog first) second).edition? name =
      (one.leaves configuration (two.leaves configuration catalog third) fourth).edition? name := by
  obtain ⟨-, twoSame⟩ := apart.prepared_leaves first
  obtain ⟨-, oneSame⟩ := apart.symm.prepared_leaves third
  by_cases locks : (one.lockSet configuration catalog.store).contains name = true
  · -- What the first change locks, the second one leaves alone, whenever it comes.
    have free := apart.disjoint.notMem locks
    rw [Catalog.edition?_congr (find?_leaves_of_free twoSame free)]
    exact edition?_leaves_congr oneSame
      (Catalog.edition?_congr (find?_leaves_of_free rfl free)).symm
  · -- Otherwise the roles are exchanged.
    rw [Catalog.edition?_congr (find?_leaves_of_free oneSame locks)]
    exact (edition?_leaves_congr twoSame
      (Catalog.edition?_congr (find?_leaves_of_free rfl locks)).symm).symm

end Apart

/-! ## Calls -/

/-- What a change comes to on a database: its answer, and the database that it leaves together with
the statements that it has submitted. -/
def outcome (executor : Executor) (configuration : Configuration) (request : Change)
    (database : Database) : Except Error (Option Record) × Noted Database :=
  request.answer (Noted.registry (registryWith executor configuration)) ⟨database, []⟩

/-- Where no statement is refused a change gives its answer, submits its statements and leaves its
records. -/
theorem outcome_of_accepts (configuration : Configuration) {executor : Executor}
    (accepts : executor.Accepts) {database : Database} (holds : database.store = catalog.store)
    (request : Change) :
    (request.outcome executor configuration database).1 =
        request.answers configuration catalog database.now ∧
      (request.outcome executor configuration database).2.statements =
        request.submits configuration catalog ∧
      (request.outcome executor configuration database).2.state.store =
        (request.leaves configuration catalog database.now).store := by
  have begun : Goes executor catalog ⟨database, []⟩ request.subject
      (request.prepared configuration catalog)
      (request.answer (Noted.registry (registryWith executor configuration))) := goes holds request
  unfold outcome answers submits leaves
  -- An executor that accepts everything cannot be what stops the change.
  rcases begun with ⟨error, prepared, refused⟩ |
    ⟨preparation, prepared, ⟨final, done, left, -⟩ | ⟨_, _, -, rejects⟩⟩
  · rw [refused, prepared]
    exact ⟨rfl, rfl, holds⟩
  · rw [done, prepared]
    exact ⟨rfl, List.nil_append _, left⟩
  · exact absurd accepts rejects

/-- Two changes, one after the other. Beside the records, anything may change in between. -/
structure Row (executor : Executor) (configuration : Configuration) (first second : Change) where
  start : Database
  middle : Database
  resumes : middle.store = (first.outcome executor configuration start).2.state.store

namespace Row

variable {executor : Executor} {first second : Change}

/-- What the first of the two changes comes to. -/
def firstOutcome (row : Row executor configuration first second) :
    Except Error (Option Record) × Noted Database :=
  first.outcome executor configuration row.start

/-- What the second one comes to after the first. -/
def secondOutcome (row : Row executor configuration first second) :
    Except Error (Option Record) × Noted Database :=
  second.outcome executor configuration row.middle

/-- Each change of a row leaves alone what it does not lock, and the second one locks what it would
have locked before the first. -/
structure Confined (row : Row executor configuration first second) : Prop where
  locks : second.lockSet configuration row.middle.store =
    second.lockSet configuration row.start.store
  first : ∀ name, (first.lockSet configuration row.start.store).contains name = false →
    row.firstOutcome.2.state.store.get name = row.start.store.get name
  second : ∀ name, (second.lockSet configuration row.start.store).contains name = false →
    row.secondOutcome.2.state.store.get name = row.middle.store.get name

/-- Two rows of the same changes, the one in the order of the other reversed, come to the same: each
change gives an answer of the same edition or the same error and submits the same statements, and
in the end the same editions are stored under all names. -/
structure Agrees (forth : Row executor configuration first second)
    (back : Row executor configuration second first) : Prop where
  firstAnswer : forth.firstOutcome.1.map (Option.map Record.edition) =
    back.secondOutcome.1.map (Option.map Record.edition)
  secondAnswer : forth.secondOutcome.1.map (Option.map Record.edition) =
    back.firstOutcome.1.map (Option.map Record.edition)
  firstStatements : forth.firstOutcome.2.statements = back.secondOutcome.2.statements
  secondStatements : forth.secondOutcome.2.statements = back.firstOutcome.2.statements
  editions : ∀ name,
    (forth.secondOutcome.2.state.store.get name).map (Option.map Record.edition) =
      (back.secondOutcome.2.state.store.get name).map (Option.map Record.edition)

end Row

/-- Where no statement is refused the second change of a row finds the records that the first one
leaves, and leaves its own. -/
theorem Row.stores_of_accepts {executor : Executor} {first second : Change}
    (accepts : executor.Accepts) (row : Row executor configuration first second)
    (holds : row.start.store = catalog.store) :
    row.middle.store = (first.leaves configuration catalog row.start.now).store ∧
      row.secondOutcome.2.state.store = (second.leaves configuration
        (first.leaves configuration catalog row.start.now) row.middle.now).store := by
  -- Whatever else has changed in between, the second change finds the records of the first.
  obtain ⟨-, -, left⟩ := outcome_of_accepts configuration accepts holds first
  have resumed := row.resumes.trans left
  obtain ⟨-, -, leftAgain⟩ := outcome_of_accepts configuration accepts resumed second
  exact ⟨resumed, leftAgain⟩

namespace Apart

variable {executor : Executor} {one two : Change}

/-- The changes of a row that lock different names each leave alone what they do not lock. -/
theorem confined (apart : Apart configuration catalog one two) (accepts : executor.Accepts)
    (row : Row executor configuration one two) (holds : row.start.store = catalog.store) :
    row.Confined := by
  -- The second change is prepared as if it were the first, so its locks hold for it as well.
  obtain ⟨-, -, left⟩ := outcome_of_accepts configuration accepts holds one
  obtain ⟨resumed, leftAgain⟩ := row.stores_of_accepts accepts holds
  obtain ⟨sameLocks, same⟩ := apart.prepared_leaves row.start.now
  refine ⟨?_, fun name free => ?_, fun name free => ?_⟩
  · -- The locks are the same, since the second change finds what it reads as it was.
    rw [resumed, holds, sameLocks]
  · rw [holds] at free ⊢
    rw [Row.firstOutcome, left, Catalog.get_store, Catalog.get_store,
      find?_leaves_of_free rfl (by simpa using free)]
  · rw [holds] at free
    rw [resumed, leftAgain, Catalog.get_store, Catalog.get_store,
      find?_leaves_of_free same (by simpa using free)]

/-- A change comes to the same, but for times, after another that locks different names. -/
theorem outcome_after (apart : Apart configuration catalog one two) (accepts : executor.Accepts)
    (row : Row executor configuration two one) (holds : row.start.store = catalog.store)
    {database : Database} (alone : database.store = catalog.store) :
    (one.outcome executor configuration database).1.map (Option.map Record.edition) =
        row.secondOutcome.1.map (Option.map Record.edition) ∧
      (one.outcome executor configuration database).2.statements =
        row.secondOutcome.2.statements := by
  obtain ⟨answer, statements, -⟩ := outcome_of_accepts configuration accepts alone one
  obtain ⟨resumed, -⟩ := row.stores_of_accepts accepts holds
  obtain ⟨answerAfter, statementsAfter, -⟩ :=
    outcome_of_accepts configuration accepts resumed one
  obtain ⟨-, same⟩ := apart.symm.prepared_leaves row.start.now
  -- The other change leaves the record of the subject alone.
  have untouched : (two.leaves configuration catalog row.start.now).find? one.subject =
      catalog.find? one.subject :=
    find?_leaves_of_free rfl
      (apart.disjoint.notMem (locks_subject configuration catalog.store one))
  -- The answers are of one edition, while their times may differ.
  rw [Row.secondOutcome, answer, answerAfter, statements, statementsAfter]
  refine ⟨answers_congr same (Catalog.edition?_congr untouched).symm, ?_⟩
  rw [submits, submits, same]

/-- Rows of changes that lock different names come to the same in either order. -/
theorem agrees (apart : Apart configuration catalog one two) (accepts : executor.Accepts)
    (forth : Row executor configuration one two) (back : Row executor configuration two one)
    (holds : forth.start.store = catalog.store) (holdsBack : back.start.store = catalog.store) :
    forth.Agrees back := by
  -- Each change is compared with itself, once at the beginning and once behind the other.
  obtain ⟨oneAnswer, oneStatements⟩ := apart.outcome_after accepts back holdsBack holds
  obtain ⟨twoAnswer, twoStatements⟩ := apart.symm.outcome_after accepts forth holds holdsBack
  refine ⟨oneAnswer, twoAnswer.symm, oneStatements, twoStatements.symm, fun name => ?_⟩
  obtain ⟨-, left⟩ := forth.stores_of_accepts accepts holds
  obtain ⟨-, leftBack⟩ := back.stores_of_accepts accepts holdsBack
  rw [left, leftBack, Catalog.get_store, Catalog.get_store]
  exact congrArg Except.ok (apart.edition?_leaves_leaves _ _ _ _ name)

end Apart

end Change

/-! ## States that are reached -/

namespace Reachable

variable {executor : Executor} {configuration : Configuration} {one two : Change}

/-- Changes that lock different names in a state that was reached without calls about system models
come to the same in either order where no statement is refused: each gives an answer of the same
edition or the same error and submits the same statements, each changes nothing but what it locks,
and in the end the same editions are stored. -/
theorem changes_commute (forth : Change.Row executor configuration one two)
    (back : Change.Row executor configuration two one) (accepts : executor.Accepts)
    (reached : Reachable configuration (configuration.system.contains · = false) forth.start)
    (again : back.start.store = forth.start.store)
    (oneInCatalog : configuration.system.contains one.subject = false)
    (twoInCatalog : configuration.system.contains two.subject = false)
    (disjoint : (one.lockSet configuration forth.start.store).Disjoint
      (two.lockSet configuration forth.start.store)) :
    forth.Agrees back ∧ forth.Confined ∧ back.Confined := by
  -- A reached state is a symmetric catalog, in which no relation leads from or to a system model.
  obtain ⟨catalog, holds, -, symmetric⟩ := reached.exists_symmetric
  have holdsBack := again.trans holds
  rw [holds] at disjoint
  -- No system model is stored, since no call was about one.
  have outside : ∀ name, configuration.system.contains name = true →
      catalog.find? name = none := by
    intro name system
    rw [← Option.not_isSome_iff_eq_none, ← Catalog.isSome_definition?, Option.isSome_iff_exists]
    rintro ⟨definition, stored⟩
    rw [symmetric.inCatalog name definition (by rwa [Catalog.find?_models])] at system
    cases system
  have apart : Change.Apart configuration catalog one two :=
    ⟨outside, oneInCatalog, twoInCatalog, disjoint⟩
  exact ⟨apart.agrees accepts forth back holds holdsBack, apart.confined accepts forth holds,
    apart.symm.confined accepts back holdsBack⟩

/-- A state in which there are authors of books besides the posts and their tags. -/
def published : Database :=
  ((Call.change (.define "Book" [.ofRelation "author" (.to .manyToOne "Author")])).run
    (registryWith .idle .standard)
    ((Call.change (.define "Author" [])).run (registryWith .idle .standard) posted).2).2

/-- The state of books and posts is one of those reached. -/
theorem reached_published :
    Reachable .standard (Configuration.standard.system.contains · = false) published := by
  have first : Reachable .standard (Configuration.standard.system.contains · = false)
      -- The authors are added first, and the books, which need them, after that.
      ((Call.change (.define "Author" [])).run (registryWith .idle .standard) posted).2 := by
    refine of_success reached_posted .idle (.change (.define "Author" [])) ?_ (by decide +kernel)
    show Configuration.standard.system.contains "Author" = false
    decide +kernel
  refine of_success first .idle
    (.change (.define "Book" [.ofRelation "author" (.to .manyToOne "Author")])) ?_
    (by decide +kernel)
  show Configuration.standard.system.contains "Book" = false
  decide +kernel

/-- A change in which the posts are marked by tags as well. -/
def markings : Change :=
  .update "Post" [.ofRelation "tags" (.to .manyToMany "Tag"),
    .ofRelation "marks" { Relation.to .oneToMany "Tag" with inverseName := some "marked" }]

/-- The deletion of the books, and then the change of the posts. -/
def booksFirst : Change.Row .idle .standard (.delete "Book") markings where
  start := published
  middle := ((Change.delete "Book").outcome .idle .standard published).2.state
  resumes := rfl

/-- The change of the posts, and then the deletion of the books. -/
def postsFirst : Change.Row .idle .standard markings (.delete "Book") where
  start := published
  middle := (markings.outcome .idle .standard published).2.state
  resumes := rfl

/-- The books go together with the relation of their authors, and the posts get marks together with
a column of the tags, in either order. -/
theorem changes_commute_published :
    Reachable .standard (Configuration.standard.system.contains · = false) published ∧
      ((Change.delete "Book").lockSet .standard published.store).Disjoint
        (markings.lockSet .standard published.store) ∧
      booksFirst.firstOutcome.1.isOk = true ∧ booksFirst.secondOutcome.1.isOk = true ∧
      booksFirst.secondOutcome.2.state.store.definitions.map
          (fun definition => (definition.name, definition.columnNames)) =
        [("Author", ["id"]), ("Post", ["id"]), ("Tag", ["id", "marked_id"])] ∧
      booksFirst.Agrees postsFirst ∧ booksFirst.Confined ∧ postsFirst.Confined := by
  -- The lock sets are worked out, and the state was reached by the calls above.
  have disjoint : ((Change.delete "Book").lockSet .standard published.store).Disjoint
      (markings.lockSet .standard published.store) := by decide +kernel
  have reached : Reachable .standard (Configuration.standard.system.contains · = false)
      booksFirst.start := by
    simp only [booksFirst]
    exact reached_published
  have commutes := changes_commute booksFirst postsFirst Executor.accepts_idle reached rfl
    (by decide +kernel) (by decide +kernel) disjoint
  exact ⟨reached_published, disjoint, by decide +kernel, by decide +kernel, by decide +kernel,
    commutes⟩

end Reachable

end ModelCatalog
